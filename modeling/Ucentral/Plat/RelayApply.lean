import Ucentral.Plat.Frame
import Ucentral.Plat.Relay

/-! The DHCP relays after `plat_config_apply`.

    Setting the addresses may take a relay down and leave it down, with the cache still saying that
    it is there. This is repaired by the relay stage, which adds a configured relay whatever the
    cache says, so that a call that returns 0 leaves every configured VLAN with the relay of the
    structure. The argument is about one VLAN at a time. -/

namespace Ucentral.Plat
open Inet Effect Router

variable {δ : Type}

/-- The helper addresses and the circuit id formats of the VLANs. -/
structure RelayView where
  helpers : ℕ → List InAddr
  circuitId : ℕ → RelayCircuitId

/-- What a granted request does to them. Of a VLAN that is deleted nothing is said. -/
def relayViewEffect (op : Op) (v v' : RelayView) : Prop :=
  match op with
  | .relayServerSet vid ip => v'.circuitId = v.circuitId ∧ v'.helpers =
    Function.update v.helpers vid (if ip ∈ v.helpers vid then v.helpers vid else v.helpers vid ++ [ip])
  | .relayServerDel vid ip => v'.circuitId = v.circuitId ∧ v'.helpers =
    Function.update v.helpers vid ((v.helpers vid).filter fun a => decide (a ≠ ip))
  | .relayCircuitIdSet vid id =>
    v'.helpers = v.helpers ∧ v'.circuitId = Function.update v.circuitId vid id
  | .vlanDel vid => ∀ u, u ≠ vid → v'.helpers u = v.helpers u ∧ v'.circuitId u = v.circuitId u
  | _ => v' = v

abbrev RelayViewSwitch (δ : Type) := Switch δ RelayView relayViewEffect

/-- The cached relays and circuit ids agree with those of the switch, but for the first VLAN. -/
def RelaysCached (c : PlatState) (v : RelayView) : Prop :=
  ∀ vid, vid ≠ firstVlan → v.helpers vid = (c.relay vid).helpers ∧ v.circuitId vid = (c.relay vid).circId

/-! ### One VLAN -/

section OneVlan

variable (sw : RelayViewSwitch δ) (i : ℕ)

/-- A condition on what the cache and the switch have for one VLAN. -/
def AtVlan (P : CachedRelay → List InAddr → RelayCircuitId → Prop) (s : PlatSt δ) : Prop :=
  P (s.state.cache.relay i) ((sw.view s.state.dev).helpers i) ((sw.view s.state.dev).circuitId i)

variable {i} {P Q : CachedRelay → List InAddr → RelayCircuitId → Prop}

/-- Requests that are not about the relay of the VLAN leave it alone. -/
theorem relayViewEffect_other {op : Op} (hop : op.area ≠ .relay i) {v v' : RelayView}
    (h : relayViewEffect op v v') : v'.helpers i = v.helpers i ∧ v'.circuitId i = v.circuitId i := by
  have hne : ∀ {vid}, OpArea.relay vid ≠ .relay i → i ≠ vid := by
    rintro vid h rfl
    exact h rfl
  cases op with
  | relayServerSet vid ip =>
    obtain ⟨hcirc, hhelpers⟩ := h
    rw [hcirc, hhelpers, Function.update_of_ne (hne hop)]
    exact ⟨rfl, rfl⟩
  | relayServerDel vid ip =>
    obtain ⟨hcirc, hhelpers⟩ := h
    rw [hcirc, hhelpers, Function.update_of_ne (hne hop)]
    exact ⟨rfl, rfl⟩
  | relayCircuitIdSet vid id =>
    obtain ⟨hhelpers, hcirc⟩ := h
    rw [hcirc, hhelpers, Function.update_of_ne (hne hop)]
    exact ⟨rfl, rfl⟩
  | vlanDel vid => exact h i (hne hop)
  | _ =>
    have heq : v' = v := h
    rw [heq]
    exact ⟨rfl, rfl⟩

theorem frame_atVlan : Frame sw.dev (· ≠ .relay i) (AtVlan sw i P) where
  request op s hop hs := by
    unfold AtVlan at hs ⊢
    dsimp only
    cases hg : (sw.dev.request op s.state.dev).1 with
    | true =>
      obtain ⟨hhelpers, hcirc⟩ := relayViewEffect_other hop (sw.granted op _ hg)
      rwa [hhelpers, hcirc]
    | false => rwa [sw.refused op _ hg]
  vlanList s hs := by
    unfold AtVlan at hs ⊢
    rwa [sw.vlanList]
  vlanMembers s hs := by
    unfold AtVlan at hs ⊢
    rwa [sw.vlanMembers]
  vlanErif vid s hs := by
    unfold AtVlan at hs ⊢
    rwa [sw.vlanErif]
  portList s hs := by
    unfold AtVlan at hs ⊢
    rwa [sw.portList]
  dacHosts s hs := by
    unfold AtVlan at hs ⊢
    rwa [sw.dacHosts]
  radiusHosts s hs := by
    unfold AtVlan at hs ⊢
    rwa [sw.radiusHosts]
  cache f s hf hs := by
    unfold AtVlan at hs ⊢
    dsimp only
    rwa [hf]

theorem keeps_modifyRelay_other {vid : ℕ} (hne : vid ≠ i) (f : CachedRelay → CachedRelay) :
    Keeps (AtVlan sw i P) (modifyRelay vid f) := by
  intro s hs
  change P (Function.update s.state.cache.relay vid _ i) _ _
  rw [Function.update_of_ne (Ne.symm hne)]
  exact hs

/-- A change of the cached relay. -/
theorem triple_modifyRelay {f : CachedRelay → CachedRelay} (h : ∀ r hs k, P r hs k → Q (f r) hs k)
    {E : PlatSt δ → Prop} : Triple (AtVlan sw i P) (modifyRelay i f) (fun _ => AtVlan sw i Q) E := by
  intro s hs
  change Q (Function.update s.state.cache.relay i _ i) _ _
  rw [Function.update_self]
  exact h _ _ _ hs

/-- A request about the relay of the VLAN that is granted. -/
theorem triple_relayRequest {op : Op} {g : List InAddr → List InAddr}
    {m : RelayCircuitId → RelayCircuitId}
    (hop : ∀ v v', relayViewEffect op v v' →
      v'.helpers i = g (v.helpers i) ∧ v'.circuitId i = m (v.circuitId i))
    (h : ∀ r hs k, P r hs k → Q r (g hs) (m k)) :
    Triple (AtVlan sw i P) (gnmiRequest sw.dev op) (fun _ => AtVlan sw i Q) (fun _ => True) := by
  refine triple_gnmiRequest sw (fun s d hs heff => ?_) (fun _ _ _ _ => trivial)
  obtain ⟨hhelpers, hcirc⟩ := hop _ _ heff
  unfold AtVlan
  dsimp only
  rw [hhelpers, hcirc]
  exact h _ _ _ hs

theorem triple_serverDel (ip : InAddr)
    (h : ∀ r hs k, P r hs k → Q r (hs.filter fun a => decide (a ≠ ip)) k) :
    Triple (AtVlan sw i P) (gnmiRequest sw.dev (.relayServerDel i ip)) (fun _ => AtVlan sw i Q)
      (fun _ => True) := by
  refine triple_relayRequest sw (m := id) ?_ h
  rintro v v' ⟨hcirc, hhelpers⟩
  rw [hcirc, hhelpers, Function.update_self]
  exact ⟨rfl, rfl⟩

theorem triple_serverSet (ip : InAddr)
    (h : ∀ r hs k, P r hs k → Q r (if ip ∈ hs then hs else hs ++ [ip]) k) :
    Triple (AtVlan sw i P) (gnmiRequest sw.dev (.relayServerSet i ip)) (fun _ => AtVlan sw i Q)
      (fun _ => True) := by
  refine triple_relayRequest sw (m := id) ?_ h
  rintro v v' ⟨hcirc, hhelpers⟩
  rw [hcirc, hhelpers, Function.update_self]
  exact ⟨rfl, rfl⟩

/-! ### The address of the VLAN -/

/-- The switch has the helper address of the cache, or none. -/
def WeakRelay (r : CachedRelay) (hs : List InAddr) (k : RelayCircuitId) : Prop :=
  k = r.circId ∧ (hs = [] ∨ hs = r.helpers)

/-- The switch has none. -/
def RelayDown (r : CachedRelay) (hs : List InAddr) (k : RelayCircuitId) : Prop :=
  k = r.circId ∧ hs = []

/-- Taking down what the cache has. -/
theorem WeakRelay.down {r : CachedRelay} {hs : List InAddr} {k : RelayCircuitId}
    (h : WeakRelay r hs k) : RelayDown r (hs.filter fun a => decide (a ≠ r.helperAddress)) k := by
  refine ⟨h.1, ?_⟩
  rcases h.2 with rfl | rfl
  · rfl
  · unfold CachedRelay.helpers
    split <;> simp

theorem WeakRelay.down_of_disabled {r : CachedRelay} {hs : List InAddr} {k : RelayCircuitId}
    (h : WeakRelay r hs k) (hoff : r.enabled = false) : RelayDown r hs k := by
  refine ⟨h.1, ?_⟩
  rcases h.2 with rfl | rfl
  · rfl
  · rw [CachedRelay.helpers, hoff]
    rfl

theorem RelayDown.weak {r : CachedRelay} {hs : List InAddr} {k : RelayCircuitId}
    (h : RelayDown r hs k) : WeakRelay r hs k :=
  ⟨h.1, Or.inl h.2⟩

/-- `plat_vlan_rif_set` on the VLAN leaves its helper address or none. -/
theorem triple_platVlanRifSet_weak (ipv4 : PlatIpv4) :
    Triple (AtVlan sw i WeakRelay) (platVlanRifSet sw.dev i ipv4) (fun _ => AtVlan sw i WeakRelay)
      (fun _ => True) := by
  have hother : OpArea.other ≠ .relay i := by simp
  refine triple_bind (triple_orFail ((frame_atVlan sw).keeps_gnmaVlanErifPrefGet i).anyFailure) ?_
  intro old
  refine triple_bind (Q := fun c => AtVlan sw i fun r hs k => r = c.relay i ∧ WeakRelay r hs k)
    (fun s hs => ⟨rfl, hs⟩) (fun c => ?_)
  refine triple_bind (Q := fun _ => AtVlan sw i RelayDown) (triple_when (fun _ => triple_orFail ?_)
    (fun hoff s hs => ?_)) (fun _ => ?_)
  · refine triple_serverDel sw _ ?_
    rintro r hs k ⟨rfl, hweak⟩
    exact hweak.down
  · exact hs.2.down_of_disabled (by rw [hs.1]; exact hoff)
  refine triple_bind (triple_orFail
    ((frame_atVlan sw).keeps_gnmaIgmpSnoopingSet hother i _).anyFailure) (fun _ => ?_)
  refine triple_bind (Q := fun _ => AtVlan sw i RelayDown) (triple_when (fun _ => ?_)
    (fun _ _ hs => hs)) (fun _ => ?_)
  · -- the old address goes
    rcases old with _ | pref
    · exact fun _ hs => hs
    · refine triple_bind (Q := fun _ => AtVlan sw i RelayDown) (triple_modifyRelay sw ?_) (fun _ => ?_)
      · exact fun r hs k hdown => hdown
      · exact triple_orFail (Keeps.anyFailure ((frame_atVlan sw).keeps_request hother))
  · -- the new address, and the relay again
    refine triple_when (fun _ => ?_) (fun _ s hs => RelayDown.weak hs)
    refine triple_bind (Q := fun _ => AtVlan sw i RelayDown) (triple_orFail ?_) (fun _ => ?_)
    · exact Keeps.anyFailure ((frame_atVlan sw).keeps_request hother)
    refine triple_bind (Q := fun c => AtVlan sw i fun r hs k => r = c.relay i ∧ RelayDown r hs k)
      (fun s hs => ⟨rfl, hs⟩) (fun c => ?_)
    refine triple_when (fun hon => triple_orFail (triple_orFail (triple_serverSet sw _ ?_)))
      (fun _ s hs => RelayDown.weak hs.2)
    rintro r hs k ⟨rfl, hk, rfl⟩
    refine ⟨hk, Or.inr ?_⟩
    rw [CachedRelay.helpers, if_pos hon]
    rfl

/-! ### The relay stage -/

/-- If the cache has a relay, it is the configured one. -/
def RelayCleared (new : DhcpRelay) (r : CachedRelay) (hs : List InAddr) (k : RelayCircuitId) : Prop :=
  WeakRelay r hs k ∧
    (r.enabled = true → new.enabled = true ∧ r.helperAddress = new.serverAddress)

/-- The switch has the configured relay. -/
def RelayApplied (new : DhcpRelay) (hs : List InAddr) (k : RelayCircuitId) : Prop :=
  hs = (if new.enabled then [new.serverAddress] else []) ∧
    (new.enabled = true → k = circuitIdOf new.circId)

theorem triple_relayClear_weak (cfg : PlatCfg) (hi : i ≠ firstVlan) :
    Triple (AtVlan sw i WeakRelay) (relayClear sw.dev cfg i)
      (fun _ => AtVlan sw i (RelayCleared (cfg.vlans i).relay)) (fun _ => True) := by
  refine triple_bind (Q := fun c => AtVlan sw i fun r hs k => r = c.relay i ∧ WeakRelay r hs k)
    (fun s hs => ⟨rfl, hs⟩) (fun c => ?_)
  refine triple_when (fun _ => ?_) (fun hstay s hs => ⟨hs.2, fun hon => ?_⟩)
  · refine triple_bind (Q := fun _ => AtVlan sw i RelayDown) (triple_orFail (triple_serverDel sw _ ?_))
      (fun _ => triple_modifyRelay sw ?_)
    · rintro r hs k ⟨rfl, hweak⟩
      exact hweak.down
    · rintro r hs k hdown
      exact ⟨RelayDown.weak hdown, fun hno => by cases hno⟩
  · rw [hs.1] at hon ⊢
    simpa [hon, hi] using hstay

/-- One parameter of the relay, which is sent if the cached one differs. -/
theorem triple_relayParam_at {differs : CachedRelay → Bool} (resource : String) {op : Op}
    {f : CachedRelay → CachedRelay} {m : RelayCircuitId → RelayCircuitId}
    (hop : ∀ v v', relayViewEffect op v v' →
      v'.helpers i = v.helpers i ∧ v'.circuitId i = m (v.circuitId i))
    (hset : ∀ r hs k, P r hs k → Q (f r) hs (m k))
    (hskip : ∀ r hs k, P r hs k → differs r = false → Q r hs k) :
    Triple (AtVlan sw i P) (relayParam i differs (relaySet sw.dev i resource op) f)
      (fun _ => AtVlan sw i Q) (fun _ => True) := by
  refine triple_bind (Q := fun c => AtVlan sw i fun r hs k => r = c.relay i ∧ P r hs k)
    (fun s hs => ⟨rfl, hs⟩) (fun c => ?_)
  refine triple_when (fun _ => ?_) (fun hsame s hs => hskip _ _ _ hs.2 (by rw [hs.1]; exact hsame))
  refine triple_bind (Q := fun _ => AtVlan sw i fun r hs k => Q (f r) hs k) (triple_orFail ?_)
    (fun _ => triple_modifyRelay sw ?_)
  · exact triple_relayRequest sw (g := id) hop (fun r hs k hp => hset r hs k hp.2)
  · exact fun r hs k hq => hq

/-- The server is on the switch and in the cache. -/
def RelayAdded (new : DhcpRelay) (r : CachedRelay) (hs : List InAddr) (k : RelayCircuitId) : Prop :=
  hs = [new.serverAddress] ∧ k = r.circId ∧ r.helperAddress = new.serverAddress

/-- A relay that is configured is on the switch after its turn. -/
theorem triple_relayAdd_cleared (cfg : PlatCfg) (hi : i ≠ firstVlan) :
    Triple (AtVlan sw i (RelayCleared (cfg.vlans i).relay)) (relayAdd sw.dev cfg i)
      (fun _ => AtVlan sw i fun r hs k => RelayCleared (cfg.vlans i).relay r hs k ∧
        RelayApplied (cfg.vlans i).relay hs k) (fun _ => True) := by
  refine triple_when (fun hgo => ?_) (fun hskip s hs => ⟨hs, ?_⟩)
  · simp only [Bool.and_eq_true, decide_eq_true_eq] at hgo
    obtain ⟨hnew, -⟩ := hgo
    generalize (cfg.vlans i).relay = new at hnew ⊢
    refine triple_bind (Q := fun _ => AtVlan sw i fun r hs k => hs = [new.serverAddress] ∧ k = r.circId)
      (triple_orFail (triple_serverSet sw _ ?_)) (fun _ => ?_)
    · rintro r hs k ⟨⟨hk, hhelpers⟩, hwanted⟩
      refine ⟨?_, hk⟩
      rcases hhelpers with rfl | rfl
      · rfl
      · cases hon : r.enabled with
        | false => simp [CachedRelay.helpers, hon]
        | true => simp [CachedRelay.helpers, hon, (hwanted hon).2]
    refine triple_bind (Q := fun _ => AtVlan sw i (RelayAdded new)) (triple_modifyRelay sw ?_)
      (fun _ => ?_)
    · exact fun r hs k h => ⟨h.1, h.2, rfl⟩
    have hother : ∀ v v' : RelayView, v' = v →
        v'.helpers i = v.helpers i ∧ v'.circuitId i = id (v.circuitId i) := by
      rintro v v' rfl
      exact ⟨rfl, rfl⟩
    refine triple_bind (Q := fun _ => AtVlan sw i (RelayAdded new)) (triple_relayParam_at sw _ hother
      (fun _ _ _ h => h) (fun _ _ _ h _ => h)) (fun _ => ?_)
    refine triple_bind (Q := fun _ => AtVlan sw i (RelayAdded new)) (triple_relayParam_at sw _ hother
      (fun _ _ _ h => h) (fun _ _ _ h _ => h)) (fun _ => ?_)
    refine triple_bind (Q := fun _ => AtVlan sw i fun r hs k => RelayAdded new r hs k ∧
      r.circId = circuitIdOf new.circId) (triple_relayParam_at sw (m := fun _ => circuitIdOf new.circId)
      _ ?_ ?_ ?_) (fun _ => triple_modifyRelay sw ?_)
    · rintro v v' ⟨hhelpers, hcirc⟩
      rw [hhelpers, hcirc, Function.update_self]
      exact ⟨rfl, rfl⟩
    · exact fun r hs k h => ⟨⟨h.1, rfl, h.2.2⟩, rfl⟩
    · exact fun r hs k h hsame => ⟨h, by simpa using hsame⟩
    · rintro r hs k ⟨⟨rfl, rfl, haddr⟩, hcirc⟩
      refine ⟨⟨⟨rfl, Or.inr ?_⟩, fun _ => ⟨hnew, haddr⟩⟩, ?_, fun _ => hcirc⟩
      · rw [CachedRelay.helpers, if_pos rfl, haddr]
      · rw [hnew, if_pos rfl]
  · have hoff : (cfg.vlans i).relay.enabled = false := by simpa [hi] using hskip
    have hdown := hs.1.down_of_disabled (Bool.eq_false_iff.mpr fun hon => by
      have hnew := (hs.2 hon).1
      rw [hoff] at hnew
      cases hnew)
    refine ⟨?_, fun hon => ?_⟩
    · rw [hdown.2, hoff]
      rfl
    · rw [hoff] at hon
      cases hon

/-- The relay stage, for a VLAN that is configured. -/
theorem triple_configVlanDhcpRelayApply_weak (cfg : PlatCfg) (hi : i ≠ firstVlan)
    (hmem : i ∈ cfg.vlansToCfg.bitsSet maxVlans) :
    Triple (AtVlan sw i WeakRelay) (configVlanDhcpRelayApply sw.dev cfg)
      (fun _ => AtVlan sw i fun _ hs k => RelayApplied (cfg.vlans i).relay hs k) (fun _ => True) := by
  have hclear : ∀ {P : CachedRelay → List InAddr → RelayCircuitId → Prop} (j : ℕ), j ≠ i →
      Keeps (AtVlan sw i P) (relayClear sw.dev cfg j) := by
    intro P j hj
    exact (frame_atVlan sw).keeps_relayClear cfg (by simpa using hj) (keeps_modifyRelay_other sw hj)
  have hadd : ∀ {P : CachedRelay → List InAddr → RelayCircuitId → Prop} (j : ℕ), j ≠ i →
      Keeps (AtVlan sw i P) (relayAdd sw.dev cfg j) := by
    intro P j hj
    exact (frame_atVlan sw).keeps_relayAdd cfg (by simpa using hj) (keeps_modifyRelay_other sw hj)
  refine triple_bind (triple_forM_one (fun j hj => (hclear j hj).anyFailure)
    (fun j hj => (hclear j hj).anyFailure) (triple_relayClear_weak sw cfg hi) (fun s hs => hs.1) _ hmem)
    (fun _ => ?_)
  refine Triple.post (triple_forM_one (fun j hj => (hadd j hj).anyFailure)
    (fun j hj => (hadd j hj).anyFailure) (triple_relayAdd_cleared sw cfg hi) (fun s hs => hs.1) _ hmem)
    (fun _ s hs => hs.2)

/-! ### The whole -/

/-- A call that returns 0 leaves the configured relay on the VLAN. -/
theorem triple_platConfigApply_relay (qs : Qsort) (cfg : PlatCfg) (hi : i ≠ firstVlan)
    (hmem : i ∈ cfg.vlansToCfg.bitsSet maxVlans) :
    Triple (AtVlan sw i WeakRelay) (platConfigApply sw.dev qs cfg)
      (fun _ => AtVlan sw i fun _ hs k => RelayApplied (cfg.vlans i).relay hs k) (fun _ => True) := by
  have h := frame_atVlan sw (i := i) (P := WeakRelay)
  have hother : OpArea.other ≠ .relay i := by simp
  have hkept : ∀ vid, cfg.vlansToCfg vid = false → vid ≠ i := by
    rintro vid hno rfl
    rw [(Bitmap.mem_bitsSet.mp hmem).2] at hno
    cases hno
  refine triple_bind (triple_orFail (Keeps.anyFailure ?_)) (fun _ => ?_)
  · exact h.keeps_configVlanApply hother cfg (fun vid hno => by simpa using hkept vid hno)
      (fun vid f hno => keeps_modifyRelay_other sw (hkept vid hno) f)
  refine triple_bind (triple_orFail (Keeps.anyFailure (keeps_forM _ fun j => ?_))) (fun _ => ?_)
  · exact h.keeps_portApply hother cfg j (fun _ => h.keeps_platPortSpeedSet (by simp) j _)
  refine triple_bind (triple_orFail (h.keeps_configUnitApply hother cfg).anyFailure) (fun _ => ?_)
  refine triple_bind (triple_orFail (h.keeps_configStpApply hother cfg).anyFailure) (fun _ => ?_)
  -- the addresses, of this VLAN and of others
  refine triple_bind (Q := fun _ => AtVlan sw i WeakRelay) (triple_orFail (triple_forM_mem _ ?_)) ?_
  · refine fun j _ => triple_when (fun _ => triple_bind (Q := fun _ => AtVlan sw i WeakRelay) ?_
      fun _ => ?_) (fun _ _ hs => hs)
    · by_cases hj : (cfg.vlans j).id = i
      · rw [hj]
        exact triple_platVlanRifSet_weak sw _
      · exact Keeps.anyFailure (h.keeps_platVlanRifSet hother (by simpa using hj)
          (keeps_modifyRelay_other sw hj) _)
    · exact (h.keeps_platVlanIgmpSet hother _ _).anyFailure
  intro _
  refine triple_bind (triple_orFail (h.keeps_configPortl2Ipv4Apply hother cfg).anyFailure) (fun _ => ?_)
  refine triple_bind (triple_orFail (triple_configVlanDhcpRelayApply_weak sw cfg hi hmem)) (fun _ => ?_)
  exact ((frame_atVlan sw).keeps_afterRelays hother qs cfg).anyFailure

end OneVlan

end Ucentral.Plat
