import Ucentral.Lib.Run
import Ucentral.Plat.Switch
import Ucentral.Plat.Vlans

/-! The DHCP relays of the VLANs, cached and on the switch.

    Two parts of the client write the same relays: the address of a VLAN cannot be changed while a
    relay stands on it, so `plat_vlan_rif_set` takes the relay down, and it puts it back if the address
    has changed; the relay stage removes and adds relays as configured. Both act on the one address
    that the cache keeps for a VLAN. -/

namespace Ucentral.Plat
open Inet Effect Run

variable {δ : Type}

/-! ### The helper addresses on the switch -/

/-- What a granted request does to the helper addresses of the VLANs. The addresses of a VLAN that is
    deleted may go with it. -/
def relayEffect (op : Op) (v v' : ℕ → List InAddr) : Prop :=
  match op with
  | .relayServerSet vid ip =>
    v' = Function.update v vid (if ip ∈ v vid then v vid else v vid ++ [ip])
  | .relayServerDel vid ip => v' = Function.update v vid ((v vid).filter fun a => decide (a ≠ ip))
  | .vlanDel vid => (∀ u, u ≠ vid → v' u = v u) ∧ (v' vid).Sublist (v vid)
  | _ => v' = v

/-- A switch that keeps helper addresses. -/
abbrev RelaySwitch (δ : Type) := Switch δ (ℕ → List InAddr) relayEffect

/-- The helper addresses that the cache stands for. -/
def CachedRelay.helpers (r : CachedRelay) : List InAddr := if r.enabled then [r.helperAddress] else []

/-- The cache of every VLAN but the first agrees with the switch. -/
def RelaysAgree (c : PlatState) (v : ℕ → List InAddr) : Prop :=
  ∀ vid, vid ≠ firstVlan → v vid = (c.relay vid).helpers

section Steps

variable (sw : RelaySwitch δ)

def RelayCoherent (s : PlatSt δ) : Prop := RelaysAgree s.state.cache (sw.view s.state.dev)

/-- Changing one VLAN on the switch and in the cache, to something that agrees. -/
theorem RelaysAgree.change {c : PlatState} {v v' : ℕ → List InAddr} (h : RelaysAgree c v) {vid : ℕ}
    {r : CachedRelay} (hother : ∀ u, u ≠ vid → v' u = v u)
    (hvid : vid ≠ firstVlan → v' vid = r.helpers) :
    RelaysAgree { c with relay := Function.update c.relay vid r } v' := by
  intro u hu
  change v' u = (Function.update c.relay vid r u).helpers
  by_cases huv : u = vid
  · rw [huv, Function.update_self]
    exact hvid (huv ▸ hu)
  · rw [Function.update_of_ne huv, hother u huv]
    exact h u hu

/-- Requests that do not concern helper addresses. -/
theorem keeps_relay_request {P : PlatState → (ℕ → List InAddr) → Prop} {op : Op}
    (hop : ∀ v v', relayEffect op v v' → v' = v) :
    Keeps (fun s => P s.state.cache (sw.view s.state.dev)) (gnmiRequest sw.dev op) := by
  refine triple_gnmiRequest sw (fun s d hs heff => ?_) (fun s d hs hview => ?_)
  · dsimp only
    rw [hop _ _ heff]
    exact hs
  · dsimp only
    rw [hview]
    exact hs

/-- Switching snooping off never fails. -/
theorem triple_igmpOff (P : PlatState → (ℕ → List InAddr) → Prop) {E : PlatSt δ → Prop} (vid : ℕ) :
    Triple (fun s => P s.state.cache (sw.view s.state.dev)) (gnmaIgmpSnoopingSet sw.dev vid {})
      (fun _ s => P s.state.cache (sw.view s.state.dev)) E := by
  refine triple_forM_mem (I := fun s : PlatSt δ => P s.state.cache (sw.view s.state.dev)) _
    (fun r _ => triple_ignore ?_)
  exact keeps_relay_request sw (fun _ _ h => h)

/-! ### Setting the address of a VLAN -/

/-- The address that a query reports; none at all if it fails or reports several. -/
def reportedPref : Option (List IpPrefix) → Option (Option IpPrefix)
  | some [] => some none
  | some [pref] => some (some pref)
  | _ => none

/-- A call that takes a relay down removes the address, or sets another one. -/
def RifCarried (dv : Dev δ) (vid : ℕ) (ipv4 : PlatIpv4) (s : PlatSt δ) : Prop :=
  let r := s.state.cache.relay vid
  let reply := dv.vlanErif vid s.state.dev
  vid ≠ firstVlan → r.enabled = true → ∀ old, reportedPref reply.1 = some old →
    (dv.request (.relayServerDel vid r.helperAddress) reply.2).1 = true →
    if ipv4.exist then old ≠ some ⟨ipv4.subnet, ipv4.subnetLen⟩ else old ≠ none

/-- The new address of a VLAN, or the relay after it, was refused. -/
def RestoreRefused (vid : ℕ) (log : List (Op × Bool)) : Prop :=
  (∃ pref, (Op.vlanErifSet vid pref, false) ∈ log) ∨ ∃ ip, (Op.relayServerSet vid ip, false) ∈ log

theorem triple_gnmaVlanErifPrefGet (vid : ℕ) (s : PlatSt δ) :
    Triple (· = s) (gnmaVlanErifPrefGet sw.dev vid)
      (fun old t => reportedPref (sw.dev.vlanErif vid s.state.dev).1 = some old ∧
        t = ⟨⟨s.state.cache, (sw.dev.vlanErif vid s.state.dev).2⟩, s.log⟩)
      (fun t => t = ⟨⟨s.state.cache, (sw.dev.vlanErif vid s.state.dev).2⟩, s.log⟩) := by
  rintro s' rfl
  unfold gnmaVlanErifPrefGet
  rw [Prog.bind_run_ok (ask_run _ _)]
  rcases (sw.dev.vlanErif vid s'.state.dev).1 with _ | prefs
  · rfl
  · rcases prefs with _ | ⟨pref, _ | ⟨_, _⟩⟩
    · exact ⟨rfl, rfl⟩
    · exact ⟨rfl, rfl⟩
    · rfl

/-- After the relay has been taken down: the cache is as before, the VLAN has no helper address, and
    if it had one, the call goes on to change the address. -/
def TakenDown (s : PlatSt δ) (vid : ℕ) (changes : Prop) (c : PlatState) (v : ℕ → List InAddr) : Prop :=
  c = s.state.cache ∧ (∀ u, u ≠ vid → v u = sw.view s.state.dev u) ∧
    (vid ≠ firstVlan → v vid = [] ∧ ((s.state.cache.relay vid).enabled = true → changes))

/-- Where no relay was taken down, the cache and the switch still agree. -/
theorem TakenDown.coherent {s t : PlatSt δ} (h : RelayCoherent sw s) {vid : ℕ} {changes : Prop}
    (ht : TakenDown sw s vid changes t.state.cache (sw.view t.state.dev))
    (hoff : vid ≠ firstVlan → (s.state.cache.relay vid).enabled = false) : RelayCoherent sw t := by
  obtain ⟨hc, hother, hvid⟩ := ht
  intro u hu
  by_cases huv : u = vid
  · subst huv
    rw [(hvid hu).1, hc, CachedRelay.helpers, hoff hu]
    rfl
  · rw [hother u huv, hc]
    exact h u hu

theorem triple_takeDown {s : PlatSt δ} (h : RelayCoherent sw s) (vid : ℕ) {changes : Prop}
    (hchanges : vid ≠ firstVlan → (s.state.cache.relay vid).enabled = true →
      (sw.dev.request (.relayServerDel vid (s.state.cache.relay vid).helperAddress)
        (sw.dev.vlanErif vid s.state.dev).2).1 = true → changes) :
    Triple (fun t => t = ⟨⟨s.state.cache, (sw.dev.vlanErif vid s.state.dev).2⟩, s.log⟩)
      (Prog.when (s.state.cache.relay vid).enabled (Prog.orFail (-1)
        (gnmaVlanDhcpRelayServerRemove sw.dev vid (s.state.cache.relay vid).helperAddress)))
      (fun _ t => TakenDown sw s vid changes t.state.cache (sw.view t.state.dev))
      (RelayCoherent sw) := by
  have hview := sw.vlanErif vid s.state.dev
  refine triple_when (fun hon => triple_orFail ?_) (fun hoff => ?_)
  · rintro t rfl
    rw [gnmaVlanDhcpRelayServerRemove, gnmiRequest_run]
    cases hg : (sw.dev.request (.relayServerDel vid (s.state.cache.relay vid).helperAddress)
        (sw.dev.vlanErif vid s.state.dev).2).1 with
    | true =>
      have heff := sw.granted _ _ hg
      change _ = Function.update _ _ _ at heff
      rw [hview] at heff
      refine ⟨rfl, fun u hu => ?_, fun hvid => ⟨?_, fun _ => hchanges hvid hon hg⟩⟩
      · dsimp only
        rw [heff, Function.update_of_ne hu]
      · dsimp only
        rw [heff, Function.update_self, h vid hvid, CachedRelay.helpers, if_pos hon]
        simp
    | false =>
      intro u hu
      dsimp only
      rw [sw.refused _ _ hg, hview]
      exact h u hu
  · rintro t rfl
    refine ⟨rfl, fun u _ => congrFun hview u, fun hvid => ⟨?_, fun hon => ?_⟩⟩
    · dsimp only
      rw [hview, h vid hvid, CachedRelay.helpers, hoff]
      rfl
    · rw [hoff] at hon
      cases hon

/-- The address goes, and the relay of the cache with it. -/
theorem triple_erifRemove {s : PlatSt δ} (h : RelayCoherent sw s) (vid : ℕ) (old : Option IpPrefix) :
    Triple (fun t => TakenDown sw s vid (old ≠ none) t.state.cache (sw.view t.state.dev))
      (erifRemove sw.dev vid old)
      (fun _ t => RelayCoherent sw t ∧
        (vid ≠ firstVlan → (t.state.cache.relay vid).enabled = false))
      (RelayCoherent sw) := by
  rcases old with _ | pref
  · intro t ht
    have hoff : vid ≠ firstVlan → (s.state.cache.relay vid).enabled = false := by
      intro hne
      exact Bool.eq_false_iff.mpr (fun hon => (ht.2.2 hne).2 hon rfl)
    exact ⟨ht.coherent sw h hoff, fun hne => ht.1 ▸ hoff hne⟩
  · refine triple_bind (Q := fun _ t => RelayCoherent sw t ∧
      (vid ≠ firstVlan → (t.state.cache.relay vid).enabled = false)) ?_ (fun _ => ?_)
    · refine triple_modifyCache ?_
      rintro t ⟨hc, hother, hvid⟩
      have hagree : RelaysAgree t.state.cache (sw.view s.state.dev) := by
        rw [hc]
        exact h
      refine ⟨hagree.change hother (fun hne => (hvid hne).1), fun _ => ?_⟩
      dsimp only
      rw [Function.update_self]
    · have hkeep : Keeps _ (gnmiRequest sw.dev (.vlanErifDel vid pref.ip)) :=
        keeps_relay_request sw (P := fun c v => RelaysAgree c v ∧
          (vid ≠ firstVlan → (c.relay vid).enabled = false)) (fun _ _ h => h)
      exact triple_orFail (hkeep.imp (fun _ h => h) (fun _ _ h => h) (fun _ h => h.1))

/-- The new address, and the relay again if there was one. -/
theorem triple_erifSet {s : PlatSt δ} (h : RelayCoherent sw s) (vid : ℕ) (pref : IpPrefix) :
    Triple (fun t => TakenDown sw s vid True t.state.cache (sw.view t.state.dev))
      (do
        Prog.orFail (-1) (gnmiRequest sw.dev (.vlanErifSet vid pref))
        let relay := (← getCache).relay vid
        Prog.when relay.enabled
          (Prog.orFail (-1) (gnmaVlanDhcpRelayServerAdd sw.dev vid relay.helperAddress)))
      (fun _ => RelayCoherent sw)
      (fun t => (vid ≠ firstVlan ∧ (s.state.cache.relay vid).enabled = true ∧
        RestoreRefused vid t.log) ∨ RelayCoherent sw t) := by
  refine triple_bind (Q := fun _ t => TakenDown sw s vid True t.state.cache (sw.view t.state.dev))
    (triple_orFail ?_) (fun _ => ?_)
  · refine triple_gnmiRequest sw (fun t d ht heff => ?_) (fun t d ht hview => ?_)
    · change sw.view d = sw.view t.state.dev at heff
      dsimp only
      rw [heff]
      exact ht
    · by_cases hon : vid ≠ firstVlan ∧ (s.state.cache.relay vid).enabled = true
      · exact Or.inl ⟨hon.1, hon.2, Or.inl ⟨pref, by simp⟩⟩
      · have ht' : TakenDown sw s vid True t.state.cache (sw.view d) := hview ▸ ht
        refine Or.inr (TakenDown.coherent sw h ht' fun hvid => ?_)
        exact Bool.eq_false_iff.mpr (fun h' => hon ⟨hvid, h'⟩)
  · refine triple_bind (Q := fun c t => c = s.state.cache ∧
      TakenDown sw s vid True t.state.cache (sw.view t.state.dev)) (fun t ht => ⟨ht.1, ht⟩) ?_
    intro c
    refine triple_at ?_
    rintro t ⟨rfl, ht⟩
    refine triple_when (fun hon => triple_orFail (triple_orFail ?_)) (fun hno => ?_)
    · refine triple_gnmiRequest sw ?_ ?_
      · -- the relay is back
        rintro t' d rfl heff
        obtain ⟨hc, hother, hvid⟩ := ht
        change _ = Function.update _ _ _ at heff
        intro u hu
        dsimp only
        rw [heff, hc]
        by_cases huv : u = vid
        · subst huv
          rw [Function.update_self, (hvid hu).1, CachedRelay.helpers, if_pos hon]
          rfl
        · rw [Function.update_of_ne huv, hother u huv]
          exact h u hu
      · rintro t' d rfl hview
        by_cases hvid : vid = firstVlan
        · have ht' : TakenDown sw s vid True t'.state.cache (sw.view d) := hview ▸ ht
          exact Or.inr (TakenDown.coherent sw h ht' fun hne => absurd hvid hne)
        · exact Or.inl ⟨hvid, hon, Or.inr ⟨_, List.mem_append_right _ (List.mem_singleton_self _)⟩⟩
    · rintro t' rfl
      exact ht.coherent sw h (fun _ => hno)

/-- `plat_vlan_rif_set` from a coherent cache. -/
theorem triple_platVlanRifSet {s : PlatSt δ} (h : RelayCoherent sw s) {vid : ℕ} {ipv4 : PlatIpv4}
    (hcarried : RifCarried sw.dev vid ipv4 s) :
    Triple (· = s) (platVlanRifSet sw.dev vid ipv4)
      (fun _ t => RelayCoherent sw t ∧
        (ipv4.exist = false → vid ≠ firstVlan → (t.state.cache.relay vid).enabled = false))
      (fun t => (ipv4.exist = true ∧ vid ≠ firstVlan ∧ (s.state.cache.relay vid).enabled = true ∧
        RestoreRefused vid t.log) ∨ RelayCoherent sw t) := by
  have hasked : RelayCoherent sw
      ⟨⟨s.state.cache, (sw.dev.vlanErif vid s.state.dev).2⟩, s.log⟩ := by
    unfold RelayCoherent
    rw [sw.vlanErif]
    exact h
  refine triple_bind (triple_orFail ((triple_gnmaVlanErifPrefGet sw vid s).imp (fun _ h => h)
    (fun _ _ h => h) (fun t ht => Or.inr (ht ▸ hasked)))) (fun old => ?_)
  refine triple_bind (Q := fun c t => c = s.state.cache ∧
    reportedPref (sw.dev.vlanErif vid s.state.dev).1 = some old ∧
    t = ⟨⟨s.state.cache, (sw.dev.vlanErif vid s.state.dev).2⟩, s.log⟩) ?_ (fun c => ?_)
  · rintro t ⟨hold, rfl⟩
    exact ⟨rfl, hold, rfl⟩
  refine triple_at ?_
  rintro t ⟨rfl, hold, rfl⟩
  -- the relay is taken down, snooping is switched off
  refine triple_bind ((triple_takeDown sw h vid (fun hvid hon hg => hcarried hvid hon old hold hg)).imp
    (fun _ h => h) (fun _ _ h => h) (fun _ h => Or.inr h)) (fun _ => ?_)
  refine triple_bind (triple_orFail (triple_igmpOff sw (TakenDown sw s vid _) vid)) (fun _ => ?_)
  cases hexist : ipv4.exist with
  | false =>
    refine triple_bind (Q := fun _ t => RelayCoherent sw t ∧
      (vid ≠ firstVlan → (t.state.cache.relay vid).enabled = false)) ?_ (fun _ t ht => ?_)
    · exact (triple_erifRemove sw h vid old).imp (fun _ ht => ht) (fun _ _ ht => ht)
        (fun _ ht => Or.inr ht)
    · exact ⟨ht.1, fun _ => ht.2⟩
  | true =>
    refine triple_bind (triple_when (fun hno => by cases hno) (fun _ _ ht => ht)) (fun _ => ?_)
    refine triple_when (fun _ => (triple_erifSet sw h vid _).imp ?_ ?_ ?_) (fun hsame t ht => ?_)
    · exact fun t ht => ⟨ht.1, ht.2.1, fun hvid => ⟨(ht.2.2 hvid).1, fun _ => trivial⟩⟩
    · exact fun _ t ht => ⟨ht, fun hno => by cases hno⟩
    · exact fun t ht => ht.imp_left (fun hbad => ⟨rfl, hbad⟩)
    · -- the address stays, so there was no relay
      have hold' : old = some ⟨ipv4.subnet, ipv4.subnetLen⟩ := by simpa using hsame
      refine ⟨ht.coherent sw h fun hvid => ?_, fun hno => by cases hno⟩
      exact Bool.eq_false_iff.mpr (fun hon => (ht.2.2 hvid).2 hon hold')

/-! ### Removing VLANs -/

/-- One turn of the loop of `plat_vlan_list_set`. -/
def vlanListTurn (dv : Dev δ) (vlansToCfg : Bitmap) (vid : ℕ) : ApplyM δ Unit :=
  Prog.when (!vlansToCfg vid && decide (vid ≠ firstVlan)) (do
    platVlanRifSet dv vid {}
    gnmiRequest dv (.vlanDel vid))

/-- Each VLAN that is removed loses an address with its relay. -/
def ListCarried (dv : Dev δ) (vlansToCfg : Bitmap) (s : PlatSt δ) : Prop :=
  ∀ vlans, (dv.vlanList s.state.dev).1 = some vlans →
    EachTurn (vlanListTurn dv vlansToCfg)
      (fun t vid => vlansToCfg vid = false → RifCarried dv vid {} t) (vlans.bitsSet maxVlans)
      ⟨⟨s.state.cache, (dv.vlanList s.state.dev).2⟩, s.log⟩

theorem triple_vlanListTurn (vlansToCfg : Bitmap) (vid : ℕ) :
    Triple (fun s => RelayCoherent sw s ∧ (vlansToCfg vid = false → RifCarried sw.dev vid {} s))
      (vlanListTurn sw.dev vlansToCfg vid) (fun _ => RelayCoherent sw) (RelayCoherent sw) := by
  refine triple_when (fun hgone => ?_) (fun _ s hs => hs.1)
  simp only [Bool.and_eq_true, Bool.not_eq_true', decide_eq_true_eq] at hgone
  refine triple_bind (Q := fun _ t => RelayCoherent sw t ∧ (t.state.cache.relay vid).enabled = false)
    (triple_at fun s hs => ?_) (fun _ => ?_)
  · refine (triple_platVlanRifSet sw hs.1 (hs.2 hgone.1)).imp (fun _ h => h) ?_ ?_
    · exact fun _ t ht => ⟨ht.1, ht.2 rfl hgone.2⟩
    · rintro t (⟨hno, -⟩ | ht)
      · cases hno
      · exact ht
  · refine triple_gnmiRequest sw ?_ ?_
    · rintro s d ⟨hs, hoff⟩ ⟨hother, hsub⟩ u hu
      dsimp only
      by_cases huv : u = vid
      · subst huv
        rw [hs u hu, CachedRelay.helpers, hoff] at hsub
        rw [CachedRelay.helpers, hoff]
        exact List.sublist_nil.mp hsub
      · rw [hother u huv]
        exact hs u hu
    · rintro s d ⟨hs, -⟩ hview u hu
      dsimp only
      rw [hview]
      exact hs u hu

/-- `plat_vlan_list_set` from a coherent cache. -/
theorem triple_platVlanListSet {s : PlatSt δ} (h : RelayCoherent sw s) {vlansToCfg : Bitmap}
    (hcarried : ListCarried sw.dev vlansToCfg s) :
    Triple (· = s) (platVlanListSet sw.dev vlansToCfg) (fun _ => RelayCoherent sw)
      (RelayCoherent sw) := by
  have hasked : RelayCoherent sw ⟨⟨s.state.cache, (sw.dev.vlanList s.state.dev).2⟩, s.log⟩ := by
    unfold RelayCoherent
    rw [sw.vlanList]
    exact h
  refine triple_bind (Q := fun reply t => reply = (sw.dev.vlanList s.state.dev).1 ∧
    t = ⟨⟨s.state.cache, (sw.dev.vlanList s.state.dev).2⟩, s.log⟩) ?_ (fun reply => ?_)
  · rintro t rfl
    exact ⟨rfl, rfl⟩
  · rcases reply with _ | vlans
    · rintro t ⟨-, rfl⟩
      exact hasked
    · dsimp only
      refine (triple_forM_eachTurn (triple_vlanListTurn sw vlansToCfg) _).pre ?_
      rintro t ⟨hlist, rfl⟩
      exact ⟨hasked, hcarried vlans hlist.symm⟩

/-! ### The relay stage -/

/-- The relay that is configured for a VLAN is the one that stands on it. -/
def RelayKept (cfg : PlatCfg) (c : PlatState) (i : ℕ) : Prop :=
  (c.relay i).enabled = true ∧ (cfg.vlans i).relay.enabled = true ∧
    (c.relay i).helperAddress = (cfg.vlans i).relay.serverAddress

/-- The requests for the parameters of the relay of a VLAN. -/
inductive RelayParamOp (i : ℕ) : Op → Prop
  | maxHop (cnt : ℕ) : RelayParamOp i (.relayMaxHopSet i cnt)
  | policyAct (act : RelayPolicyAction) : RelayParamOp i (.relayPolicyActionSet i act)
  | circId (id : RelayCircuitId) : RelayParamOp i (.relayCircuitIdSet i id)

theorem RelayParamOp.effect {i : ℕ} {op : Op} (h : RelayParamOp i op) {v v' : ℕ → List InAddr}
    (heff : relayEffect op v v') : v' = v := by
  cases h <;> exact heff

/-- A parameter was refused for a VLAN that gets a new relay. -/
def NewRelayRefused (cfg : PlatCfg) (c : PlatState) (log : List (Op × Bool)) : Prop :=
  ∃ i op, i ≠ firstVlan ∧ ¬ RelayKept cfg c i ∧ RelayParamOp i op ∧ (op, false) ∈ log

/-- The relays left on the VLANs `vids` are those to be kept. -/
structure Cleared (cfg : PlatCfg) (c₀ : PlatState) (vids : List ℕ) (c : PlatState) : Prop where
  wanted : ∀ u ∈ vids, u ≠ firstVlan → (c.relay u).enabled = true →
    (cfg.vlans u).relay.enabled = true ∧
      (c.relay u).helperAddress = (cfg.vlans u).relay.serverAddress
  kept : ∀ u, RelayKept cfg c₀ u → RelayKept cfg c u

theorem Cleared.change {cfg : PlatCfg} {c₀ c : PlatState} {vids vids' : List ℕ}
    (h : Cleared cfg c₀ vids c) {i : ℕ} {r : CachedRelay} (hvids : ∀ u ∈ vids', u ≠ i → u ∈ vids)
    (hwanted : r.enabled = true → (cfg.vlans i).relay.enabled = true ∧
      r.helperAddress = (cfg.vlans i).relay.serverAddress)
    (hkept : RelayKept cfg c₀ i → r.enabled = true) :
    Cleared cfg c₀ vids' { c with relay := Function.update c.relay i r } := by
  refine ⟨fun u hu hne => ?_, fun u hu => ?_⟩
  · dsimp only
    by_cases hui : u = i
    · rw [hui, Function.update_self]
      exact hwanted
    · rw [Function.update_of_ne hui]
      exact h.wanted u (hvids u hu hui) hne
  · unfold RelayKept
    dsimp only
    by_cases hui : u = i
    · subst hui
      rw [Function.update_self]
      exact ⟨hkept hu, hwanted (hkept hu)⟩
    · rw [Function.update_of_ne hui]
      exact h.kept u hu

/-- The first loop: relays that are not to be kept go. -/
theorem triple_relayClear (cfg : PlatCfg) (c₀ : PlatState) (done : List ℕ) (i : ℕ) :
    Triple (fun t => RelayCoherent sw t ∧ Cleared cfg c₀ done t.state.cache) (relayClear sw.dev cfg i)
      (fun _ t => RelayCoherent sw t ∧ Cleared cfg c₀ (done ++ [i]) t.state.cache)
      (RelayCoherent sw) := by
  refine triple_at ?_
  rintro s ⟨hs, hcleared⟩
  refine triple_bind (Q := fun c t => c = s.state.cache ∧ t = s) (fun t ht => ⟨ht ▸ rfl, ht⟩) ?_
  intro c
  refine triple_at ?_
  rintro t ⟨rfl, rfl⟩
  refine triple_when (fun hgone => ?_) (fun hstay => ?_)
  · simp only [Bool.and_eq_true, decide_eq_true_eq] at hgone
    have hnot : ¬ RelayKept cfg t.state.cache i := by
      rintro ⟨-, hnew, hsame⟩
      simp [hnew, hsame] at hgone
    refine triple_bind (Q := fun _ t' => t'.state.cache = t.state.cache ∧
      sw.view t'.state.dev = Function.update (sw.view t.state.dev) i []) (triple_orFail ?_) ?_
    · refine triple_gnmiRequest sw ?_ ?_
      · rintro t' d rfl heff
        change _ = Function.update _ _ _ at heff
        rw [hs i hgone.1.2, CachedRelay.helpers, if_pos hgone.1.1] at heff
        refine ⟨rfl, heff.trans ?_⟩
        simp
      · rintro t' d rfl hview u hu
        dsimp only
        rw [hview]
        exact hs u hu
    · refine fun _ => triple_modifyCache ?_
      rintro t' ⟨hc, hview⟩
      have hother : ∀ u, u ≠ i → sw.view t'.state.dev u = sw.view t.state.dev u := by
        intro u hu
        rw [hview, Function.update_of_ne hu]
      have hi : sw.view t'.state.dev i = [] := by rw [hview, Function.update_self]
      have hagree : RelaysAgree t'.state.cache (sw.view t.state.dev) := hc ▸ hs
      have hcleared' : Cleared cfg c₀ done t'.state.cache := hc ▸ hcleared
      refine ⟨hagree.change hother (fun _ => hi), hcleared'.change (fun u hu hne => ?_)
        (fun hno => ?_) (fun hk => absurd (hcleared.kept i hk) hnot)⟩
      · simpa [hne] using hu
      · cases hno
  · rintro t' rfl
    refine ⟨hs, fun u hu hne hon => ?_, hcleared.kept⟩
    rcases List.mem_append.mp hu with hu | hu
    · exact hcleared.wanted u hu hne hon
    · rw [List.mem_singleton.mp hu] at hne hon ⊢
      simpa [hon, hne] using hstay

/-- Between the server and the end of the turn: the switch has the server, the cache its address. -/
structure Adding (cfg : PlatCfg) (c₀ : PlatState) (vids : List ℕ) (i : ℕ) (c : PlatState)
    (v : ℕ → List InAddr) : Prop where
  cleared : Cleared cfg c₀ vids c
  others : ∀ u, u ≠ firstVlan → u ≠ i → v u = (c.relay u).helpers
  server : v i = [(cfg.vlans i).relay.serverAddress]
  cached : (c.relay i).helperAddress = (cfg.vlans i).relay.serverAddress

/-- If the relay is enabled in the cache already, the cache and the switch agree. -/
theorem Adding.agree {cfg : PlatCfg} {c₀ c : PlatState} {vids : List ℕ} {i : ℕ}
    {v : ℕ → List InAddr} (h : Adding cfg c₀ vids i c v) (hon : (c.relay i).enabled = true) :
    RelaysAgree c v := by
  intro u hu
  by_cases hui : u = i
  · rw [hui, h.server, CachedRelay.helpers, if_pos hon, h.cached]
  · exact h.others u hu hui

/-- Changes of the other fields of the cached relay. -/
theorem Adding.change {cfg : PlatCfg} {c₀ c : PlatState} {vids : List ℕ} {i : ℕ}
    {v : ℕ → List InAddr} (h : Adding cfg c₀ vids i c v) (hnew : (cfg.vlans i).relay.enabled = true)
    {r : CachedRelay} (haddr : r.helperAddress = (c.relay i).helperAddress)
    (hon : (c.relay i).enabled = true → r.enabled = true) :
    Adding cfg c₀ vids i { c with relay := Function.update c.relay i r } v where
  cleared := h.cleared.change (fun u hu _ => hu) (fun _ => ⟨hnew, haddr.trans h.cached⟩)
    (fun hk => hon (h.cleared.kept i hk).1)
  others u hu hui := by
    dsimp only
    rw [Function.update_of_ne hui]
    exact h.others u hu hui
  server := h.server
  cached := by
    dsimp only
    rw [Function.update_self]
    exact haddr.trans h.cached

/-- One parameter of a relay. -/
theorem triple_relayParam {cfg : PlatCfg} {c₀ : PlatState} {vids : List ℕ} {i : ℕ}
    (hi : i ≠ firstVlan) (hnew : (cfg.vlans i).relay.enabled = true) (differs : CachedRelay → Bool)
    (resource : String) {op : Op} (hop : RelayParamOp i op) {f : CachedRelay → CachedRelay}
    (hf : ∀ r, (f r).enabled = r.enabled ∧ (f r).helperAddress = r.helperAddress) :
    Triple (fun t => Adding cfg c₀ vids i t.state.cache (sw.view t.state.dev))
      (relayParam i differs (relaySet sw.dev i resource op) f)
      (fun _ t => Adding cfg c₀ vids i t.state.cache (sw.view t.state.dev))
      (fun t => NewRelayRefused cfg c₀ t.log ∨ RelayCoherent sw t) := by
  refine triple_bind (Q := fun _ (t : PlatSt δ) =>
    Adding cfg c₀ vids i t.state.cache (sw.view t.state.dev)) (fun _ ht => ht) (fun c => ?_)
  refine triple_when (fun _ => ?_) (fun _ _ ht => ht)
  refine triple_bind (Q := fun _ t => Adding cfg c₀ vids i t.state.cache (sw.view t.state.dev))
    (triple_orFail ?_) (fun _ => ?_)
  · refine triple_gnmiRequest sw (fun t d ht heff => ?_) (fun t d ht hview => ?_)
    · rw [← hop.effect heff] at ht
      exact ht
    · by_cases hk : RelayKept cfg c₀ i
      · rw [← hview] at ht
        exact Or.inr (ht.agree (ht.cleared.kept i hk).1)
      · exact Or.inl ⟨i, op, hi, hk, hop, by simp⟩
  · refine triple_modifyCache (fun t ht => ?_)
    exact ht.change hnew (hf _).2 (fun hon => (hf _).1.trans hon)

/-- The server of a new relay is added, unless the switch has it. -/
theorem triple_serverAdd (cfg : PlatCfg) (c₀ : PlatState) {vids : List ℕ} {i : ℕ} (hmem : i ∈ vids)
    (hi : i ≠ firstVlan) :
    Triple (fun t => RelayCoherent sw t ∧ Cleared cfg c₀ vids t.state.cache)
      (gnmiRequest sw.dev (.relayServerSet i (cfg.vlans i).relay.serverAddress))
      (fun _ t => Cleared cfg c₀ vids t.state.cache ∧
        (∀ u, u ≠ firstVlan → u ≠ i → sw.view t.state.dev u = (t.state.cache.relay u).helpers) ∧
        sw.view t.state.dev i = [(cfg.vlans i).relay.serverAddress])
      (fun t => NewRelayRefused cfg c₀ t.log ∨ RelayCoherent sw t) := by
  refine triple_gnmiRequest sw ?_ ?_
  · rintro t d ⟨ht, hcleared⟩ heff
    change _ = Function.update _ _ _ at heff
    refine ⟨hcleared, fun u hu hui => ?_, ?_⟩
    · dsimp only
      rw [heff, Function.update_of_ne hui]
      exact ht u hu
    · dsimp only
      rw [heff, Function.update_self, ht i hi, CachedRelay.helpers]
      by_cases hon : (t.state.cache.relay i).enabled = true
      · simp [hon, (hcleared.wanted i hmem hi hon).2]
      · simp [hon]
  · rintro t d ⟨ht, -⟩ hview
    refine Or.inr (fun u hu => ?_)
    dsimp only
    rw [hview]
    exact ht u hu

/-- The second loop: the relay of a VLAN is added. -/
theorem triple_relayAdd (cfg : PlatCfg) (c₀ : PlatState) {vids : List ℕ} {i : ℕ} (hmem : i ∈ vids) :
    Triple (fun t => RelayCoherent sw t ∧ Cleared cfg c₀ vids t.state.cache) (relayAdd sw.dev cfg i)
      (fun _ t => RelayCoherent sw t ∧ Cleared cfg c₀ vids t.state.cache)
      (fun t => NewRelayRefused cfg c₀ t.log ∨ RelayCoherent sw t) := by
  refine triple_when (fun hgo => ?_) (fun _ _ ht => ht)
  simp only [Bool.and_eq_true, decide_eq_true_eq] at hgo
  obtain ⟨hnew, hi⟩ := hgo
  refine triple_bind (triple_orFail (triple_serverAdd sw cfg c₀ hmem hi)) (fun _ => ?_)
  refine triple_bind (Q := fun _ t => Adding cfg c₀ vids i t.state.cache (sw.view t.state.dev))
    (triple_modifyCache ?_) (fun _ => ?_)
  · rintro t ⟨hcleared, hothers, hserver⟩
    refine ⟨hcleared.change (fun u hu _ => hu) (fun _ => ⟨hnew, rfl⟩)
      (fun hk => (hcleared.kept i hk).1), fun u hu hui => ?_, hserver, ?_⟩
    · dsimp only
      rw [Function.update_of_ne hui]
      exact hothers u hu hui
    · dsimp only
      rw [Function.update_self]
  -- its parameters
  have hparam : ∀ r : CachedRelay, r.enabled = r.enabled ∧ r.helperAddress = r.helperAddress :=
    fun _ => ⟨rfl, rfl⟩
  refine triple_bind (triple_relayParam sw hi hnew _ _ (.maxHop _) hparam) (fun _ => ?_)
  refine triple_bind (triple_relayParam sw hi hnew _ _ (.policyAct _) hparam) (fun _ => ?_)
  refine triple_bind (triple_relayParam sw hi hnew _ _ (.circId _) hparam) (fun _ => ?_)
  refine triple_modifyCache (fun t ht => ?_)
  have hdone := ht.change hnew (r := { t.state.cache.relay i with enabled := true }) rfl (fun _ => rfl)
  refine ⟨hdone.agree ?_, hdone.cleared⟩
  dsimp only
  rw [Function.update_self]

/-- `config_vlan_dhcp_relay_apply` from a coherent cache. -/
theorem triple_configVlanDhcpRelayApply {s : PlatSt δ} (h : RelayCoherent sw s) (cfg : PlatCfg) :
    Triple (· = s) (configVlanDhcpRelayApply sw.dev cfg) (fun _ => RelayCoherent sw)
      (fun t => NewRelayRefused cfg s.state.cache t.log ∨ RelayCoherent sw t) := by
  unfold configVlanDhcpRelayApply
  generalize cfg.vlansToCfg.bitsSet maxVlans = vids
  have hclear := triple_forM (E := RelayCoherent sw)
    (I := fun done _ t => RelayCoherent sw t ∧ Cleared cfg s.state.cache done t.state.cache)
    (fun done i _ => triple_relayClear sw cfg s.state.cache done i) vids []
  refine triple_bind (hclear.imp ?_ (fun _ _ ht => ht) (fun _ ht => Or.inr ht)) (fun _ => ?_)
  · rintro t rfl
    exact ⟨h, fun u hu => absurd hu List.not_mem_nil, fun _ hk => hk⟩
  · have hadd := triple_forM_mem vids (fun i hi => triple_relayAdd sw cfg s.state.cache hi)
    exact hadd.post (fun _ t ht => ht.1)

end Steps

/-! ### Runs -/

/-- The calls that write relays. -/
inductive RelayCall
  | vlanRifSet (vid : ℕ) (ipv4 : PlatIpv4)
  | vlanListSet (vlansToCfg : Bitmap)
  | dhcpRelayApply (cfg : PlatCfg)

def RelayCall.prog (dv : Dev δ) : RelayCall → ApplyM δ Unit
  | .vlanRifSet vid ipv4 => platVlanRifSet dv vid ipv4
  | .vlanListSet vlansToCfg => platVlanListSet dv vlansToCfg
  | .dhcpRelayApply cfg => configVlanDhcpRelayApply dv cfg

/-- The cache and the switch after a call, whatever it returns. -/
def relayAfter (dv : Dev δ) (e : Env δ) (call : RelayCall) : Env δ := (call.prog dv ⟨e, []⟩).2.state

/-- A call that takes the relay of a VLAN down goes on to change the address of the VLAN. -/
def RelayChanges (dv : Dev δ) (e : Env δ) : RelayCall → Prop
  | .vlanRifSet vid ipv4 => RifCarried dv vid ipv4 ⟨e, []⟩
  | .vlanListSet vlansToCfg => ListCarried dv vlansToCfg ⟨e, []⟩
  | .dhcpRelayApply _ => True

/-- A refused request stops a call between the switch and the cache. -/
def RelayStopped (e : Env δ) (log : List (Op × Bool)) : RelayCall → Prop
  | .vlanRifSet vid ipv4 => ipv4.exist = true ∧ vid ≠ firstVlan ∧
    (e.cache.relay vid).enabled = true ∧ RestoreRefused vid log
  | .vlanListSet _ => False
  | .dhcpRelayApply cfg => NewRelayRefused cfg e.cache log

/-- A call that takes a relay down changes an address, and is not stopped half way. -/
def RelayCarried (dv : Dev δ) (e : Env δ) (call : RelayCall) : Prop :=
  RelayChanges dv e call ∧ ¬ RelayStopped e (call.prog dv ⟨e, []⟩).2.log call

theorem triple_relayCall (sw : RelaySwitch δ) {e : Env δ} {call : RelayCall}
    (h : RelayCoherent sw ⟨e, []⟩) (hchanges : RelayChanges sw.dev e call) :
    Triple (· = ⟨e, []⟩) (call.prog sw.dev) (fun _ => RelayCoherent sw)
      (fun t => RelayStopped e t.log call ∨ RelayCoherent sw t) := by
  cases call with
  | vlanRifSet vid ipv4 => exact (triple_platVlanRifSet sw h hchanges).post (fun _ _ ht => ht.1)
  | vlanListSet vlansToCfg =>
    exact (triple_platVlanListSet sw h hchanges).imp (fun _ hs => hs) (fun _ _ ht => ht)
      (fun _ ht => Or.inr ht)
  | dhcpRelayApply cfg => exact triple_configVlanDhcpRelayApply sw h cfg

theorem relayAfter_agrees (sw : RelaySwitch δ) {e : Env δ} {call : RelayCall}
    (h : RelaysAgree e.cache (sw.view e.dev)) (hcarried : RelayCarried sw.dev e call) :
    RelaysAgree (relayAfter sw.dev e call).cache (sw.view (relayAfter sw.dev e call).dev) :=
  (triple_relayCall sw h hcarried.1).final rfl (fun he => he.resolve_left hcarried.2)

/-- From relays that agree, in every run whose calls meet the condition, the cache agrees with the
    switch after every call. -/
theorem relay_runs_coherent (sw : RelaySwitch δ) (e : Env δ)
    (h : RelaysAgree e.cache (sw.view e.dev)) (calls : List RelayCall)
    (hcarried : EveryStep (relayAfter sw.dev) (RelayCarried sw.dev) e calls) :
    EveryStep (relayAfter sw.dev)
      (fun e call => RelaysAgree (relayAfter sw.dev e call).cache
        (sw.view (relayAfter sw.dev e call).dev)) e calls := by
  refine everyStep_of_invariant (I := fun e => RelaysAgree e.cache (sw.view e.dev)) ?_ calls h hcarried
  intro e call hagree hc
  exact ⟨relayAfter_agrees sw hagree hc, relayAfter_agrees sw hagree hc⟩

/-! ### Runs on a switch that answers as it is told -/

/-- The helper addresses of a VLAN go with it. -/
def relayStore (op : Op) (v : ℕ → List InAddr) : ℕ → List InAddr :=
  match op with
  | .relayServerSet vid ip => Function.update v vid (if ip ∈ v vid then v vid else v vid ++ [ip])
  | .relayServerDel vid ip => Function.update v vid ((v vid).filter fun a => decide (a ≠ ip))
  | .vlanDel vid => Function.update v vid []
  | _ => v

theorem relayStore_effect (op : Op) (v v' : ℕ → List InAddr) (h : v' = relayStore op v) :
    relayEffect op v v' := by
  rw [h]
  cases op with
  | vlanDel vid =>
    refine ⟨fun u hu => Function.update_of_ne hu _ _, ?_⟩
    rw [relayStore, Function.update_self]
    exact List.nil_sublist _
  | _ => rfl

/-- VLAN 5 has one address. -/
def plainRelay : RelaySwitch ((ℕ → List InAddr) × List Bool) :=
  (scriptedSwitch relayStore Bitmap.clear
    (fun vid => if vid = 5 then [⟨⟨10, 0, 5, 1⟩, 24⟩] else []) [] fun _ => []).weaken relayStore_effect

/-- A relay stands on VLAN 5, and the cache knows it. -/
def relay5Env : Env ((ℕ → List InAddr) × List Bool) :=
  ⟨{ relay := Function.update (fun _ => {}) 5 { enabled := true, helperAddress := ⟨192, 0, 2, 1⟩ } },
   (Function.update (fun _ => []) 5 [⟨192, 0, 2, 1⟩], [])⟩

theorem relay5Env_agrees : RelaysAgree relay5Env.cache (plainRelay.view relay5Env.dev) := by
  intro vid _
  by_cases hvid : vid = 5
  · subst hvid
    rfl
  · have hview : plainRelay.view relay5Env.dev vid = [] := by
      simp [plainRelay, Switch.weaken, scriptedSwitch, relay5Env, Function.update_of_ne hvid]
    have hcached : relay5Env.cache.relay vid = {} := by
      simp [relay5Env, Function.update_of_ne hvid]
    rw [hview, hcached]
    rfl

/-- VLAN 5 gets another address. -/
def move5 : RelayCall := .vlanRifSet 5 { subnet := ⟨10, 0, 6, 1⟩, subnetLen := 24, exist := true }

/-- The relay is back on the VLAN after it. -/
theorem relay_runs_coherent_moved :
    EveryStep (relayAfter plainRelay.dev)
      (fun e call => RelaysAgree (relayAfter plainRelay.dev e call).cache
        (plainRelay.view (relayAfter plainRelay.dev e call).dev)) relay5Env [move5] :=
  relay_runs_coherent plainRelay relay5Env relay5Env_agrees [move5]
    (by
      rw [everyStep_cons]
      refine ⟨⟨?_, ?_⟩, everyStep_nil _⟩
      · intro _ _ old hold _
        have hold' : some (some ⟨⟨10, 0, 5, 1⟩, 24⟩) = some old := hold
        cases hold'
        decide
      · rintro ⟨-, -, -, hrefused⟩
        have hlog : (move5.prog plainRelay.dev ⟨relay5Env, []⟩).2.log.all (·.2) = true := by
          decide +kernel
        rw [List.all_eq_true] at hlog
        rcases hrefused with ⟨pref, hmem⟩ | ⟨ip, hmem⟩
        · cases hlog _ hmem
        · cases hlog _ hmem)

/-- VLAN 5 keeps its address. -/
def keep5 : RelayCall := .vlanRifSet 5 { subnet := ⟨10, 0, 5, 1⟩, subnetLen := 24, exist := true }

/-- Every request is granted and 0 is returned: the relay is gone from the switch and not from the
    cache. -/
theorem relay_call_incoherent :
    RelaysAgree relay5Env.cache (plainRelay.view relay5Env.dev) ∧
    Prog.retCode (keep5.prog plainRelay.dev ⟨relay5Env, []⟩).1 = 0 ∧
    ((relayAfter plainRelay.dev relay5Env keep5).cache.relay 5).enabled = true ∧
    plainRelay.view (relayAfter plainRelay.dev relay5Env keep5).dev 5 = [] ∧
    ¬ RelaysAgree (relayAfter plainRelay.dev relay5Env keep5).cache
      (plainRelay.view (relayAfter plainRelay.dev relay5Env keep5).dev) := by
  have hon : ((relayAfter plainRelay.dev relay5Env keep5).cache.relay 5).enabled = true := by
    decide +kernel
  have hgone : plainRelay.view (relayAfter plainRelay.dev relay5Env keep5).dev 5 = [] := by
    decide +kernel
  refine ⟨relay5Env_agrees, by decide +kernel, hon, hgone, fun h => ?_⟩
  have hagree := h 5 (by decide)
  rw [hgone, CachedRelay.helpers, if_pos hon] at hagree
  cases hagree

end Ucentral.Plat
