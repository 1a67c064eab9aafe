import Ucentral.Lib.Triple
import Ucentral.Plat.Apply

/-! What the stages of `plat_config_apply` leave alone.

    A result about one part of the switch, such as its port speeds or its DHCP relays, has to follow
    that part through all the stages, of which few write it. Requests are sorted by the part they
    write; a condition that other requests, queries and changes of the cache do not break is kept by
    the stages that make no request for the part. -/

namespace Ucentral.Plat
open Effect Router

variable {δ : Type}

/-- The parts of the switch that are followed through the stages: the port speeds, and the relay of
    each VLAN. A VLAN that is deleted may take its relay with it. -/
inductive OpArea
  | speed
  | relay (vid : ℕ)
  | other
  deriving DecidableEq, Repr

def Op.area : Op → OpArea
  | .portSpeedSet _ _ => .speed
  | .relayServerSet vid _ | .relayServerDel vid _ => .relay vid
  | .relayMaxHopSet vid _ | .relayPolicyActionSet vid _ | .relayCircuitIdSet vid _ => .relay vid
  | .vlanDel vid => .relay vid
  | _ => .other

/-- A request, whatever its answer. -/
theorem keeps_gnmiRequest (dv : Dev δ) {I : Traced (Env δ) (Op × Bool) → Prop} {op : Op}
    (h : ∀ s, I s → I ⟨⟨s.state.cache, (dv.request op s.state.dev).2⟩,
      s.log ++ [(op, (dv.request op s.state.dev).1)]⟩) : Keeps I (gnmiRequest dv op) := by
  intro s hs
  have hnext := h s hs
  rw [gnmiRequest_run]
  cases hg : (dv.request op s.state.dev).1 with
  | true =>
    rw [hg] at hnext
    exact hnext
  | false =>
    rw [hg] at hnext
    exact hnext

/-- A condition that requests for the given parts do not break, nor queries, nor changes of the cache
    outside its relays. -/
structure Frame (dv : Dev δ) (parts : OpArea → Prop) (I : Traced (Env δ) (Op × Bool) → Prop) :
    Prop where
  request : ∀ op s, parts op.area → I s →
    I ⟨⟨s.state.cache, (dv.request op s.state.dev).2⟩,
      s.log ++ [(op, (dv.request op s.state.dev).1)]⟩
  vlanList : ∀ s, I s → I ⟨⟨s.state.cache, (dv.vlanList s.state.dev).2⟩, s.log⟩
  vlanMembers : ∀ s, I s → I ⟨⟨s.state.cache, (dv.vlanMembers s.state.dev).2⟩, s.log⟩
  vlanErif : ∀ vid s, I s → I ⟨⟨s.state.cache, (dv.vlanErif vid s.state.dev).2⟩, s.log⟩
  portList : ∀ s, I s → I ⟨⟨s.state.cache, (dv.portList s.state.dev).2⟩, s.log⟩
  dacHosts : ∀ s, I s → I ⟨⟨s.state.cache, (dv.dacHosts s.state.dev).2⟩, s.log⟩
  radiusHosts : ∀ s, I s → I ⟨⟨s.state.cache, (dv.radiusHosts s.state.dev).2⟩, s.log⟩
  cache : ∀ (f : PlatState → PlatState) s, (∀ c, (f c).relay = c.relay) → I s →
    I ⟨⟨f s.state.cache, s.state.dev⟩, s.log⟩

namespace Frame

variable {dv : Dev δ} {parts : OpArea → Prop} {I : Traced (Env δ) (Op × Bool) → Prop}

theorem keeps_request (h : Frame dv parts I) {op : Op} (hop : parts op.area) :
    Keeps I (gnmiRequest dv op) :=
  keeps_gnmiRequest dv (fun s hs => h.request op s hop hs)

theorem keeps_getCache : Keeps I getCache := fun _ hs => hs

theorem keeps_modifyCache (h : Frame dv parts I) {f : PlatState → PlatState}
    (hf : ∀ c, (f c).relay = c.relay) : Keeps I (modifyCache f) :=
  fun s hs => h.cache f s hf hs

theorem keeps_platStateIeee8021xDacListInit (h : Frame dv parts I) :
    Keeps I (platStateIeee8021xDacListInit dv) := by
  refine keeps_bind (h.keeps_modifyCache fun _ => rfl) (fun _ => ?_)
  refine keeps_bind (fun s hs => h.dacHosts s hs) (fun size => ?_)
  rcases size with _ | _ | ⟨k, ks⟩
  · exact keeps_fail _
  · exact keeps_pure _
  · refine keeps_bind (fun s hs => h.dacHosts s hs) (fun reply => ?_)
    have hdrop : ∀ c : ℤ, Keeps I (do
        modifyCache fun c =>
          { c with dacKeys := List.replicate (k :: ks).length "", radiusKeys := [] }
        Prog.fail c : ApplyM δ Unit) :=
      fun _ => keeps_bind (h.keeps_modifyCache fun _ => rfl) (fun _ => keeps_fail _)
    rcases reply with _ | keys
    · exact hdrop _
    · exact triple_ite (fun _ => hdrop _) (fun _ => h.keeps_modifyCache fun _ => rfl)

theorem keeps_platStateRadiusInit (h : Frame dv parts I) : Keeps I (platStateRadiusInit dv) := by
  refine keeps_bind (h.keeps_modifyCache fun _ => rfl) (fun _ => ?_)
  refine keeps_bind (fun s hs => h.radiusHosts s hs) (fun size => ?_)
  rcases size with _ | _ | ⟨k, ks⟩
  · exact keeps_fail _
  · exact keeps_pure _
  · refine keeps_bind (fun s hs => h.radiusHosts s hs) (fun reply => ?_)
    rcases reply with _ | keys
    · exact keeps_fail _
    · exact triple_ite (fun _ => keeps_fail _) (fun _ => h.keeps_modifyCache fun _ => rfl)

/-! ### Ports -/

section Other

variable (h : Frame dv parts I) (hother : parts .other)
include h hother

theorem keeps_setting (b : Bool) {op : Op} (hop : op.area = .other) :
    Keeps I (Prog.when b (gnmiRequest dv op)) :=
  keeps_when (h.keeps_request (hop ▸ hother))

theorem keeps_configPortIeee8021xApply (pid : ℕ) (port : PlatPort) :
    Keeps I (configPortIeee8021xApply dv pid port) := by
  refine keeps_bind keeps_getCache (fun c => ?_)
  refine keeps_bind (h.keeps_setting hother _ rfl) (fun _ => ?_)
  refine keeps_bind (h.keeps_setting hother _ rfl) (fun _ => ?_)
  refine keeps_bind (h.keeps_setting hother _ rfl) (fun _ => ?_)
  refine keeps_bind (h.keeps_setting hother _ rfl) (fun _ => ?_)
  refine keeps_bind (h.keeps_setting hother _ rfl) (fun _ => ?_)
  exact h.keeps_modifyCache (fun _ => rfl)

theorem keeps_poeSetting (pid : ℕ) (differs : PoePort → Bool) {op : PoePort → Op}
    (hop : ∀ p, (op p).area = .other) (f : PoePort → PoePort) :
    Keeps I (poeSetting dv pid differs op f) := by
  refine keeps_bind keeps_getCache (fun c => keeps_when ?_)
  refine keeps_bind (keeps_orFail (h.keeps_request (hop _ ▸ hother))) (fun _ => ?_)
  exact h.keeps_modifyCache (fun _ => rfl)

theorem keeps_configPoePortApply (pid : ℕ) (port : PlatPort) :
    Keeps I (configPoePortApply dv pid port) := by
  refine keeps_bind (keeps_when (h.keeps_poeSetting hother pid _ (fun _ => rfl) _)) (fun _ => ?_)
  refine keeps_bind (keeps_when (h.keeps_poeSetting hother pid _ (fun _ => rfl) _)) (fun _ => ?_)
  refine keeps_bind (h.keeps_poeSetting hother pid _ (fun _ => rfl) _) (fun _ => ?_)
  refine keeps_bind (h.keeps_poeSetting hother pid _ (fun _ => rfl) _) (fun _ => keeps_when ?_)
  refine keeps_bind keeps_getCache (fun c => ?_)
  exact keeps_orFail (h.keeps_request hother)

omit hother in
theorem keeps_platPortSpeedSet (hspeed : parts .speed) (pid speed : ℕ) :
    Keeps I (platPortSpeedSet dv pid speed) := by
  unfold platPortSpeedSet
  cases speedToStr speed with
  | none => exact keeps_fail _
  | some str => exact keeps_ignore (h.keeps_request hspeed)

/-- What comes after the speed in a turn over a port. -/
theorem keeps_afterSpeed (cfg : PlatCfg) (i : ℕ) :
    Keeps I (do
      Prog.when (decide ((← getCache).featAaa = .ok))
        (Prog.orFail (-1) (configPortIeee8021xApply dv i (cfg.ports i)))
      let c ← getCache
      Prog.when (c.poePortsBmap i && decide (c.featPoe = .ok))
        (Prog.orFail (-1) (configPoePortApply dv i (cfg.ports i)))) := by
  refine keeps_bind keeps_getCache (fun c => ?_)
  refine keeps_bind (keeps_when (keeps_orFail (h.keeps_configPortIeee8021xApply hother i _))) ?_
  intro _
  refine keeps_bind keeps_getCache (fun c => keeps_when ?_)
  exact keeps_orFail (h.keeps_configPoePortApply hother i _)

/-- A turn over a port, but for its speed. -/
theorem keeps_portApply (cfg : PlatCfg) (i : ℕ)
    (hspeed : (cfg.ports i).state ≠ 0 → Keeps I (platPortSpeedSet dv i (cfg.ports i).speed)) :
    Keeps I (portApply dv cfg i) := by
  refine keeps_bind (keeps_ignore (h.keeps_request hother)) (fun _ => ?_)
  refine keeps_bind (triple_when (fun hb => keeps_orFail (hspeed (by simpa using hb)))
    (fun _ _ hs => hs)) (fun _ => ?_)
  exact h.keeps_afterSpeed hother cfg i

/-! ### Unit and spanning tree -/

theorem keeps_configUnitApply (cfg : PlatCfg) : Keeps I (configUnitApply dv cfg) := by
  refine keeps_bind (keeps_when (keeps_fail _)) (fun _ => ?_)
  refine keeps_bind keeps_getCache (fun c => ?_)
  refine keeps_bind (keeps_when ?_) (fun _ => ?_)
  · exact keeps_bind (h.keeps_request hother) (fun _ => h.keeps_modifyCache fun _ => rfl)
  refine keeps_bind keeps_getCache (fun c => keeps_when ?_)
  exact keeps_bind (h.keeps_request hother) (fun _ => h.keeps_modifyCache fun _ => rfl)

theorem keeps_gnmaStpModeSet (mode : GnmaStpMode) (attr : StpAttr) :
    Keeps I (gnmaStpModeSet dv mode attr) :=
  keeps_bind (keeps_ignore (h.keeps_request hother)) (fun _ => h.keeps_setting hother _ rfl)

theorem keeps_configStpApplyPortsEnableAll : Keeps I (configStpApplyPortsEnableAll dv) := by
  refine keeps_bind (fun s hs => h.portList s hs) (fun size => ?_)
  rcases size with _ | _
  · exact keeps_fail _
  · refine keeps_bind (fun s hs => h.portList s hs) (fun reply => ?_)
    rcases reply with _ | ports
    · exact keeps_fail _
    · exact keeps_orFail (h.keeps_request hother)

theorem keeps_stpVlanApply (cfg : PlatCfg) (i : ℕ) : Keeps I (stpVlanApply dv cfg i) := by
  refine keeps_bind keeps_getCache (fun c => keeps_when ?_)
  refine keeps_bind ?_ (fun _ => h.keeps_modifyCache fun _ => rfl)
  exact triple_ite (fun _ => h.keeps_request hother) (fun _ => keeps_ignore (h.keeps_request hother))

theorem keeps_configStpApply (cfg : PlatCfg) : Keeps I (configStpApply dv cfg) := by
  refine keeps_bind keeps_getCache (fun c => ?_)
  cases cfg.stpMode with
  | none =>
    refine keeps_when (keeps_bind (h.keeps_gnmaStpModeSet hother _ _) fun _ => ?_)
    exact h.keeps_modifyCache (fun _ => rfl)
  | rpvst =>
    refine keeps_bind (keeps_when ?_) (fun _ => keeps_forM _ (h.keeps_stpVlanApply hother cfg))
    refine keeps_bind (h.keeps_gnmaStpModeSet hother _ _) (fun _ => ?_)
    refine keeps_bind (h.keeps_configStpApplyPortsEnableAll hother) (fun _ => ?_)
    exact h.keeps_modifyCache (fun _ => rfl)
  | stp => exact keeps_fail _
  | rst => exact keeps_fail _
  | mst => exact keeps_fail _
  | pvst => exact keeps_fail _

/-! ### Addresses and multicast -/

theorem keeps_gnmaIgmpSnoopingSet (vid : ℕ) (attr : IgmpSnoopAttr) :
    Keeps I (gnmaIgmpSnoopingSet dv vid attr) := by
  refine triple_ite (fun _ => ?_) (fun _ => ?_)
  · exact keeps_forM _ (fun _ => keeps_ignore (h.keeps_request hother))
  · refine keeps_bind (h.keeps_request hother) (fun _ => ?_)
    exact keeps_bind (keeps_when (keeps_fail _)) (fun _ => h.keeps_request hother)

theorem keeps_platVlanIgmpSet (vid : ℕ) (igmp : PlatIgmp) : Keeps I (platVlanIgmpSet dv vid igmp) := by
  refine keeps_bind (keeps_orFail (h.keeps_gnmaIgmpSnoopingSet hother vid _)) (fun _ => ?_)
  refine keeps_orFail (keeps_bind (keeps_when (keeps_fail _)) fun _ => ?_)
  exact h.keeps_request hother

theorem keeps_configPortl2Ipv4Apply (cfg : PlatCfg) : Keeps I (configPortl2Ipv4Apply dv cfg) := by
  refine keeps_forM _ (fun i => keeps_bind keeps_getCache fun c => ?_)
  refine keeps_bind (keeps_when (keeps_orFail (h.keeps_request hother))) (fun _ => ?_)
  refine keeps_bind (keeps_when (keeps_orFail (h.keeps_request hother))) (fun _ => ?_)
  exact h.keeps_modifyCache (fun _ => rfl)

/-! ### Routes -/

theorem keeps_createNode (n : FibNode) : Keeps I (createNode dv n) := by
  unfold createNode
  cases routerFibInfo2gnmaAttr n.info with
  | none => exact keeps_fail _
  | some attr => exact keeps_orFail (h.keeps_request hother)

theorem keeps_applyEdit (e : Merge.Edit FibNode) : Keeps I (applyEdit dv e) := by
  cases e with
  | upd n o =>
    refine triple_ite (fun _ => keeps_pure ()) (fun _ => ?_)
    exact keeps_bind (keeps_ignore (h.keeps_request hother)) (fun _ => h.keeps_createNode hother n)
  | del o => exact keeps_ignore (h.keeps_request hother)
  | add n => exact h.keeps_createNode hother n

theorem keeps_configRouterApply (qs : Qsort) (cfg : PlatCfg) :
    Keeps I (configRouterApply qs dv cfg) := by
  refine keeps_bind keeps_getCache (fun c => ?_)
  refine keeps_bind (h.keeps_modifyCache fun _ => rfl) (fun _ => ?_)
  refine keeps_bind (keeps_forM _ (h.keeps_applyEdit hother)) (fun _ => ?_)
  exact h.keeps_modifyCache (fun _ => rfl)

/-! ### Hosts, password and syslog -/

theorem keeps_hostsListSet {η : Type} (keys : List String) (hosts : List η)
    (hostname passkey : η → String) {remove : String → Op} (hremove : ∀ k, (remove k).area = .other)
    {add : η → Op} (hadd : ∀ x, (add x).area = .other) {init : ApplyM δ Unit} (hinit : Keeps I init) :
    Keeps I (hostsListSet dv keys hosts hostname passkey remove add init) := by
  refine keeps_bind (keeps_forM _ fun k => h.keeps_setting hother _ (hremove k)) (fun _ => ?_)
  refine keeps_bind (keeps_forM _ fun x => h.keeps_request (hadd x ▸ hother)) (fun _ => ?_)
  exact keeps_when (keeps_ignore hinit)

theorem keeps_configIeee8021xApply (cfg : PlatCfg) : Keeps I (configIeee8021xApply dv cfg) := by
  refine keeps_bind keeps_getCache (fun c => ?_)
  refine keeps_bind (keeps_when ?_) (fun _ => ?_)
  · exact keeps_bind (h.keeps_request hother) (fun _ => h.keeps_modifyCache fun _ => rfl)
  refine keeps_bind (keeps_bind keeps_getCache fun c => ?_) (fun _ => ?_)
  · exact h.keeps_hostsListSet hother _ _ _ _ (fun _ => rfl) (fun _ => rfl)
      h.keeps_platStateIeee8021xDacListInit
  · refine keeps_bind keeps_getCache (fun c => ?_)
    exact h.keeps_hostsListSet hother _ _ _ _ (fun _ => rfl) (fun _ => rfl)
      h.keeps_platStateRadiusInit

theorem keeps_platSyslogSet (cfg : List SyslogCfg) : Keeps I (platSyslogSet dv cfg) := by
  unfold platSyslogSet
  rcases gnmaSyslogOf cfg with _ | servers
  · exact keeps_fail _
  · exact keeps_bind (keeps_orFail (h.keeps_request hother)) (fun _ => h.keeps_request hother)

/-- The stages after the relays. -/
theorem keeps_afterRelays (qs : Qsort) (cfg : PlatCfg) :
    Keeps I (do
      Prog.orFail (-1) (configRouterApply qs dv cfg)
      Prog.when (decide ((← getCache).featAaa = .ok)) (Prog.orFail (-1) (configIeee8021xApply dv cfg))
      Prog.orFail (-1) (configSystemPasswordApply dv cfg)
      Prog.ignore (platSyslogSet dv cfg.logCfg)) := by
  refine keeps_bind (keeps_orFail (h.keeps_configRouterApply hother qs cfg)) (fun _ => ?_)
  refine keeps_bind keeps_getCache (fun c => ?_)
  refine keeps_bind (keeps_when (keeps_orFail (h.keeps_configIeee8021xApply hother cfg))) (fun _ => ?_)
  refine keeps_bind (keeps_orFail (h.keeps_setting hother _ rfl)) (fun _ => ?_)
  exact keeps_ignore (h.keeps_platSyslogSet hother _)

end Other

/-! ### VLANs and relays -/

section Relays

variable (h : Frame dv parts I) (hother : parts .other)
include h

theorem keeps_gnmaVlanErifPrefGet (vid : ℕ) : Keeps I (gnmaVlanErifPrefGet dv vid) := by
  refine keeps_bind (fun s hs => h.vlanErif vid s hs) (fun reply => ?_)
  rcases reply with _ | _ | ⟨_, _ | ⟨_, _⟩⟩
  · exact keeps_fail _
  · exact keeps_pure _
  · exact keeps_pure _
  · exact keeps_fail _

include hother in
theorem keeps_platVlanRifSet {vid : ℕ} (hrelay : parts (.relay vid))
    (hcache : ∀ f, Keeps I (modifyRelay vid f)) (ipv4 : PlatIpv4) :
    Keeps I (platVlanRifSet dv vid ipv4) := by
  refine keeps_bind (keeps_orFail (h.keeps_gnmaVlanErifPrefGet vid)) (fun old => ?_)
  refine keeps_bind keeps_getCache (fun c => ?_)
  refine keeps_bind (keeps_when (keeps_orFail (h.keeps_request hrelay))) (fun _ => ?_)
  refine keeps_bind (keeps_orFail (h.keeps_gnmaIgmpSnoopingSet hother vid _)) (fun _ => ?_)
  refine keeps_bind (keeps_when ?_) (fun _ => keeps_when ?_)
  · rcases old with _ | pref
    · exact keeps_pure ()
    · exact keeps_bind (hcache _) (fun _ => keeps_orFail (h.keeps_request hother))
  · refine keeps_bind (keeps_orFail (h.keeps_request hother)) (fun _ => ?_)
    refine keeps_bind keeps_getCache (fun c => keeps_when (keeps_orFail ?_))
    exact keeps_orFail (h.keeps_request hrelay)

include hother in
/-- The VLANs that are removed are those that are not configured. -/
theorem keeps_configVlanApply (cfg : PlatCfg)
    (hrelay : ∀ vid, cfg.vlansToCfg vid = false → parts (.relay vid))
    (hcache : ∀ vid f, cfg.vlansToCfg vid = false → Keeps I (modifyRelay vid f)) :
    Keeps I (configVlanApply dv cfg) := by
  refine keeps_bind (keeps_orFail (keeps_bind (fun s hs => h.vlanList s hs) fun reply => ?_)) ?_
  · rcases reply with _ | vlans
    · exact keeps_fail _
    · refine keeps_forM _ (fun vid => triple_when (fun hgone => ?_) (fun _ _ hs => hs))
      simp only [Bool.and_eq_true, Bool.not_eq_true'] at hgone
      refine keeps_bind (h.keeps_platVlanRifSet hother (hrelay vid hgone.1)
        (fun f => hcache vid f hgone.1) _) (fun _ => ?_)
      exact h.keeps_request (hrelay vid hgone.1)
  · refine fun _ => keeps_bind (fun s hs => h.vlanMembers s hs) (fun reply => ?_)
    rcases reply with _ | mbr
    · exact keeps_fail _
    · dsimp only
      rcases (cfg.vlansToCfg.bitsSet maxVlans).mapM
        (fun i => platVlanMemberlistSet mbr (cfg.vlans i)) with _ | changes
      · exact keeps_fail _
      · exact fun s hs => h.request (.vlanBatch changes.flatten) s hother hs

theorem keeps_relayClear (cfg : PlatCfg) {i : ℕ} (hrelay : parts (.relay i))
    (hcache : ∀ f, Keeps I (modifyRelay i f)) : Keeps I (relayClear dv cfg i) := by
  refine keeps_bind keeps_getCache (fun c => keeps_when ?_)
  exact keeps_bind (keeps_orFail (h.keeps_request hrelay)) (fun _ => hcache _)

theorem keeps_relayParam {i : ℕ} (hrelay : parts (.relay i)) (differs : CachedRelay → Bool)
    (resource : String) {op : Op} (hop : op.area = .relay i) {f : CachedRelay → CachedRelay}
    (hcache : Keeps I (modifyRelay i f)) :
    Keeps I (relayParam i differs (relaySet dv i resource op) f) := by
  refine keeps_bind keeps_getCache (fun c => keeps_when ?_)
  exact keeps_bind (keeps_orFail (h.keeps_request (hop ▸ hrelay))) (fun _ => hcache)

theorem keeps_relayAdd (cfg : PlatCfg) {i : ℕ} (hrelay : parts (.relay i))
    (hcache : ∀ f, Keeps I (modifyRelay i f)) : Keeps I (relayAdd dv cfg i) := by
  refine keeps_when (keeps_bind (keeps_orFail (h.keeps_request hrelay)) fun _ => ?_)
  refine keeps_bind (hcache _) (fun _ => ?_)
  refine keeps_bind (h.keeps_relayParam hrelay _ _ rfl (hcache _)) (fun _ => ?_)
  refine keeps_bind (h.keeps_relayParam hrelay _ _ rfl (hcache _)) (fun _ => ?_)
  exact keeps_bind (h.keeps_relayParam hrelay _ _ rfl (hcache _)) (fun _ => hcache _)

/-- The stages after the ports, for a condition that is not about relays. -/
theorem keeps_afterPorts (hparts : ∀ a, a ≠ .speed → parts a)
    (hcache : ∀ vid f, Keeps I (modifyRelay vid f)) (qs : Qsort) (cfg : PlatCfg) :
    Keeps I (do
      Prog.orFail (-1) (configUnitApply dv cfg)
      Prog.orFail (-1) (configStpApply dv cfg)
      Prog.orFail (-1) (configVlanIpv4Apply dv cfg)
      Prog.orFail (-1) (configPortl2Ipv4Apply dv cfg)
      Prog.orFail (-1) (configVlanDhcpRelayApply dv cfg)
      Prog.orFail (-1) (configRouterApply qs dv cfg)
      Prog.when (decide ((← getCache).featAaa = .ok)) (Prog.orFail (-1) (configIeee8021xApply dv cfg))
      Prog.orFail (-1) (configSystemPasswordApply dv cfg)
      Prog.ignore (platSyslogSet dv cfg.logCfg)) := by
  have hother : parts .other := hparts _ (by decide)
  have hrelay : ∀ vid, parts (.relay vid) := fun vid => hparts _ (by simp)
  refine keeps_bind (keeps_orFail (h.keeps_configUnitApply hother cfg)) (fun _ => ?_)
  refine keeps_bind (keeps_orFail (h.keeps_configStpApply hother cfg)) (fun _ => ?_)
  refine keeps_bind (keeps_orFail (keeps_forM _ fun i => keeps_when ?_)) (fun _ => ?_)
  · refine keeps_bind (h.keeps_platVlanRifSet hother (hrelay _) (hcache _) _) (fun _ => ?_)
    exact h.keeps_platVlanIgmpSet hother _ _
  refine keeps_bind (keeps_orFail (h.keeps_configPortl2Ipv4Apply hother cfg)) (fun _ => ?_)
  refine keeps_bind (keeps_orFail (keeps_bind ?_ fun _ => ?_)) (fun _ => ?_)
  · exact keeps_forM _ (fun i => h.keeps_relayClear cfg (hrelay i) (hcache i))
  · exact keeps_forM _ (fun i => h.keeps_relayAdd cfg (hrelay i) (hcache i))
  exact h.keeps_afterRelays hother qs cfg

end Relays

end Frame

/-- A condition on the requests made so far. -/
theorem frame_of_log (dv : Dev δ) {parts : OpArea → Prop} {P : List (Op × Bool) → Prop}
    (h : ∀ op b l, parts op.area → P l → P (l ++ [(op, b)])) : Frame dv parts fun s => P s.log where
  request op s hop hs := h op _ s.log hop hs
  vlanList _ hs := hs
  vlanMembers _ hs := hs
  vlanErif _ _ hs := hs
  portList _ hs := hs
  dacHosts _ hs := hs
  radiusHosts _ hs := hs
  cache _ _ _ hs := hs

end Ucentral.Plat
