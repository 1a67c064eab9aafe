import Ucentral.Plat.Device

/-! The VLAN stages of `plat_config_apply`: VLANs and their members, addresses, IGMP snooping and
    DHCP relays.

    The member changes of all VLANs travel in one batch. An address can only be changed while no
    DHCP relay stands on the VLAN, so a relay is taken down first and put back after. -/

namespace Ucentral.Plat
open Inet Effect

variable {δ : Type} (dv : Dev δ)

/-! ### DHCP relay requests -/

/-- The path of a resource of the relay agent. -/
def relayPath (vid : ℕ) (resource : String) : String :=
  "/openconfig-relay-agent:relay-agent/dhcp/interfaces/interface[id=" ++ vlanToName vid ++ "]/" ++
    resource

/-- A set below the relay agent: on failure the return value is still the length of the path. -/
def relaySet (vid : ℕ) (resource : String) (op : Op) : ApplyM δ Unit :=
  Prog.orFail ((relayPath vid resource).length : ℤ) (gnmiRequest dv op)

/-- `gnma_vlan_dhcp_relay_server_add`. -/
def gnmaVlanDhcpRelayServerAdd (vid : ℕ) (ip : InAddr) : ApplyM δ Unit :=
  relaySet dv vid "config/helper-address" (.relayServerSet vid ip)

/-- `gnma_vlan_dhcp_relay_max_hop_cnt_set`. -/
def gnmaVlanDhcpRelayMaxHopCntSet (vid cnt : ℕ) : ApplyM δ Unit :=
  relaySet dv vid "config/openconfig-relay-agent-ext:max-hop-count" (.relayMaxHopSet vid cnt)

/-- `gnma_vlan_dhcp_relay_policy_action_set`. -/
def gnmaVlanDhcpRelayPolicyActionSet (vid : ℕ) (act : RelayPolicyAction) : ApplyM δ Unit :=
  relaySet dv vid "config/openconfig-relay-agent-ext:policy-action" (.relayPolicyActionSet vid act)

/-- `gnma_vlan_dhcp_relay_ciruit_id_set`. -/
def gnmaVlanDhcpRelayCircuitIdSet (vid : ℕ) (id : RelayCircuitId) : ApplyM δ Unit :=
  relaySet dv vid "agent-information-option/config/circuit-id" (.relayCircuitIdSet vid id)

/-- `gnma_vlan_dhcp_relay_server_remove`. -/
def gnmaVlanDhcpRelayServerRemove (vid : ℕ) (ip : InAddr) : ApplyM δ Unit :=
  gnmiRequest dv (.relayServerDel vid ip)

/-! ### IGMP -/

/-- `__gnma_igmp_disable`: the results of the deletes are ignored. -/
def gnmaIgmpDisable (vid : ℕ) : ApplyM δ Unit :=
  forM [IgmpResource.ipIgmp, .staticGrps, .interface] fun r =>
    Prog.ignore (gnmiRequest dv (.igmpDel vid r))

/-- `gnma_igmp_snooping_set`. -/
def gnmaIgmpSnoopingSet (vid : ℕ) (attr : IgmpSnoopAttr) : ApplyM δ Unit :=
  if !(attr.enabled || attr.querierEnabled) then gnmaIgmpDisable dv vid
  else do
    gnmiRequest dv (.ipIgmpSet vid attr)
    Prog.when (decide (4096 ≤ vid)) (Prog.fail (-1))
    gnmiRequest dv (.igmpSnoopSet vid attr)

/-- `gnma_igmp_static_groups_set`. -/
def gnmaIgmpStaticGroupsSet (vid : ℕ) (groups : List IgmpGroup) : ApplyM δ Unit := do
  Prog.when (decide (4096 ≤ vid)) (Prog.fail (-1))
  gnmiRequest dv (.igmpGroupsSet vid groups)

/-- `enum gnma_igmp_version` of a plat version; 0 is "not available". -/
def gnmaIgmpVersion (igmp : PlatIgmp) : ℕ :=
  if !igmp.exist then 0
  else match igmp.version with
    | .v1 => 1
    | .v2 => 2
    | .v3 => 3

/-- `plat_vlan_igmp_set`. -/
def platVlanIgmpSet (vid : ℕ) (igmp : PlatIgmp) : ApplyM δ Unit := do
  Prog.orFail (-1) (gnmaIgmpSnoopingSet dv vid
    { enabled := igmp.snoopingEnabled
      querierEnabled := igmp.querierEnabled
      fastLeaveEnabled := igmp.fastLeaveEnabled
      queryInterval := igmp.queryInterval
      lastMemberQueryInterval := igmp.lastMemberQueryInterval
      maxResponseTime := igmp.maxResponseTime
      version := gnmaIgmpVersion igmp })
  Prog.orFail (-1) (gnmaIgmpStaticGroupsSet dv vid igmp.groups)

/-! ### Addresses -/

/-- `gnma_vlan_erif_attr_pref_list_get` with room for one prefix: more than one is an overflow. -/
def gnmaVlanErifPrefGet (vid : ℕ) : ApplyM δ (Option IpPrefix) := do
  match ← ask (dv.vlanErif vid) with
  | some [] => return none
  | some [pref] => return some pref
  | _ => Prog.fail (-1)

/-- Change the cached relay of one VLAN. -/
def modifyRelay (vid : ℕ) (f : CachedRelay → CachedRelay) : ApplyM δ Unit :=
  modifyCache fun c => { c with relay := Function.update c.relay vid (f (c.relay vid)) }

/-- The old address goes, and the cached relay with it. -/
def erifRemove (vid : ℕ) (old : Option IpPrefix) : ApplyM δ Unit :=
  match old with
  | none => return ()
  | some prefOld => do
    modifyRelay vid fun r => { r with enabled := false, helperAddress := InAddr.zero }
    Prog.orFail (-1) (gnmiRequest dv (.vlanErifDel vid prefOld.ip))

/-- `plat_vlan_rif_set`. -/
def platVlanRifSet (vid : ℕ) (ipv4 : PlatIpv4) : ApplyM δ Unit := do
  let pref : IpPrefix := ⟨ipv4.subnet, ipv4.subnetLen⟩
  let old ← Prog.orFail (-1) (gnmaVlanErifPrefGet dv vid)
  let relay := (← getCache).relay vid
  Prog.when relay.enabled
    (Prog.orFail (-1) (gnmaVlanDhcpRelayServerRemove dv vid relay.helperAddress))
  Prog.orFail (-1) (gnmaIgmpSnoopingSet dv vid {})
  Prog.when (!ipv4.exist) (erifRemove dv vid old)
  Prog.when (ipv4.exist && decide (old ≠ some pref)) (do
    Prog.orFail (-1) (gnmiRequest dv (.vlanErifSet vid pref))
    let relay := (← getCache).relay vid
    Prog.when relay.enabled
      (Prog.orFail (-1) (gnmaVlanDhcpRelayServerAdd dv vid relay.helperAddress)))

/-- `config_vlan_ipv4_apply`. -/
def configVlanIpv4Apply (cfg : PlatCfg) : ApplyM δ Unit :=
  forM (cfg.vlansToCfg.bitsSet maxVlans) fun i =>
    Prog.when (decide (i ≠ firstVlan)) (do
      platVlanRifSet dv (cfg.vlans i).id (cfg.vlans i).ipv4
      platVlanIgmpSet dv (cfg.vlans i).id (cfg.vlans i).igmp)

/-- `plat_portl2_rif_set`. -/
def platPortl2RifSet (pid : ℕ) (ipv4 : PlatIpv4) : ApplyM δ Unit := do
  let sipv4 := (← getCache).portsl2Rif pid
  Prog.when (sipv4.exist && !ipv4.exist)
    (Prog.orFail (-1) (gnmiRequest dv (.portErifDel (pidToName pid) sipv4.subnet)))
  Prog.when (ipv4.exist &&
      (decide (sipv4.subnetLen ≠ ipv4.subnetLen) || decide (sipv4.subnet ≠ ipv4.subnet)))
    (Prog.orFail (-1)
      (gnmiRequest dv (.portErifSet (pidToName pid) ⟨ipv4.subnet, ipv4.subnetLen⟩)))
  modifyCache fun c => { c with portsl2Rif := Function.update c.portsl2Rif pid ipv4 }

/-- `config_portl2_ipv4_apply`. -/
def configPortl2Ipv4Apply (cfg : PlatCfg) : ApplyM δ Unit :=
  forM (cfg.portsToCfg.bitsSet maxNumOfPorts) fun i => platPortl2RifSet dv i (cfg.portsl2 i)

/-! ### VLANs and their members -/

/-- `plat_vlan_list_set`: VLANs that the configuration lacks are removed, but never the first. -/
def platVlanListSet (vlansToCfg : Bitmap) : ApplyM δ Unit := do
  match ← ask dv.vlanList with
  | none => Prog.fail (-1)
  | some vlans =>
    forM (vlans.bitsSet maxVlans) fun vid =>
      Prog.when (!vlansToCfg vid && decide (vid ≠ firstVlan)) (do
        platVlanRifSet dv vid {}
        gnmiRequest dv (.vlanDel vid))

/-- The ports of a member list and those of them that are tagged; `none` if a name is no port. -/
def memberBits (members : List VlanMember) : Option (Bitmap × Bitmap) :=
  members.foldlM (fun b pv => (nameToPid pv.name).map fun pid =>
    (b.1.setBit pid, if pv.tagged then b.2.setBit pid else b.2)) (Bitmap.clear, Bitmap.clear)

/-- `plat_vlan_memberlist_set`: the changes it adds to the batch. -/
def platVlanMemberlistSet (mbr : VlanMemberBmap) (vlan : PlatVlan) : Option (List VlanChange) :=
  (memberBits vlan.members).map fun (member, tagged) =>
    let stale := ((mbr.portMember vlan.id).bitsSet maxNumOfPorts).filter (!member ·)
    let fresh := (member.bitsSet maxNumOfPorts).filter fun i =>
      !(mbr.portMember vlan.id i && tagged i == mbr.portTagged vlan.id i)
    .vlanCreate vlan.id :: stale.map (fun i => .memberRemove vlan.id (pidToName i)) ++
      fresh.map fun i => .memberCreate vlan.id (pidToName i) (tagged i)

/-- `config_vlan_apply`. -/
def configVlanApply (cfg : PlatCfg) : ApplyM δ Unit := do
  Prog.orFail (-1) (platVlanListSet dv cfg.vlansToCfg)
  match ← ask dv.vlanMembers with
  | none => Prog.fail (-1)
  | some mbr =>
    match (cfg.vlansToCfg.bitsSet maxVlans).mapM
        fun i => platVlanMemberlistSet mbr (cfg.vlans i) with
    | none => Prog.fail (-1)
    | some changes => gnmiSetrqExecute dv changes.flatten

/-! ### DHCP relays -/

/-- `PLAT_DHCP_RELAY_DEFAULT_MAXHOP_CNT`, `PLAT_DHCP_RELAY_DEFAULT_POLICY_ACT`. -/
def defaultMaxhopCnt : ℕ := 10

def defaultPolicyAct : RelayPolicyAction := .replace

def circuitIdOf (circId : String) : RelayCircuitId :=
  if circId = "%u" then .i else if circId = "%p" then .p else .hp

/-- The first loop of `config_vlan_dhcp_relay_apply`: a relay that is gone or changed is removed. -/
def relayClear (cfg : PlatCfg) (i : ℕ) : ApplyM δ Unit := do
  let old := (← getCache).relay i
  let new := (cfg.vlans i).relay
  Prog.when (old.enabled && decide (i ≠ firstVlan) &&
      (!new.enabled || decide (old.helperAddress ≠ new.serverAddress))) (do
    Prog.orFail (-1) (gnmaVlanDhcpRelayServerRemove dv i old.helperAddress)
    modifyRelay i fun r => { r with enabled := false, helperAddress := InAddr.zero })

/-- One parameter of a relay: set it if the cached one differs. -/
def relayParam (i : ℕ) (differs : CachedRelay → Bool) (set : ApplyM δ Unit)
    (f : CachedRelay → CachedRelay) : ApplyM δ Unit := do
  let c ← getCache
  Prog.when (differs (c.relay i)) (do
    set
    modifyRelay i f)

/-- The second loop: the relay is added and its parameters are brought to what is wanted. -/
def relayAdd (cfg : PlatCfg) (i : ℕ) : ApplyM δ Unit := do
  let new := (cfg.vlans i).relay
  Prog.when (new.enabled && decide (i ≠ firstVlan)) (do
    gnmaVlanDhcpRelayServerAdd dv i new.serverAddress
    modifyRelay i fun r => { r with helperAddress := new.serverAddress }
    relayParam i (fun r => decide (r.maxHopCnt ≠ defaultMaxhopCnt))
      (gnmaVlanDhcpRelayMaxHopCntSet dv i defaultMaxhopCnt)
      (fun r => { r with maxHopCnt := defaultMaxhopCnt })
    relayParam i (fun r => decide (r.policyAct ≠ defaultPolicyAct))
      (gnmaVlanDhcpRelayPolicyActionSet dv i defaultPolicyAct)
      (fun r => { r with policyAct := defaultPolicyAct })
    relayParam i (fun r => decide (r.circId ≠ circuitIdOf new.circId))
      (gnmaVlanDhcpRelayCircuitIdSet dv i (circuitIdOf new.circId))
      (fun r => { r with circId := circuitIdOf new.circId })
    modifyRelay i fun r => { r with enabled := true })

/-- `config_vlan_dhcp_relay_apply`. -/
def configVlanDhcpRelayApply (cfg : PlatCfg) : ApplyM δ Unit := do
  forM (cfg.vlansToCfg.bitsSet maxVlans) (relayClear dv cfg)
  forM (cfg.vlansToCfg.bitsSet maxVlans) (relayAdd dv cfg)

/-! ### Every failure is reported, but for the batch and the IGMP deletes -/

theorem relayPath_length_pos (vid : ℕ) (resource : String) :
    0 < (relayPath vid resource).length := by
  have hslash : ∀ a b : String, 0 < (a ++ "]/" ++ b).length := by
    intro a b
    have htwo : "]/".length = 2 := rfl
    rw [String.length_append, String.length_append, htwo]
    omega
  exact hslash _ resource

theorem reports_relaySet (vid : ℕ) (resource : String) (op : Op) :
    Reports Answered (relaySet dv vid resource op) := by
  have hpos := relayPath_length_pos vid resource
  exact reports_orFail (by omega) (reports_request dv op)

theorem reports_gnmaIgmpDisable (vid : ℕ) : Reports Answered (gnmaIgmpDisable dv vid) :=
  reports_forM _ (fun _ _ => reports_ignored dv rfl)

theorem reports_gnmaIgmpSnoopingSet (vid : ℕ) (attr : IgmpSnoopAttr) :
    Reports Answered (gnmaIgmpSnoopingSet dv vid attr) := by
  refine reports_ite (fun _ => reports_gnmaIgmpDisable dv vid) (fun _ => ?_)
  refine reports_bind (reports_request dv _) (fun _ => ?_)
  refine reports_bind (reports_when fun _ => reports_fail_neg_one) (fun _ => ?_)
  exact reports_request dv _

theorem reports_platVlanIgmpSet (vid : ℕ) (igmp : PlatIgmp) :
    Reports Answered (platVlanIgmpSet dv vid igmp) := by
  refine reports_bind ?_ (fun _ => ?_)
  · exact reports_orFail_neg_one (reports_gnmaIgmpSnoopingSet dv vid _)
  · refine reports_orFail_neg_one ?_
    refine reports_bind (reports_when fun _ => reports_fail_neg_one) (fun _ => ?_)
    exact reports_request dv _

theorem reports_gnmaVlanErifPrefGet (vid : ℕ) : Reports Answered (gnmaVlanErifPrefGet dv vid) := by
  refine reports_bind (reports_ask _) (fun reply => ?_)
  rcases reply with _ | prefs
  · exact reports_fail_neg_one
  · rcases prefs with _ | ⟨pref, _ | ⟨_, _⟩⟩
    · exact reports_pure _
    · exact reports_pure _
    · exact reports_fail_neg_one

theorem reports_erifRemove (vid : ℕ) (old : Option IpPrefix) :
    Reports Answered (erifRemove dv vid old) := by
  rcases old with _ | pref
  · exact reports_pure ()
  · refine reports_bind (reports_modifyCache _) (fun _ => ?_)
    exact reports_orFail_neg_one (reports_request dv _)

theorem reports_platVlanRifSet (vid : ℕ) (ipv4 : PlatIpv4) :
    Reports Answered (platVlanRifSet dv vid ipv4) := by
  refine reports_bind (reports_orFail_neg_one (reports_gnmaVlanErifPrefGet dv vid)) ?_
  intro old
  refine reports_bind reports_getCache (fun c => ?_)
  -- the relay is taken down, snooping is switched off
  refine reports_bind (reports_when fun _ => ?_) (fun _ => ?_)
  · exact reports_orFail_neg_one (reports_request dv _)
  refine reports_bind (reports_orFail_neg_one (reports_gnmaIgmpSnoopingSet dv vid _)) ?_
  intro _
  refine reports_bind (reports_when fun _ => reports_erifRemove dv vid old) (fun _ => ?_)
  -- the new address, and the relay again
  refine reports_when (fun _ => ?_)
  refine reports_bind (reports_orFail_neg_one (reports_request dv _)) (fun _ => ?_)
  refine reports_bind reports_getCache (fun c => reports_when fun _ => ?_)
  exact reports_orFail_neg_one (reports_relaySet dv vid _ _)

theorem reports_configVlanIpv4Apply (cfg : PlatCfg) :
    Reports Answered (configVlanIpv4Apply dv cfg) := by
  refine reports_forM _ (fun i _ => reports_when fun _ => ?_)
  exact reports_bind (reports_platVlanRifSet dv _ _) (fun _ => reports_platVlanIgmpSet dv _ _)

theorem reports_platPortl2RifSet (pid : ℕ) (ipv4 : PlatIpv4) :
    Reports Answered (platPortl2RifSet dv pid ipv4) := by
  refine reports_bind reports_getCache (fun c => ?_)
  refine reports_bind (reports_when fun _ => ?_) (fun _ => ?_)
  · exact reports_orFail_neg_one (reports_request dv _)
  refine reports_bind (reports_when fun _ => ?_) (fun _ => reports_modifyCache _)
  exact reports_orFail_neg_one (reports_request dv _)

theorem reports_configPortl2Ipv4Apply (cfg : PlatCfg) :
    Reports Answered (configPortl2Ipv4Apply dv cfg) :=
  reports_forM _ (fun i _ => reports_platPortl2RifSet dv i _)

theorem reports_platVlanListSet (vlansToCfg : Bitmap) :
    Reports Answered (platVlanListSet dv vlansToCfg) := by
  refine reports_bind (reports_ask _) (fun reply => ?_)
  rcases reply with _ | vlans
  · exact reports_fail_neg_one
  · refine reports_forM _ (fun vid _ => reports_when fun _ => ?_)
    exact reports_bind (reports_platVlanRifSet dv vid _) (fun _ => reports_request dv _)

/-- The batch is sent whatever becomes of it. -/
theorem reports_gnmiSetrqExecute (changes : List VlanChange) :
    Reports Answered (gnmiSetrqExecute dv changes) := by
  intro s
  refine ⟨[(.vlanBatch changes, (dv.request (.vlanBatch changes) s.state.dev).1)], rfl, ?_⟩
  intro x hx
  rw [List.mem_singleton.mp hx]
  exact fun h => absurd h (by simp [Op.checked])

theorem reports_configVlanApply (cfg : PlatCfg) : Reports Answered (configVlanApply dv cfg) := by
  refine reports_bind (reports_orFail_neg_one (reports_platVlanListSet dv _)) (fun _ => ?_)
  refine reports_bind (reports_ask _) (fun reply => ?_)
  rcases reply with _ | mbr
  · exact reports_fail_neg_one
  · simp only
    rcases (cfg.vlansToCfg.bitsSet maxVlans).mapM
      (fun i => platVlanMemberlistSet mbr (cfg.vlans i)) with _ | changes
    · exact reports_fail_neg_one
    · exact reports_gnmiSetrqExecute dv _

theorem reports_relayClear (cfg : PlatCfg) (i : ℕ) : Reports Answered (relayClear dv cfg i) := by
  refine reports_bind reports_getCache (fun c => reports_when fun _ => ?_)
  refine reports_bind (reports_orFail_neg_one (reports_request dv _)) (fun _ => ?_)
  exact reports_modifyCache _

theorem reports_relayParam (i : ℕ) (differs : CachedRelay → Bool) {set : ApplyM δ Unit}
    (f : CachedRelay → CachedRelay) (h : Reports Answered set) :
    Reports Answered (relayParam i differs set f) := by
  refine reports_bind reports_getCache (fun c => reports_when fun _ => ?_)
  exact reports_bind h (fun _ => reports_modifyCache _)

theorem reports_relayAdd (cfg : PlatCfg) (i : ℕ) : Reports Answered (relayAdd dv cfg i) := by
  refine reports_when (fun _ => ?_)
  refine reports_bind (reports_relaySet dv i _ _) (fun _ => ?_)
  refine reports_bind (reports_modifyCache _) (fun _ => ?_)
  refine reports_bind (reports_relayParam i _ _ (reports_relaySet dv i _ _)) (fun _ => ?_)
  refine reports_bind (reports_relayParam i _ _ (reports_relaySet dv i _ _)) (fun _ => ?_)
  refine reports_bind (reports_relayParam i _ _ (reports_relaySet dv i _ _)) (fun _ => ?_)
  exact reports_modifyCache _

theorem reports_configVlanDhcpRelayApply (cfg : PlatCfg) :
    Reports Answered (configVlanDhcpRelayApply dv cfg) := by
  refine reports_bind (reports_forM _ fun i _ => reports_relayClear dv cfg i) (fun _ => ?_)
  exact reports_forM _ (fun i _ => reports_relayAdd dv cfg i)

end Ucentral.Plat
