import Ucentral.Plat.Device

/-! The port, unit and spanning tree stages of `plat_config_apply`.

    A setting is only sent if it differs from the cached one. The PoE settings are cached one by one
    as they are accepted, those of 802.1X all at once at the end. The port state and speed are not
    cached, and what the switch answers to them is dropped. -/

namespace Ucentral.Plat
open Effect

variable {δ : Type} (dv : Dev δ)

/-! ### State and speed -/

/-- `SPEED_TO_STR`. -/
def speedToStr : ℕ → Option String
  | 0 => some "10"
  | 1 => some "100"
  | 2 => some "1000"
  | 3 => some "2500"
  | 4 => some "5000"
  | 5 => some "10000"
  | 6 => some "25000"
  | 7 => some "40000"
  | 8 => some "100000"
  | _ => none

/-- `plat_port_admin_state_set`: returns 0 whatever the switch answers. -/
def platPortAdminStateSet (pid state : ℕ) : ApplyM δ Unit :=
  Prog.ignore (gnmiRequest dv (.portAdminSet (pidToName pid) (state == 1)))

/-- `plat_port_speed_set`: fails on an unknown speed only. -/
def platPortSpeedSet (pid speed : ℕ) : ApplyM δ Unit :=
  match speedToStr speed with
  | none => Prog.fail (-1)
  | some str => Prog.ignore (gnmiRequest dv (.portSpeedSet (pidToName pid) str))

/-! ### 802.1X on a port -/

/-- What the cache keeps of the 802.1X settings of a port. -/
def cachedDot1xOf (new : PortDot1x) : CachedDot1x :=
  { controlMode := new.controlMode
    hostMode := new.hostMode
    authFailVid := new.authFailVid
    guestVid := new.guestVid
    isAuthenticator := new.isAuthenticator }

/-- `config_port_ieee8021x_apply`. -/
def configPortIeee8021xApply (pid : ℕ) (port : PlatPort) : ApplyM δ Unit := do
  let name := pidToName pid
  let cached := (← getCache).ports pid
  let new := port.dot1x
  Prog.when (decide (cached.isAuthenticator ≠ new.isAuthenticator))
    (gnmiRequest dv (.dot1xPaeSet name new.isAuthenticator))
  Prog.when (decide (cached.controlMode ≠ new.controlMode))
    (gnmiRequest dv (.dot1xCtrlSet name new.controlMode))
  Prog.when (decide (cached.hostMode ≠ new.hostMode))
    (gnmiRequest dv (.dot1xHostSet name new.hostMode))
  Prog.when (decide (cached.guestVid ≠ new.guestVid))
    (gnmiRequest dv (.dot1xGuestVlanSet name new.guestVid))
  Prog.when (decide (cached.authFailVid ≠ new.authFailVid))
    (gnmiRequest dv (.dot1xAuthFailVlanSet name new.authFailVid))
  modifyCache fun c => { c with ports := Function.update c.ports pid (cachedDot1xOf new) }

/-! ### PoE -/

/-- `__poe_port_detection_mode_str2num`. -/
def poePortDetectionModeStr2num (str : String) : PoeDetectionMode :=
  if str = "2pt-dot3af" then .pt2Dot3af
  else if str = "2pt-dot3af+legacy" then .pt2Dot3afLeg
  else if str = "4pt-dot3af" then .pt4Dot3af
  else if str = "4pt-dot3af+legacy" then .pt4Dot3afLeg
  else if str = "dot3bt" then .dot3bt
  else if str = "dot3bt+legacy" then .dot3btLeg
  else if str = "legacy" then .leg
  else .pt4Dot3af

/-- `__poe_port_priority_mode_str2num`. -/
def poePortPriorityModeStr2num (str : String) : PoePriority :=
  if str = "low" then .low
  else if str = "medium" then .medium
  else if str = "high" then .high
  else if str = "critical" then .critical
  else .low

/-- `__poe_power_mgmt_str2num`. -/
def poePowerMgmtStr2num (str : String) : PoePowerMgmt :=
  if str = "class" then .byClass
  else if str = "dynamic" then .dynamic
  else if str = "dynamic-priority" then .dynamicPriority
  else if str = "static" then .static
  else if str = "static-priority" then .staticPriority
  else .byClass

/-- One PoE setting of a port: send it if the cached one differs, and cache it if accepted. -/
def poeSetting (pid : ℕ) (differs : PoePort → Bool) (op : PoePort → Op)
    (f : PoePort → PoePort) : ApplyM δ Unit := do
  let p := (← getCache).poePorts pid
  Prog.when (differs p) (do
    Prog.orFail (-1) (gnmiRequest dv (op p))
    modifyCache fun c => { c with poePorts := Function.update c.poePorts pid (f (c.poePorts pid)) })

/-- `config_poe_port_apply`. -/
def configPoePortApply (pid : ℕ) (port : PlatPort) : ApplyM δ Unit := do
  let mode := poePortDetectionModeStr2num port.poe.detectionMode
  let priority := poePortPriorityModeStr2num port.poe.priority
  let userDefined := port.poe.isPowerLimitSet
  let limit := if port.poe.isPowerLimitSet then port.poe.powerLimit else 0
  let up := port.poe.isAdminModeUp
  Prog.when port.poe.isDetectionModeSet
    (poeSetting dv pid (fun p => decide (p.detectionMode ≠ mode))
      (fun p => .poePortDetectionSet p.key mode) (fun p => { p with detectionMode := mode }))
  Prog.when port.poe.isPrioritySet
    (poeSetting dv pid (fun p => decide (p.priority ≠ priority))
      (fun p => .poePortPrioritySet p.key priority) (fun p => { p with priority := priority }))
  poeSetting dv pid
    (fun p => decide (p.powerLimit ≠ limit) || decide (p.isPowerLimitUserDefined ≠ userDefined))
    (fun p => .poePortPowerLimitSet p.key userDefined limit)
    (fun p => { p with isPowerLimitUserDefined := userDefined, powerLimit := limit })
  poeSetting dv pid (fun p => decide (p.isAdminModeUp ≠ up))
    (fun p => .poePortAdminSet p.key up) (fun p => { p with isAdminModeUp := up })
  Prog.when port.poe.doReset (do
    let p := (← getCache).poePorts pid
    Prog.orFail (-1) (gnmiRequest dv (.poePortReset p.key)))

/-! ### All ports, and the unit -/

/-- One turn of the loop of `plat_port_config_apply`. The duplex mode is not sent at all. -/
def portApply (cfg : PlatCfg) (i : ℕ) : ApplyM δ Unit := do
  let port := cfg.ports i
  platPortAdminStateSet dv i port.state
  Prog.when (decide (port.state ≠ 0)) (Prog.orFail (-1) (platPortSpeedSet dv i port.speed))
  Prog.when (decide ((← getCache).featAaa = .ok))
    (Prog.orFail (-1) (configPortIeee8021xApply dv i port))
  let c ← getCache
  Prog.when (c.poePortsBmap i && decide (c.featPoe = .ok))
    (Prog.orFail (-1) (configPoePortApply dv i port))

/-- `plat_port_config_apply`. -/
def platPortConfigApply (cfg : PlatCfg) : ApplyM δ Unit :=
  forM (cfg.portsToCfg.bitsSet maxNumOfPorts) (portApply dv cfg)

/-- `config_unit_apply`. -/
def configUnitApply (cfg : PlatCfg) : ApplyM δ Unit := do
  let mode := poePowerMgmtStr2num cfg.unit.powerMgmt
  let threshold := cfg.unit.usageThreshold
  Prog.when (cfg.unit.mcFloodControl || cfg.unit.querierEnable) (Prog.fail (-1))
  Prog.when (cfg.unit.isPowerMgmtSet && decide ((← getCache).poePowerMgmt ≠ mode)) (do
    gnmiRequest dv (.poePowerMgmtSet mode)
    modifyCache fun c => { c with poePowerMgmt := mode })
  Prog.when (cfg.unit.isUsageThresholdSet && decide ((← getCache).poeUsageThreshold ≠ threshold)) (do
    gnmiRequest dv (.poeUsageThresholdSet threshold)
    modifyCache fun c => { c with poeUsageThreshold := threshold })

/-! ### Spanning tree -/

/-- `gnma_stp_mode_set`: the global entry is deleted first, since the mode cannot be changed in
    place. -/
def gnmaStpModeSet (mode : GnmaStpMode) (attr : StpAttr) : ApplyM δ Unit := do
  Prog.ignore (gnmiRequest dv .stpGlobalDel)
  Prog.when (decide (mode ≠ .none)) (gnmiRequest dv (.stpGlobalSet mode attr.priority))

/-- `config_stp_apply_ports_enable_all`: one query for the size of the list, one for the list. -/
def configStpApplyPortsEnableAll : ApplyM δ Unit := do
  match ← ask dv.portList with
  | none => Prog.fail (-1)
  | some _ =>
    match ← ask dv.portList with
    | none => Prog.fail (-1)
    | some ports => Prog.orFail (-1) (gnmiRequest dv (.stpPortsSet ports))

/-- `gnma_stp_vid_set`: the result of disabling an instance is dropped. -/
def gnmaStpVidSet (vid : ℕ) (attr : StpAttr) : ApplyM δ Unit :=
  if attr.enabled then gnmiRequest dv (.stpVlanSet vid attr)
  else Prog.ignore (gnmiRequest dv (.stpVlanEnabledSet [vid] false))

/-- The attributes of an instance of a configuration. -/
def stpAttrOf (s : StpInstance) : StpAttr :=
  { forwardDelay := s.forwardDelay
    helloTime := s.helloTime
    maxAge := s.maxAge
    priority := s.priority
    enabled := s.enabled }

/-- One turn of the loop over the VLANs. -/
def stpVlanApply (cfg : PlatCfg) (i : ℕ) : ApplyM δ Unit := do
  let attr := stpAttrOf (cfg.stpInstances i)
  let old := (← getCache).stpVlanAttr i
  Prog.when ((old.enabled || attr.enabled) && decide (attr ≠ old)) (do
    gnmaStpVidSet dv i attr
    modifyCache fun c => { c with stpVlanAttr := Function.update c.stpVlanAttr i attr })

/-- `config_stp_apply`. -/
def configStpApply (cfg : PlatCfg) : ApplyM δ Unit := do
  let c ← getCache
  match cfg.stpMode with
  | .none =>
    Prog.when (decide (c.stpMode ≠ .none)) (do
      gnmaStpModeSet dv .none {}
      modifyCache fun c => { c with stpMode := .none, stpVlanAttr := fun _ => {} })
  | .rpvst => do
    Prog.when (decide (c.stpMode ≠ .rpvst) || decide (({} : StpAttr) ≠ c.stpModeAttr)) (do
      gnmaStpModeSet dv .rpvst {}
      configStpApplyPortsEnableAll dv
      modifyCache fun c => { c with stpMode := .rpvst, stpModeAttr := {} })
    forM (List.range' firstVlan (maxVlans - firstVlan)) (stpVlanApply dv cfg)
  | _ => Prog.fail (-1)

/-! ### What is reported -/

theorem reports_platPortSpeedSet (pid speed : ℕ) :
    Reports Answered (platPortSpeedSet dv pid speed) := by
  unfold platPortSpeedSet
  rcases speedToStr speed with _ | str
  · exact reports_fail_neg_one
  · exact reports_ignored dv rfl

/-- One setting: sent if it differs. -/
theorem reports_setting (b : Bool) (op : Op) :
    Reports Answered (Prog.when b (gnmiRequest dv op)) :=
  reports_when (fun _ => reports_request dv op)

theorem reports_configPortIeee8021xApply (pid : ℕ) (port : PlatPort) :
    Reports Answered (configPortIeee8021xApply dv pid port) := by
  refine reports_bind reports_getCache (fun c => ?_)
  refine reports_bind (reports_setting dv _ _) (fun _ => ?_)
  refine reports_bind (reports_setting dv _ _) (fun _ => ?_)
  refine reports_bind (reports_setting dv _ _) (fun _ => ?_)
  refine reports_bind (reports_setting dv _ _) (fun _ => ?_)
  refine reports_bind (reports_setting dv _ _) (fun _ => ?_)
  exact reports_modifyCache _

theorem reports_poeSetting (pid : ℕ) (differs : PoePort → Bool) (op : PoePort → Op)
    (f : PoePort → PoePort) : Reports Answered (poeSetting dv pid differs op f) := by
  refine reports_bind reports_getCache (fun c => reports_when fun _ => ?_)
  refine reports_bind (reports_orFail_neg_one (reports_request dv _)) (fun _ => ?_)
  exact reports_modifyCache _

theorem reports_configPoePortApply (pid : ℕ) (port : PlatPort) :
    Reports Answered (configPoePortApply dv pid port) := by
  refine reports_bind (reports_when fun _ => reports_poeSetting dv pid _ _ _) (fun _ => ?_)
  refine reports_bind (reports_when fun _ => reports_poeSetting dv pid _ _ _) (fun _ => ?_)
  refine reports_bind (reports_poeSetting dv pid _ _ _) (fun _ => ?_)
  refine reports_bind (reports_poeSetting dv pid _ _ _) (fun _ => reports_when fun _ => ?_)
  refine reports_bind reports_getCache (fun c => ?_)
  exact reports_orFail_neg_one (reports_request dv _)

theorem reports_portApply (cfg : PlatCfg) (i : ℕ) : Reports Answered (portApply dv cfg i) := by
  refine reports_bind (reports_ignored dv rfl) (fun _ => ?_)
  refine reports_bind (reports_when fun _ => ?_) (fun _ => ?_)
  · exact reports_orFail_neg_one (reports_platPortSpeedSet dv i _)
  refine reports_bind reports_getCache (fun c => ?_)
  refine reports_bind (reports_when fun _ => ?_) (fun _ => ?_)
  · exact reports_orFail_neg_one (reports_configPortIeee8021xApply dv i _)
  refine reports_bind reports_getCache (fun c => reports_when fun _ => ?_)
  exact reports_orFail_neg_one (reports_configPoePortApply dv i _)

theorem reports_platPortConfigApply (cfg : PlatCfg) :
    Reports Answered (platPortConfigApply dv cfg) :=
  reports_forM _ (fun i _ => reports_portApply dv cfg i)

theorem reports_configUnitApply (cfg : PlatCfg) : Reports Answered (configUnitApply dv cfg) := by
  refine reports_bind (reports_when fun _ => reports_fail_neg_one) (fun _ => ?_)
  refine reports_bind reports_getCache (fun c => ?_)
  refine reports_bind (reports_when fun _ => ?_) (fun _ => ?_)
  · exact reports_bind (reports_request dv _) (fun _ => reports_modifyCache _)
  refine reports_bind reports_getCache (fun c => reports_when fun _ => ?_)
  exact reports_bind (reports_request dv _) (fun _ => reports_modifyCache _)

theorem reports_gnmaStpModeSet (mode : GnmaStpMode) (attr : StpAttr) :
    Reports Answered (gnmaStpModeSet dv mode attr) :=
  reports_bind (reports_ignored dv rfl) (fun _ => reports_setting dv _ _)

theorem reports_configStpApplyPortsEnableAll :
    Reports Answered (configStpApplyPortsEnableAll dv) := by
  refine reports_bind (reports_ask _) (fun size => ?_)
  rcases size with _ | _
  · exact reports_fail_neg_one
  · refine reports_bind (reports_ask _) (fun reply => ?_)
    rcases reply with _ | ports
    · exact reports_fail_neg_one
    · exact reports_orFail_neg_one (reports_request dv _)

theorem reports_stpVlanApply (cfg : PlatCfg) (i : ℕ) :
    Reports Answered (stpVlanApply dv cfg i) := by
  refine reports_bind reports_getCache (fun c => reports_when fun _ => ?_)
  refine reports_bind ?_ (fun _ => reports_modifyCache _)
  exact reports_ite (fun _ => reports_request dv _) (fun _ => reports_ignored dv rfl)

theorem reports_configStpApply (cfg : PlatCfg) : Reports Answered (configStpApply dv cfg) := by
  refine reports_bind reports_getCache (fun c => ?_)
  cases cfg.stpMode with
  | none =>
    refine reports_when (fun _ => ?_)
    exact reports_bind (reports_gnmaStpModeSet dv _ _) (fun _ => reports_modifyCache _)
  | rpvst =>
    refine reports_bind (reports_when fun _ => ?_) (fun _ => ?_)
    · refine reports_bind (reports_gnmaStpModeSet dv _ _) (fun _ => ?_)
      exact reports_bind (reports_configStpApplyPortsEnableAll dv) (fun _ => reports_modifyCache _)
    · exact reports_forM _ (fun i _ => reports_stpVlanApply dv cfg i)
  | stp => exact reports_fail_neg_one
  | rst => exact reports_fail_neg_one
  | mst => exact reports_fail_neg_one
  | pvst => exact reports_fail_neg_one

end Ucentral.Plat
