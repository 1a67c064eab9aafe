import Ucentral.Plat.Cfg
import Ucentral.Lib.Effect

/-! The switch behind the platform code.

    Every change the client makes is one gNMI request: a set, a delete, or the batch of VLAN changes
    sent as a single set. `Op` has one constructor for each resource the client writes, with the
    data it puts there. What the switch does with a request, and what it answers to a query, is not
    fixed: a `Dev` over a state of its own may accept or refuse any request at any time.

    The cache `PlatState` is what the client believes the switch holds. -/

namespace Ucentral.Plat
open Inet Router Effect

/-- `struct gnma_ip_prefix`; every caller of the apply path sets `AF_INET`. -/
structure IpPrefix where
  ip : InAddr
  prefixLen : ℤ
  deriving DecidableEq, Repr

/-- `struct gnma_route_attrs`, with the fields that are written to the device. -/
inductive RouteAttrs
  | connected (vid : ℕ)
  | nexthop (vid : ℕ) (gw : InAddr)
  | blackhole
  deriving DecidableEq, Repr

inductive PoeDetectionMode
  | pt2Dot3af | pt2Dot3afLeg | pt4Dot3af | pt4Dot3afLeg | dot3bt | dot3btLeg | leg
  deriving DecidableEq, Repr

inductive PoePriority
  | low | medium | high | critical
  deriving DecidableEq, Repr

inductive PoePowerMgmt
  | byClass | dynamic | dynamicPriority | static | staticPriority
  deriving DecidableEq, Repr

inductive RelayCircuitId
  | hp | i | p
  deriving DecidableEq, Repr

inductive RelayPolicyAction
  | discard | append | replace
  deriving DecidableEq, Repr

inductive GnmaStpMode
  | none | rpvst | pvst | mst
  deriving DecidableEq, Repr

/-- `struct gnma_stp_attr`. -/
structure StpAttr where
  forwardDelay : ℕ := 0
  helloTime : ℕ := 0
  maxAge : ℕ := 0
  priority : ℕ := 0
  enabled : Bool := false
  deriving DecidableEq, Repr

/-- `struct gnma_igmp_snoop_attr`; version 0 is `GNMA_IGMP_VERSION_NA`. -/
structure IgmpSnoopAttr where
  enabled : Bool := false
  querierEnabled : Bool := false
  fastLeaveEnabled : Bool := false
  queryInterval : ℕ := 0
  lastMemberQueryInterval : ℕ := 0
  maxResponseTime : ℕ := 0
  version : ℕ := 0
  deriving DecidableEq, Repr

/-- The three resources `__gnma_igmp_disable` deletes. -/
inductive IgmpResource
  | ipIgmp | staticGrps | interface
  deriving DecidableEq, Repr

/-- `struct gnma_syslog_cfg`. -/
structure GnmaSyslog where
  ipaddress : String
  remotePort : ℤ
  severity : String
  deriving DecidableEq, Repr

/-- One entry of the batch that `gnma_change_exec` sends. -/
inductive VlanChange
  | vlanCreate (vid : ℕ)
  | memberRemove (vid : ℕ) (port : String)
  | memberCreate (vid : ℕ) (port : String) (tagged : Bool)
  deriving DecidableEq, Repr

/-- A request that changes the switch. -/
inductive Op
  | vlanBatch (changes : List VlanChange)
  | vlanDel (vid : ℕ)
  | portAdminSet (port : String) (up : Bool)
  | portSpeedSet (port : String) (speed : String)
  | dot1xPaeSet (port : String) (isAuthenticator : Bool)
  | dot1xCtrlSet (port : String) (mode : PortControlMode)
  | dot1xHostSet (port : String) (mode : PortHostMode)
  | dot1xGuestVlanSet (port : String) (vid : ℕ)
  | dot1xAuthFailVlanSet (port : String) (vid : ℕ)
  | dot1xAuthControlSet (enabled : Bool)
  | dasClientSet (host passkey : String)
  | dasClientDel (host : String)
  | radiusServerSet (host passkey : String) (authPort prio : ℕ)
  | poePowerMgmtSet (mode : PoePowerMgmt)
  | poeUsageThresholdSet (threshold : ℕ)
  | poePortAdminSet (port : String) (enabled : Bool)
  | poePortDetectionSet (port : String) (mode : PoeDetectionMode)
  | poePortPowerLimitSet (port : String) (userDefined : Bool) (limit : ℕ)
  | poePortPrioritySet (port : String) (priority : PoePriority)
  | poePortReset (port : String)
  | stpGlobalDel
  | stpGlobalSet (mode : GnmaStpMode) (priority : ℕ)
  | stpPortsSet (ports : List String)
  | stpVlanSet (vid : ℕ) (attr : StpAttr)
  | stpVlanEnabledSet (vids : List ℕ) (enable : Bool)
  | vlanErifSet (vid : ℕ) (pref : IpPrefix)
  | vlanErifDel (vid : ℕ) (ip : InAddr)
  | portErifSet (port : String) (pref : IpPrefix)
  | portErifDel (port : String) (ip : InAddr)
  | relayServerSet (vid : ℕ) (ip : InAddr)
  | relayServerDel (vid : ℕ) (ip : InAddr)
  | relayMaxHopSet (vid : ℕ) (cnt : ℕ)
  | relayPolicyActionSet (vid : ℕ) (act : RelayPolicyAction)
  | relayCircuitIdSet (vid : ℕ) (id : RelayCircuitId)
  | igmpDel (vid : ℕ) (resource : IgmpResource)
  | ipIgmpSet (vid : ℕ) (attr : IgmpSnoopAttr)
  | igmpSnoopSet (vid : ℕ) (attr : IgmpSnoopAttr)
  | igmpGroupsSet (vid : ℕ) (groups : List IgmpGroup)
  | routeCreate (pref : IpPrefix) (attr : RouteAttrs)
  | routeRemove (pref : IpPrefix)
  | passwordSet (password : String)
  | syslogDel
  | syslogSet (servers : List GnmaSyslog)
  deriving DecidableEq, Repr

/-- `struct gnma_vlan_member_bmap`: membership and tagging by VLAN and port. -/
structure VlanMemberBmap where
  portMember : ℕ → Bitmap
  portTagged : ℕ → Bitmap

/-- A switch with state `δ`: how it takes requests and answers queries. A query answers `none` when
    the get fails or its reply cannot be read. -/
structure Dev (δ : Type) where
  request : Op → δ → Bool × δ
  vlanList : δ → Option Bitmap × δ
  vlanMembers : δ → Option VlanMemberBmap × δ
  vlanErif : ℕ → δ → Option (List IpPrefix) × δ
  portList : δ → Option (List String) × δ
  dacHosts : δ → Option (List String) × δ
  radiusHosts : δ → Option (List String) × δ

/-! ### The cache -/

/-- `ieee8021x` of `struct port`. -/
structure CachedDot1x where
  controlMode : PortControlMode := .forceAuthorized
  hostMode : PortHostMode := .multiAuth
  authFailVid : ℕ := 0
  guestVid : ℕ := 0
  isAuthenticator : Bool := false
  deriving DecidableEq, Repr

/-- `struct poe_port`. -/
structure PoePort where
  key : String := ""
  isAdminModeUp : Bool := false
  detectionMode : PoeDetectionMode := .pt2Dot3af
  powerLimit : ℕ := 0
  isPowerLimitUserDefined : Bool := false
  priority : PoePriority := .low
  deriving DecidableEq, Repr

/-- `dhcp_relay` of `struct plat_state`, which keeps a single helper address. -/
structure CachedRelay where
  policyAct : RelayPolicyAction := .discard
  circId : RelayCircuitId := .hp
  maxHopCnt : ℕ := 0
  helperAddress : InAddr := InAddr.zero
  enabled : Bool := false
  deriving DecidableEq, Repr

inductive FeatSts
  | fail | none | ok
  deriving DecidableEq, Repr

/-- `struct plat_state` and the feature states beside it. -/
structure PlatState where
  ports : ℕ → CachedDot1x := fun _ => {}
  relay : ℕ → CachedRelay := fun _ => {}
  poePowerMgmt : PoePowerMgmt := .byClass
  poeUsageThreshold : ℕ := 0
  poePorts : ℕ → PoePort := fun _ => {}
  poePortsBmap : Bitmap := Bitmap.clear
  isAuthControlEnabled : Bool := false
  dacKeys : List String := []
  radiusKeys : List String := []
  router : Table := fibDbAlloc 0
  stpMode : GnmaStpMode := .none
  stpModeAttr : StpAttr := {}
  stpVlanAttr : ℕ → StpAttr := fun _ => {}
  portsl2Rif : ℕ → PlatIpv4 := fun _ => {}
  featAaa : FeatSts := .none
  featPoe : FeatSts := .none

/-- The cache and the switch. -/
structure Env (δ : Type) where
  cache : PlatState
  dev : δ

/-- A platform function: it reads and writes the cache, and its requests are recorded. -/
abbrev ApplyM (δ α : Type) := Prog (Env δ) (Op × Bool) α

variable {δ : Type}

def getCache : ApplyM δ PlatState := do return (← Prog.getState).cache

def modifyCache (f : PlatState → PlatState) : ApplyM δ Unit :=
  Prog.modifyState fun e => { e with cache := f e.cache }

/-- Ask the switch. -/
def ask {α : Type} (q : δ → α × δ) : ApplyM δ α :=
  Prog.query fun e => ((q e.dev).1, { e with dev := (q e.dev).2 })

/-- Put one request to the switch; the answer is its gRPC status. -/
def send (dv : Dev δ) (op : Op) : ApplyM δ Bool :=
  Prog.call op fun e => ((dv.request op e.dev).1, { e with dev := (dv.request op e.dev).2 })

/-- `gnmi_jsoni_set`, `gnmi_jsoni_del`, `gnmi_gnoi_poe_port_reset`: -1 unless the status is ok. -/
def gnmiRequest (dv : Dev δ) (op : Op) : ApplyM δ Unit := do
  if ← send dv op then return () else Prog.fail (-1)

/-- `gnmi_setrq_execute`: the status goes to `sts`, which is null here, and 0 is returned. -/
def gnmiSetrqExecute (dv : Dev δ) (changes : List VlanChange) : ApplyM δ Unit := do
  let _ ← send dv (.vlanBatch changes)

/-! ### What a request does -/

theorem getCache_run (s : Traced (Env δ) (Op × Bool)) :
    (getCache : ApplyM δ PlatState) s = (.ok s.state.cache, s) := rfl

theorem modifyCache_run (f : PlatState → PlatState) (s : Traced (Env δ) (Op × Bool)) :
    modifyCache f s = (.ok (), ⟨{ s.state with cache := f s.state.cache }, s.log⟩) := rfl

theorem ask_run {α : Type} (q : δ → α × δ) (s : Traced (Env δ) (Op × Bool)) :
    ask q s = (.ok (q s.state.dev).1, ⟨{ s.state with dev := (q s.state.dev).2 }, s.log⟩) := rfl

theorem send_run (dv : Dev δ) (op : Op) (s : Traced (Env δ) (Op × Bool)) :
    send dv op s = (.ok (dv.request op s.state.dev).1,
      ⟨{ s.state with dev := (dv.request op s.state.dev).2 },
        s.log ++ [(op, (dv.request op s.state.dev).1)]⟩) := rfl

theorem gnmiRequest_run (dv : Dev δ) (op : Op) (s : Traced (Env δ) (Op × Bool)) :
    gnmiRequest dv op s =
      (if (dv.request op s.state.dev).1 then .ok () else .error (-1),
      ⟨{ s.state with dev := (dv.request op s.state.dev).2 },
        s.log ++ [(op, (dv.request op s.state.dev).1)]⟩) := by
  rw [gnmiRequest, Prog.bind_run_ok (send_run dv op s)]
  cases (dv.request op s.state.dev).1 <;> rfl

/-- A failed request is reported as -1 already. -/
theorem orFail_gnmiRequest (dv : Dev δ) (op : Op) :
    Prog.orFail (-1) (gnmiRequest dv op) = gnmiRequest dv op := by
  funext s
  rw [Prog.orFail, gnmiRequest_run]
  cases (dv.request op s.state.dev).1 <;> rfl

/-- Either the request is accepted, or the failure is reported. -/
theorem reports_gnmiRequest {ok : Op × Bool → Prop} (dv : Dev δ) (op : Op) (h : ok (op, true)) :
    Reports ok (gnmiRequest dv op) := by
  intro s
  rw [gnmiRequest_run]
  refine ⟨_, rfl, ?_⟩
  cases (dv.request op s.state.dev).1
  · simp
  · simpa using h

/-- A request whose failures are not counted may be ignored. -/
theorem quiet_gnmiRequest {ok : Op × Bool → Prop} (dv : Dev δ) (op : Op) (h : ∀ b, ok (op, b)) :
    Quiet ok (gnmiRequest dv op) := by
  intro s
  rw [gnmiRequest_run]
  refine ⟨_, rfl, ?_⟩
  simpa using h _

/-! ### Which requests are answered for -/

/-- The requests whose failure is reported to the caller. The result of a batch of VLAN changes, of
    the port state and speed, of the deletes that only clear the way (routes, spanning tree, IGMP),
    of disabling a spanning tree instance and of the syslog servers is dropped. -/
def Op.checked : Op → Bool
  | .vlanBatch _ => false
  | .portAdminSet _ _ => false
  | .portSpeedSet _ _ => false
  | .routeRemove _ => false
  | .stpGlobalDel => false
  | .stpVlanEnabledSet _ _ => false
  | .igmpDel _ _ => false
  | .syslogDel => false
  | .syslogSet _ => false
  | _ => true

/-- A recorded request that succeeded, unless its result is dropped. -/
def Answered (x : Op × Bool) : Prop := x.1.checked = true → x.2 = true

theorem reports_request (dv : Dev δ) (op : Op) : Reports Answered (gnmiRequest dv op) :=
  reports_gnmiRequest dv op (fun _ => rfl)

theorem reports_ignored (dv : Dev δ) {op : Op} (h : op.checked = false) :
    Reports Answered (Prog.ignore (gnmiRequest dv op)) :=
  reports_ignore (quiet_gnmiRequest dv op (fun _ hc => absurd hc (by simp [h])))

/-- The cache and the queries leave no trace. -/
theorem reports_getCache {ok : Op × Bool → Prop} : Reports ok (getCache : ApplyM δ PlatState) :=
  reports_bind reports_getState (fun _ => reports_pure _)

theorem reports_modifyCache {ok : Op × Bool → Prop} (f : PlatState → PlatState) :
    Reports ok (modifyCache f : ApplyM δ Unit) :=
  reports_modifyState _

theorem reports_ask {ok : Op × Bool → Prop} {α : Type} (q : δ → α × δ) :
    Reports ok (ask q : ApplyM δ α) :=
  reports_query _

end Ucentral.Plat
