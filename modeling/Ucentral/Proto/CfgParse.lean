import Ucentral.Proto.CfgPorts
import Mathlib.Algebra.GroupWithZero.Nat

/-! `cfg_parse`: from the JSON of a configuration to a `plat_cfg`.

    The sections that are about the whole switch come here, and the parser that goes through all
    sections in their order. Whether it accepts, rejects or faults is decided by the JSON and the
    port list; the part filled in before a stop is dropped with the structure. -/

namespace Ucentral.Proto
open CJson Inet Router Plat Parse

/-! ### `services` -/

/-- `cfg_service_log_parse`. -/
def cfgServiceLogParse (s : Ptr) : Parser SyslogCfg Unit := do
  let port := getItem s "port"
  let priority := getItem s "priority"
  let size := getItem s "size"
  let host := getItem s "host"
  let proto := getItem s "proto"
  need (isNumber port)
  Parser.fill fun l => { l with port := (getNumberValue port).toInt, priority := 7 }
  Parser.when priority.isSome (do
    need (isNumber priority)
    Parser.fill fun l => { l with priority := (getNumberValue priority).toInt })
  Parser.fill fun l => { l with size := 1000 }
  Parser.when size.isSome (do
    need (isNumber size)
    Parser.fill fun l => { l with size := (getNumberValue size).toInt })
  Parser.when proto.isSome (do
    need (isString proto)
    text (getStringValue proto)
    need (strOf proto == "udp" || strOf proto == "tcp")
    Parser.fill fun l => { l with isTcp := strOf proto == "tcp" })
  Parser.when host.isSome (do
    need (isString host)
    -- `snprintf` cuts and terminates
    text (getStringValue host)
    Parser.fill fun l => { l with host := cutBytes 63 (strOf host) })

/-- `ssh`, `telnet` and `http`, each with its own flag. -/
def enabledService (s : Ptr) (set : Bool → PlatCfg → PlatCfg) : Parser PlatCfg Unit :=
  Parser.when s.isSome (do
    need (isObject s)
    need (optBool (getItem s "enable"))
    Parser.fill (set (isTrue (getItem s "enable"))))

def setEnabled (f : EnabledServices → EnabledServices) (c : PlatCfg) : PlatCfg :=
  { c with enabledServices := f c.enabledServices }

/-- `cfg_services_parse`. -/
def cfgServicesParse (services : Ptr) : Parser PlatCfg Unit := do
  let log := getItem services "log"
  Parser.when log.isSome (do
    need (isObject log)
    let l ← Parser.scratch {} (cfgServiceLogParse log)
    Parser.fill fun c => { c with logCfg := [l] })
  Parser.fill (setEnabled fun _ => {})
  enabledService (getItem services "ssh") fun b => setEnabled fun e => { e with ssh := b }
  enabledService (getItem services "telnet") fun b => setEnabled fun e => { e with telnet := b }
  enabledService (getItem services "http") fun b => setEnabled fun e => { e with http := b }

/-! ### `switch` -/

/-- `!x || !cJSON_GetNumberValue(x)`. -/
def noNumber (j : Ptr) : Bool := j.isNone || (getNumberValue j).isZero

/-- One turn of the loop over `radius`. A priority that is given takes the number of the port. -/
def radiusHost (iter : Json) : Parser PlatCfg Unit := do
  let host := getItem (some iter) "server-host"
  let port := getItem (some iter) "server-authentication-port"
  let key := getItem (some iter) "server-key"
  let prio := getItem (some iter) "server-priority"
  need (isObject (some iter))
  need (isString host)
  text (getStringValue host)
  Parser.fill fun c => { c with radiusHosts :=
    { hostname := cutBytes 63 (strOf host)
      authPort := if noNumber port then 1812 else (getNumberValue port).toUInt 16
      passkey := cutBytes 63 (strOf key)
      priority := if noNumber prio then 1 else (getNumberValue port).toUInt 8 } :: c.radiusHosts }

/-- `cfg_switch_ieee8021x_parse`. -/
def cfgSwitchIeee8021xParse (sw : Ptr) : Parser PlatCfg Unit := do
  let ieee8021x := getItem sw "ieee8021x"
  let radius := getItem ieee8021x "radius"
  Parser.when ieee8021x.isSome (do
    need (isObject ieee8021x)
    Parser.fill fun c =>
      { c with isAuthCtrlEnabled := isTrue (getItem ieee8021x "auth-control-enable") }
    need (optArray radius)
    forM (children radius) radiusHost)

/-- The values the STP instances start with. -/
def stpDefaults : StpInstance := ⟨false, 15, 2, 20, 32768⟩

/-- `!obj ? old : cJSON_GetNumberValue(obj)`, through an `int`, into 16 bits. -/
def stpValue (obj : Ptr) (old : ℕ) : ℕ :=
  if obj.isNone then old else ((getNumberValue obj).toInt % 65536).toNat

def stpId (iter : Json) : ℤ :=
  let obj := getItem (some iter) "id"
  if obj.isNone then 0 else (getNumberValue obj).toInt

/-- The instance that one element of `instances` describes, over the one it replaces. -/
def stpInstance (iter : Json) (old : StpInstance) : StpInstance :=
  let enabled := getItem (some iter) "enabled"
  { enabled := if enabled.isNone then old.enabled else isTrue enabled
    forwardDelay := stpValue (getItem (some iter) "forward_delay") old.forwardDelay
    helloTime := stpValue (getItem (some iter) "hello_time") old.helloTime
    maxAge := stpValue (getItem (some iter) "max_age") old.maxAge
    priority := stpValue (getItem (some iter) "priority") old.priority }

/-- The loop over `instances`, with the ids seen so far. -/
def stpInstancesGo (seen : Bitmap) : List Json → Parser PlatCfg Unit
  | [] => pure ()
  | iter :: iters => do
    let id := (stpId iter).toNat
    need (decide (0 ≤ stpId iter) && decide (stpId iter < maxVlans))
    need (!seen id)
    Parser.fill fun c => { c with
      stpInstances := Function.update c.stpInstances id (stpInstance iter (c.stpInstances id)) }
    stpInstancesGo (seen.setBit id) iters

/-- `cfg_ethernet_port_isolation_interface_parse`: the names go to the front of a list. -/
def cfgEthernetPortIsolationInterfaceParse (iface : Ptr) : Parser (List String) Unit := do
  let ifaceList := getItem iface "interface-list"
  need (isArray ifaceList && decide (getArraySize ifaceList ≠ 0))
  forM (children ifaceList) fun port => do
    need (isString (some port))
    copy (getStringValue (some port)) 32
    Parser.fill fun names => strOf (some port) :: names

/-- The loop over `sessions`, with the ids seen so far. -/
def isolationGo (seen : List ℕ) : List Json → Parser PlatCfg Unit
  | [] => pure ()
  | session :: sessions => do
    let id := (getNumberValue (getItem (some session) "id")).toUInt 64
    let up := getItem (some session) "uplink"
    let down := getItem (some session) "downlink"
    need (isNumber (getItem (some session) "id"))
    need (!seen.contains id)
    need (isObject up)
    need (isObject down)
    let uplink ← Parser.scratch [] (cfgEthernetPortIsolationInterfaceParse up)
    let downlink ← Parser.scratch [] (cfgEthernetPortIsolationInterfaceParse down)
    Parser.fill fun c => { c with portIsolation := c.portIsolation ++ [⟨id, uplink, downlink⟩] }
    isolationGo (seen ++ [id]) sessions

/-- `cfg_switch_port_isolation_parse`. -/
def cfgSwitchPortIsolationParse (portIsolation : Ptr) : Parser PlatCfg Unit := do
  let sessions := getItem portIsolation "sessions"
  need (isObject portIsolation)
  need (isArray sessions)
  isolationGo [] (children sessions)

/-- `cfg_switch_parse`. -/
def cfgSwitchParse (root : Ptr) : Parser PlatCfg Unit := do
  let sw := getItem root "switch"
  let loop := getItem sw "loop-detection"
  let protocol := getItem loop "protocol"
  let mode := protoStpModeToNum (strOf protocol)
  let portIsolation := getItem sw "port-isolation"
  cfgSwitchIeee8021xParse sw
  Parser.fill fun c => { c with stpMode := .none }
  Parser.when protocol.isSome (do
    need (isString protocol)
    text (getStringValue protocol)
    need mode.isSome
    Parser.fill fun c => { c with stpMode := mode.getD c.stpMode })
  Parser.fill fun c => { c with stpInstances := fun _ => stpDefaults }
  stpInstancesGo Bitmap.clear (children (getItem loop "instances"))
  Parser.when portIsolation.isSome (cfgSwitchPortIsolationParse portIsolation)

/-! ### `metrics` and `unit` -/

/-- One turn of the loop over the statistics `types`; what is no string is passed over. -/
def statisticsType (t : Json) : Parser MetricsCfg Unit :=
  Parser.when (isString (some t)) (do
    text (getStringValue (some t))
    Parser.fill fun m => { m with
      clientsEnabled := m.clientsEnabled || strOf (some t) == "clients"
      lldpEnabled := m.lldpEnabled || strOf (some t) == "lldp" })

/-- The check after `statistics` is read: state reports with clients only are switched off. -/
def dropClientsOnly (m : MetricsCfg) : MetricsCfg :=
  if m.stateEnabled && !m.lldpEnabled && m.clientsEnabled then
    { m with
      stateEnabled := false, lldpEnabled := false, clientsEnabled := false, stateInterval := 0
      maxMacCount := 0, publicIpLookup := "" }
  else m

/-- `cfg_metrics_parse`. -/
def cfgMetricsParse (metrics : Ptr) : Parser MetricsCfg Unit := do
  let statistics := getItem metrics "statistics"
  let interval := getItem statistics "interval"
  let types := getItem statistics "types"
  let maxMacCount := getItem statistics "wired-clients-max-num"
  let health := getItem (getItem metrics "health") "interval"
  Parser.fill fun _ => {}
  Parser.when (interval.isSome && types.isSome) (do
    forM (children types) statisticsType
    Parser.fill fun m => dropClientsOnly { m with
      stateInterval := (getNumberValue interval).toUInt 64
      stateEnabled := !(getNumberValue interval).isZero
      maxMacCount :=
        if isNumber maxMacCount then (getNumberValue maxMacCount).toUInt 32 else 2000 })
  Parser.when health.isSome
    (Parser.fill fun m => { m with
      healthInterval := (getNumberValue health).toUInt 64
      healthEnabled := !(getNumberValue health).isZero })

/-- `cfg_unit_parse`. The password is read from the value whatever its type; `strncpy` leaves one of
    64 bytes or more without its terminator. -/
def cfgUnitParse (unit : Ptr) : Parser PlatUnit Unit := do
  let poe := getItem unit "poe"
  let powerMgmt := getItem poe "power-management"
  let usageThreshold := getItem poe "usage-threshold"
  let password := getItem unit "system-password"
  let floodControl := getItem unit "unknown-multicast-flood-control"
  let querier := getItem unit "querier-enable"
  Parser.when (isString powerMgmt) (do
    copy (getStringValue powerMgmt) 32
    Parser.fill fun u => { u with powerMgmt := strOf powerMgmt, isPowerMgmtSet := true })
  Parser.when (isNumber usageThreshold)
    (Parser.fill fun u => { u with
      usageThreshold := (getNumberValue usageThreshold).toUInt 8, isUsageThresholdSet := true })
  Parser.when password.isSome (do
    copy (getStringValue password) 64
    Parser.fill fun u => { u with password := strOf password, passwordChanged := true })
  Parser.when floodControl.isSome
    (Parser.fill fun u => { u with mcFloodControl := isTrue floodControl })
  Parser.when querier.isSome
    (Parser.fill fun u => { u with querierEnable := isTrue querier })

/-! ### Routes -/

/-- The table being filled and the address in `node`, which keeps its bytes from route to route. -/
structure RouteFill where
  table : Table
  addr : InAddr

/-- `route_prefix_obj2node_key`: reading a prefix writes only the bytes that its text has. -/
def routePrefixObj2nodeKey (obj : Json) : Parser RouteFill Unit := do
  let addrStr := getItem (some obj) "prefix"
  need (isString addrStr)
  text (getStringValue addrStr)
  Parser.fill fun r => { r with addr := (inetNetPton (strOf addrStr).toList r.addr).2 }
  need (netWidth (strOf addrStr).toList).isSome

/-- `ucentral_router_fib_db_append(router, &node)`, whose result nobody looks at. -/
def appendRoute (obj : Json) (info : FibInfo) (r : RouteFill) : RouteFill :=
  let len := (netWidth (strOf (getItem (some obj) "prefix")).toList).getD 0
  { r with table := (fibDbAppend r.table ⟨⟨r.addr, len⟩, info⟩).getD r.table }

/-- A route that only has a prefix. -/
def plainRoute (info : FibInfo) (iter : Json) : Parser RouteFill Unit := do
  routePrefixObj2nodeKey iter
  Parser.fill (appendRoute iter info)

/-- A route through a gateway. -/
def gatewayRoute (vid : ℕ) (iter : Json) : Parser RouteFill Unit := do
  let nh := getItem (some iter) "nexthop"
  let gw := inetPton (strOf nh).toList
  routePrefixObj2nodeKey iter
  need (isString nh)
  text (getStringValue nh)
  need gw.isSome
  Parser.fill (appendRoute iter (.nh vid (gw.getD InAddr.zero)))

/-- `ipv4` of an interface, and the arrays below it, as the route parser finds them. -/
def gatewaysOf (interface : Json) : List Json :=
  children (getItemCI (getItemCI (some interface) "ipv4") "gateway")

def broadcastsOf (interface : Json) : List Json :=
  children (getItemCI (getItemCI (some interface) "ipv4") "broadcast")

/-- The routes of one interface; one without a VLAN is passed over. -/
def interfaceRoutes (interface : Json) : Parser RouteFill Unit :=
  let vid := cfgInterface2vid (some interface)
  Parser.when (decide (vid ≠ maxVlans)) (do
    forM (gatewaysOf interface) (gatewayRoute vid)
    forM (broadcastsOf interface) (plainRoute (.broadcast vid)))

def blackholesOf (root : Ptr) : List Json :=
  children (getItemCI (getItemCI root "globals") "ipv4-blackhole")

def unreachablesOf (root : Ptr) : List Json :=
  children (getItemCI (getItemCI root "globals") "ipv4-unreachable")

/-- `cfg_process_prefixes` on a table. -/
def cfgProcessPrefixes (root : Ptr) : Parser RouteFill Unit := do
  forM (blackholesOf root) (plainRoute .blackhole)
  forM (unreachablesOf root) (plainRoute .unreachable)
  forM (children (getItemCI root "interfaces")) interfaceRoutes

/-- `cfg_process_prefixes` without one only counts. -/
def cfgCountPrefixes (root : Ptr) : ℕ :=
  (blackholesOf root).length + (unreachablesOf root).length +
    ((children (getItemCI root "interfaces")).map fun interface =>
      if cfgInterface2vid (some interface) = maxVlans then 0
      else (gatewaysOf interface).length + (broadcastsOf interface).length).sum

/-- `cfg_router_parse`. -/
def cfgRouterParse (ports : Ports) (root : Ptr) : Parser PlatCfg Unit := do
  let filled ← Parser.scratch ⟨fibDbAlloc (cfgCountPrefixes root), ports.stack⟩
    (cfgProcessPrefixes root)
  Parser.fill fun c => { c with router := filled.table }

/-! ### The whole -/

/-- The ports of the platform, before the configuration says anything about them. -/
def platformPorts (ports : Ports) (c : PlatCfg) : PlatCfg :=
  ports.names.foldl (fun c name =>
    { c with
      ports := Function.update c.ports (ports.pid name)
        { c.ports (ports.pid name) with name := name, fpId := ports.pid name }
      portsToCfg := c.portsToCfg.setBit (ports.pid name) }) c

/-- `vlans[i].id = i` from the first VLAN on. -/
def numberVlans (c : PlatCfg) : PlatCfg :=
  { c with vlans := fun i =>
      if firstVlan ≤ i ∧ i < maxVlans then { c.vlans i with id := i } else c.vlans i }

/-- The sections that do not touch the VLAN array. -/
def inCfg (x : Parser PlatCfg Unit) : Parser Draft Unit :=
  Parser.within Draft.cfg (fun c => Draft.setCfg fun _ => c) x

def inMetrics (x : Parser MetricsCfg Unit) : Parser Draft Unit :=
  inCfg (Parser.within PlatCfg.metrics (fun m c => { c with metrics := m }) x)

def inUnit (x : Parser PlatUnit Unit) : Parser Draft Unit :=
  inCfg (Parser.within PlatCfg.unit (fun u c => { c with unit := u }) x)

/-- `cfg_parse`, on the structure that it allocates. -/
def cfgParse (ports : Ports) (config : Ptr) : Parser Draft Unit := do
  let ethernet := getItem config "ethernet"
  let interfaces := getItem config "interfaces"
  let services := getItem config "services"
  let metrics := getItem config "metrics"
  let unit := getItem config "unit"
  let lookup := getStringValue (getItem config "public_ip_lookup")
  need (isArray ethernet)
  need (isArray interfaces)
  need (optObject services)
  need (optObject metrics)
  need (optObject unit)
  need ports.list.isSome
  Parser.fill (Draft.setCfg fun c => numberVlans (platformPorts ports c))
  cfgEthernetParse ports ethernet
  cfgInterfacesParse ports interfaces
  inCfg (cfgSwitchParse config)
  Parser.when metrics.isSome (inMetrics (cfgMetricsParse metrics))
  Parser.when services.isSome (inCfg (cfgServicesParse services))
  Parser.when unit.isSome (inUnit (cfgUnitParse unit))
  inCfg (cfgRouterParse ports config)
  copy (some (lookup.getD "")) 2048
  inMetrics (Parser.fill fun m => { m with publicIpLookup := lookup.getD "" })

end Ucentral.Proto
