import Ucentral.Plat.Cfg
import Ucentral.Lib.Json
import Ucentral.Lib.Parser

/-! `ethernet` and `interfaces`: the parts of a configuration that are about ports and VLANs.

    The parser reads the value through the accessors of cJSON and fills the structure as it goes. It
    takes the ports of the platform into account, to which the port names of the configuration
    refer. -/

namespace Ucentral.Proto
open CJson Inet Router Plat Parse

/-! ### Names and numbers -/

/-- The port list of the platform, unless fetching it fails, and what is on the stack: in an integer
    that `sscanf` did not store to, and in the address of a route before it is read. -/
structure Ports where
  list : Option (List String)
  junk : ℕ
  stack : InAddr

namespace Ports

def names (p : Ports) : List String := p.list.getD []

/-- `NAME_TO_PID` on a port of the platform. -/
def pid (p : Ports) (name : String) : ℕ := (nameToPid name).getD p.junk

/-- `plat_ports_avail`. -/
def avail (p : Ports) : Bitmap := p.names.foldl (fun b name => b.setBit (p.pid name)) Bitmap.clear

end Ports

/-- How `sscanf` with one conversion ends. -/
inductive Scan
  | value (n : ℕ)
  | eof
  | mismatch

/-- `sscanf(str, "<lit>%u")`. -/
def scanU : List Char → List Char → Scan
  | [], cs =>
    if cs.dropWhile isCSpace = [] then .eof
    else match scanLu cs with
      | none => .mismatch
      | some n => .value (n % 2 ^ 32)
  | _ :: _, [] => .eof
  | l :: ls, c :: cs => if l = c then scanU ls cs else .mismatch

/-- `PORT_ID_SELECT_ALL_PORTS`. -/
def portIdSelectAllPorts : ℕ := 255

/-- `proto_port_name_to_num`: a text that ends too early counts as read, with whatever number. -/
def protoPortNameToNum (junk : ℕ) (str : String) : Option ℕ :=
  if str = "Ethernet*" ∨ str = "eth*" then some portIdSelectAllPorts
  else match scanU "Ethernet".toList str.toList with
    | .value n => some (n % 65536)
    | .eof => some (junk % 65536)
    | .mismatch => none

/-- `proto_port_duplex_to_num`; an unknown one leaves the field at 0. -/
def protoPortDuplexToNum (str : String) : ℕ := if str = "full" then 1 else 0

/-- `proto_port_state_to_num`. -/
def protoPortStateToNum (enabled : Bool) : ℕ := if enabled then 1 else 0

/-- `proto_port_speed_to_num`; an unknown one leaves the field at 0. There is no 40000. -/
def protoPortSpeedToNum (val : Double) : ℕ :=
  if val.eqNat 10 then 0
  else if val.eqNat 100 then 1
  else if val.eqNat 1000 then 2
  else if val.eqNat 2500 then 3
  else if val.eqNat 5000 then 4
  else if val.eqNat 10000 then 5
  else if val.eqNat 25000 then 6
  else if val.eqNat 100000 then 8
  else 0

/-- `proto_vlan_tagged_to_num`: is the port tagged? -/
def protoVlanTaggedToNum (str : String) : Option Bool :=
  if str = "tagged" then some true else if str = "un-tagged" then some false else none

/-- `proto_stp_mode_to_num` on a string. -/
def protoStpModeToNum (str : String) : Option StpMode :=
  if str = "none" then some .none
  else if str = "stp" then some .stp
  else if str = "rstp" then some .rst
  else if str = "mstp" then some .mst
  else if str = "pvstp" then some .pvst
  else if str = "rpvstp" then some .rpvst
  else none

def controlModeOf (str : String) : Option PortControlMode :=
  if str = "force-authorized" then some .forceAuthorized
  else if str = "force-unauthorized" then some .forceUnauthorized
  else if str = "auto" then some .auto
  else none

def hostModeOf (str : String) : Option PortHostMode :=
  if str = "multi-auth" then some .multiAuth
  else if str = "multi-domain" then some .multiDomain
  else if str = "multi-host" then some .multiHost
  else if str = "single-host" then some .singleHost
  else none

/-- The characters that fit whole into `n` bytes, for copies that cut and terminate. The copies of the
    source cut at the byte, and also keep the first bytes of a character that does not fit; a `String`
    has no place for them. -/
def cutBytes (n : ℕ) (s : String) : String :=
  let rec go : ℕ → List Char → List Char
    | _, [] => []
    | room, c :: cs => if c.utf8Size ≤ room then c :: go (room - c.utf8Size) cs else []
  String.ofList (go n s.toList)

/-- `x && !cJSON_IsBool(x)` and the like reject; these are the shapes that pass. -/
def optBool (j : Ptr) : Bool := j.isNone || isBool j

def optString (j : Ptr) : Bool := j.isNone || isString j

def optNumber (j : Ptr) : Bool := j.isNone || isNumber j

def optObject (j : Ptr) : Bool := j.isNone || isObject j

def optArray (j : Ptr) : Bool := j.isNone || isArray j

/-- The string of a value that was seen to be one. -/
def strOf (j : Ptr) : String := (getStringValue j).getD ""

/-! ### Selecting ports -/

/-- The bitmap and the number that `cfg_ethernet_select_ports_parse` gives back. -/
structure Selection where
  bmap : Bitmap := Bitmap.clear
  num : ℕ := 0

/-- The loop over `select-ports`. A wildcard selects all ports of the platform and ends it. -/
def selectPortsGo (ports : Ports) : List Json → Parser Selection Unit
  | [] => pure ()
  | p :: ps => do
    text (getStringValue (some p))
    match protoPortNameToNum ports.junk (strOf (some p)) with
    | none => need false
    | some id =>
      if id = portIdSelectAllPorts then
        Parser.fill fun s =>
          ⟨ports.names.foldl (fun b name => b.setBit (ports.pid name)) s.bmap, ports.names.length⟩
      else do
        need (decide (id < maxNumOfPorts) && ports.avail id)
        Parser.fill fun s => ⟨s.bmap.setBit id, s.num + 1⟩
        selectPortsGo ports ps

/-- `cfg_ethernet_select_ports_parse`. -/
def cfgEthernetSelectPortsParse (ports : Ports) (selectPorts : Ptr) : Parser Selection Unit := do
  need ports.list.isSome
  Parser.fill fun _ => {}
  selectPortsGo ports (children selectPorts)

/-! ### `ethernet` -/

def setPoe (f : PortPoe → PortPoe) (p : PlatPort) : PlatPort := { p with poe := f p.poe }

def setDot1x (f : PortDot1x → PortDot1x) (p : PlatPort) : PlatPort := { p with dot1x := f p.dot1x }

/-- `cfg_ethernet_poe_parse`. -/
def cfgEthernetPoeParse (poe : Ptr) : Parser PlatPort Unit := do
  let adminMode := getItem poe "admin-mode"
  let doReset := getItem poe "do-reset"
  let detection := getItem poe "detection"
  let powerLimit := getItem poe "power-limit"
  let priority := getItem poe "priority"
  need (optBool adminMode)
  Parser.when adminMode.isSome
    (Parser.fill (setPoe fun p => { p with isAdminModeUp := isTrue adminMode }))
  need (optBool doReset)
  Parser.when doReset.isSome
    (Parser.fill (setPoe fun p => { p with doReset := isTrue doReset }))
  need (optString detection)
  Parser.when detection.isSome (do
    copy (getStringValue detection) 32
    Parser.fill (setPoe fun p =>
      { p with detectionMode := strOf detection, isDetectionModeSet := true }))
  need (optNumber powerLimit)
  Parser.when powerLimit.isSome
    (Parser.fill (setPoe fun p =>
      { p with powerLimit := (getNumberValue powerLimit).toUInt 32, isPowerLimitSet := true }))
  need (optString priority)
  Parser.when priority.isSome (do
    copy (getStringValue priority) 32
    Parser.fill (setPoe fun p => { p with priority := strOf priority, isPrioritySet := true }))

/-- `cfg_ethernet_ieee8021x_parse`. -/
def cfgEthernetIeee8021xParse (ieee8021x : Ptr) : Parser PlatPort Unit := do
  let isAuthenticator := getItem ieee8021x "is-authenticator"
  let authenticationMode := getItem ieee8021x "authentication-mode"
  let hostMode := getItem ieee8021x "host-mode"
  let guestVid := getItem ieee8021x "guest-vlan"
  let authFailVid := getItem ieee8021x "unauthenticated-vlan"
  let control := controlModeOf (strOf authenticationMode)
  let host := hostModeOf (strOf hostMode)
  Parser.fill (setDot1x fun _ => {})
  need (optBool isAuthenticator)
  Parser.when isAuthenticator.isSome
    (Parser.fill (setDot1x fun d => { d with isAuthenticator := isTrue isAuthenticator }))
  need (optString authenticationMode)
  Parser.when authenticationMode.isSome (do
    text (getStringValue authenticationMode)
    need control.isSome
    Parser.fill (setDot1x fun d => { d with controlMode := control.getD d.controlMode }))
  need (optString hostMode)
  Parser.when hostMode.isSome (do
    text (getStringValue hostMode)
    need host.isSome
    Parser.fill (setDot1x fun d => { d with hostMode := host.getD d.hostMode }))
  need (optNumber guestVid)
  Parser.when guestVid.isSome
    (Parser.fill (setDot1x fun d => { d with guestVid := (getNumberValue guestVid).toUInt 16 }))
  need (optNumber authFailVid)
  Parser.when authFailVid.isSome
    (Parser.fill (setDot1x fun d =>
      { d with authFailVid := (getNumberValue authFailVid).toUInt 16 }))

/-- The structure being filled, with a record of the indices at which the VLAN parser touched the
    VLAN array and its bitmap. -/
structure Draft where
  cfg : PlatCfg := {}
  vlanUse : List ℕ := []

def Draft.setCfg (f : PlatCfg → PlatCfg) (d : Draft) : Draft := { d with cfg := f d.cfg }

/-- The fields of `tmp_port` that do not depend on the port. -/
def ethernetPort (eth : Json) : Parser PlatPort Unit := do
  let poe := getItem (some eth) "poe"
  let ieee8021x := getItem (some eth) "ieee8021x"
  let duplex := getItem (some eth) "duplex"
  need (optObject poe)
  Parser.when poe.isSome (cfgEthernetPoeParse poe)
  need (optObject ieee8021x)
  Parser.when ieee8021x.isSome (cfgEthernetIeee8021xParse ieee8021x)
  text (getStringValue duplex)
  Parser.fill fun p => { p with
    duplex := protoPortDuplexToNum (strOf duplex)
    state := protoPortStateToNum (isTrue (getItem (some eth) "enabled"))
    speed := protoPortSpeedToNum (getNumberValue (getItem (some eth) "speed")) }

/-- Put the port settings at each selected port. -/
def placePort (port : PlatPort) (sel : Selection) (c : PlatCfg) : PlatCfg :=
  (sel.bmap.bitsSet maxNumOfPorts).foldl (fun c i =>
    { c with
      ports := Function.update c.ports i { port with name := pidToName i, fpId := i }
      portsToCfg := c.portsToCfg.setBit i }) c

/-- One turn of the loop of `cfg_ethernet_parse`. -/
def ethernetElem (ports : Ports) (eth : Json) : Parser Draft Unit := do
  let selectPorts := getItem (some eth) "select-ports"
  need (isString (getItem (some eth) "duplex") &&
    !(getNumberValue (getItem (some eth) "speed")).isZero && selectPorts.isSome)
  let port ← Parser.scratch {} (ethernetPort eth)
  let sel ← Parser.scratch {} (cfgEthernetSelectPortsParse ports selectPorts)
  need (decide (sel.num ≠ 0))
  Parser.fill (Draft.setCfg (placePort port sel))

/-- `cfg_ethernet_parse`. -/
def cfgEthernetParse (ports : Ports) (ethernet : Ptr) : Parser Draft Unit :=
  forM (children ethernet) (ethernetElem ports)

/-! ### `interfaces` -/

/-- `cfg_interface2vid`. -/
def cfgInterface2vid (interface : Ptr) : ℕ :=
  let id := getNumberValue (getItem (getItem interface "vlan") "id")
  if id.isZero || id.geNat maxVlans then maxVlans else id.toUInt 16

/-- `__cfg_interface_parse_ipv4`: only the first subnet is looked at. -/
def cfgInterfaceParseIpv4 (subnetList : Ptr) : Parser PlatIpv4 Unit := do
  let subnet := getItem (getArrayItem subnetList 0) "prefix"
  let res := inetNetPton (strOf subnet).toList InAddr.zero
  Parser.when (isString subnet) (do
    text (getStringValue subnet)
    Parser.fill fun v => { v with
      subnet := res.2
      subnetLen := match res.1 with
        | none => -1
        | some len => len }
    need res.1.isSome
    Parser.fill fun v => { v with exist := true })

/-- `cfg_port_interface_parse`. -/
def cfgPortInterfaceParse (ports : Ports) (interface : Ptr) : Parser Draft Unit := do
  let ethernet := getItem interface "ethernet"
  let selectPorts := getItemCI (getArrayItem ethernet 0) "select-ports"
  let ipv4 := getItem interface "ipv4"
  let subnetList := getItem ipv4 "subnet"
  need (getItem interface "vlan").isNone
  need (decide (getArraySize ethernet = 1))
  let sel ← Parser.scratch {} (cfgEthernetSelectPortsParse ports selectPorts)
  need (decide (sel.num = 1))
  -- `BITMAP_FIND_FIRST_BIT_SET` gives the length if there is none
  let i := (sel.bmap.bitsSet maxNumOfPorts).headD maxNumOfPorts
  Parser.when (ipv4.isSome && subnetList.isSome)
    (Parser.within (fun d : Draft => d.cfg.portsl2 i)
      (fun v => Draft.setCfg fun c => { c with portsl2 := Function.update c.portsl2 i v })
      (cfgInterfaceParseIpv4 subnetList))

/-- The values `info` starts with in `__cfg_vlan_interface_parse_multicast`. -/
def igmpDefaults : PlatIgmp :=
  { snoopingEnabled := true
    querierEnabled := false
    fastLeaveEnabled := false
    queryInterval := 60
    lastMemberQueryInterval := 60
    maxResponseTime := 10
    version := .v3 }

def igmpVersionOf : ℕ → Option IgmpVersion
  | 1 => some .v1
  | 2 => some .v2
  | 3 => some .v3
  | _ => none

/-- One static group. The egress ports are pushed to the front of a list; `strncpy` leaves a name of
    32 bytes or more without its terminator. -/
def igmpGroup (group : Json) : Parser PlatIgmp Unit := do
  let addr := getItem (some group) "address"
  let egress := getItem (some group) "egress-ports"
  need (isString addr && isArray egress)
  text (getStringValue addr)
  need (inetPton (strOf addr).toList).isSome
  forM (children egress) fun port => do
    need (isString (some port))
    copy (getStringValue (some port)) 32
  Parser.fill fun info => { info with groups := info.groups ++
    [⟨(inetPton (strOf addr).toList).getD InAddr.zero,
      ((children egress).map fun port => strOf (some port)).reverse⟩] }

/-- `__cfg_vlan_interface_parse_multicast` on its `info`. -/
def igmpInfo (igmp : Ptr) : Parser PlatIgmp Unit := do
  let version := getItem igmp "version"
  let snooping := getItem igmp "snooping-enable"
  let querier := getItem igmp "querier-enable"
  let fastLeave := getItem igmp "fast-leave-enable"
  let query := getItem igmp "query-interval"
  let lastMember := getItem igmp "last-member-query-interval"
  let maxResponse := getItem igmp "max-response-time"
  let groups := getItem igmp "static-mcast-groups"
  let wanted := igmpVersionOf ((getNumberValue version).toUInt 32)
  Parser.when (isNumber version) (do
    need wanted.isSome
    Parser.fill fun info => { info with version := wanted.getD info.version })
  Parser.fill fun info => { info with
    snoopingEnabled := if isBool snooping then isTrue snooping else info.snoopingEnabled
    querierEnabled := if isBool querier then isTrue querier else info.querierEnabled
    fastLeaveEnabled := if isBool fastLeave then isTrue fastLeave else info.fastLeaveEnabled
    queryInterval :=
      if isNumber query then (getNumberValue query).toUInt 32 else info.queryInterval
    lastMemberQueryInterval :=
      if isNumber lastMember then (getNumberValue lastMember).toUInt 32
      else info.lastMemberQueryInterval
    maxResponseTime :=
      if isNumber maxResponse then (getNumberValue maxResponse).toUInt 32
      else info.maxResponseTime }
  Parser.when (isArray groups) (forM (children groups) igmpGroup)
  Parser.fill fun info => { info with exist := info.snoopingEnabled || info.querierEnabled }

/-- Change the VLAN at an index, and note the index. -/
def setVlan (vid : ℕ) (f : PlatVlan → PlatVlan) (d : Draft) : Draft :=
  { cfg := { d.cfg with vlans := Function.update d.cfg.vlans vid (f (d.cfg.vlans vid)) }
    vlanUse := d.vlanUse ++ [vid] }

/-- One turn of the loop over the members of a VLAN. -/
def vlanEthernet (ports : Ports) (vid : ℕ) (eth : Json) : Parser Draft Unit := do
  let tag := getItem (some eth) "vlan-tag"
  let sel ← Parser.scratch {}
    (cfgEthernetSelectPortsParse ports (getItemCI (some eth) "select-ports"))
  need (decide (sel.num ≠ 0))
  text (getStringValue tag)
  need (protoVlanTaggedToNum (strOf tag)).isSome
  Parser.fill fun d => (sel.bmap.bitsSet maxNumOfPorts).foldl (fun d i =>
    setVlan vid (fun v => { v with members :=
      ⟨pidToName i, i, (protoVlanTaggedToNum (strOf tag)).getD false⟩ :: v.members }) d) d

/-- The relay of a VLAN. A server or circuit id that is no string goes into the message as it is. -/
def vlanDhcp (vid : ℕ) (dhcp : Ptr) : Parser Draft Unit := do
  let srv := getItem dhcp "relay-server"
  let circ := getItem dhcp "circuit-id-format"
  shown [getStringValue srv, getStringValue circ]
  text (getStringValue srv)
  Parser.fill (setVlan vid fun v => { v with relay := { v.relay with
    serverAddress := (inetNetPton (strOf srv).toList v.relay.serverAddress).2 } })
  need (decide (0 < (netWidth (strOf srv).toList).getD 0))
  text (getStringValue circ)
  Parser.fill (setVlan vid fun v => { v with relay := { v.relay with
    circId := if strOf circ = "{VLAN-ID}" then "%p"
      else if strOf circ = "{Interface}" then "%i" else "%h:%p"
    enabled := true } })

/-- The addresses, multicast and relay settings of a VLAN. -/
def vlanIpv4 (vid : ℕ) (ipv4 : Ptr) : Parser Draft Unit := do
  let subnetList := getItem ipv4 "subnet"
  let igmp := getItem (getItem ipv4 "multicast") "igmp"
  let dhcp := getItem ipv4 "dhcp"
  Parser.when subnetList.isSome
    (Parser.within (fun d : Draft => (d.cfg.vlans vid).ipv4)
      (fun a => setVlan vid fun v => { v with ipv4 := a }) (cfgInterfaceParseIpv4 subnetList))
  Parser.when igmp.isSome (do
    let info ← Parser.scratch igmpDefaults (igmpInfo igmp)
    Parser.fill (setVlan vid fun v => { v with igmp := info }))
  Parser.when dhcp.isSome (vlanDhcp vid dhcp)

/-- The part of `cfg_vlan_interface_parse` that fills the VLAN. -/
def vlanBody (ports : Ports) (vid : ℕ) (interface : Ptr) : Parser Draft Unit := do
  let ipv4 := getItem interface "ipv4"
  forM (children (getItem interface "ethernet")) (vlanEthernet ports vid)
  Parser.fill (setVlan vid fun v => { v with
    ipv4 := { v.ipv4 with exist := false }
    relay := { v.relay with enabled := false } })
  Parser.when ipv4.isSome (vlanIpv4 vid ipv4)

/-- `cfg_vlan_interface_parse`. -/
def cfgVlanInterfaceParse (ports : Ports) (interface : Ptr) : Parser Draft Unit := do
  let vid := cfgInterface2vid interface
  need (getItem interface "vlan").isSome
  need (decide (vid ≠ maxVlans))
  Parser.fill fun d =>
    { cfg := { d.cfg with vlansToCfg := d.cfg.vlansToCfg.setBit vid }
      vlanUse := d.vlanUse ++ [vid] }
  vlanBody ports vid interface

/-- `cfg_interfaces_parse`: an interface that is no VLAN is tried as a port. -/
def cfgInterfacesParse (ports : Ports) (interfaces : Ptr) : Parser Draft Unit :=
  forM (children interfaces) fun interface =>
    Parser.orElse (cfgVlanInterfaceParse ports (some interface))
      (cfgPortInterfaceParse ports (some interface))

end Ucentral.Proto
