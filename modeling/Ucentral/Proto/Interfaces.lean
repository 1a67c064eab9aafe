import Ucentral.Proto.CfgChecks
import Ucentral.Proto.SelectOrder
import Ucentral.Proto.VlanIds
import Ucentral.Lib.Cells

/-! The order of `interfaces`, and what each of them fills in.

    An interface with a `vlan` fills the entry of its VLAN, and one without gives an address to the port
    it selects:

        [{vlan 10}, {vlan 20}, {Ethernet3}]     in any order, with the same result

    Both go through `select-ports`, where a string that is cut short stands for whatever is on the
    stack. -/

namespace Ucentral.Proto.Interfaces
open CJson Inet Router Plat Parse

/-! ### The parser, with its stack -/

/-- What is on the stack in the calls of `proto_port_name_to_num` for one interface: at an element of
    `ethernet`, after some entries of its `select-ports`, at an entry. -/
abbrev Stack := ℕ → List Json → Json → ℕ

/-- One static group; `strncpy` cuts a name at 32 bytes. -/
def igmpGroup (group : Json) : Parser PlatIgmp Unit := do
  let addr := getItem (some group) "address"
  let egress := getItem (some group) "egress-ports"
  need (isString addr && isArray egress)
  text (getStringValue addr)
  need (inetPton (strOf addr).toList).isSome
  forM (children egress) fun port => need (isString (some port))
  Parser.fill fun info => { info with groups := info.groups ++
    [⟨(inetPton (strOf addr).toList).getD InAddr.zero,
      ((children egress).map fun port => cutBytes 32 (strOf (some port))).reverse⟩] }

/-- `__cfg_vlan_interface_parse_multicast` on its `info`. -/
def igmpInfo (igmp : Ptr) : Parser PlatIgmp Unit := do
  let version := getItem igmp "version"
  let snooping := getItem igmp "snooping-enable"
  let querier := getItem igmp "querier-enable"
  let fastLeave := getItem igmp "fast-leave-enable"
  let query := getItem igmp "query-interval"
  let lastMember := getItem igmp "last-member-query-interval"
  let maxResponse := getItem igmp "max-response-time"
  let groups := getItem igmp "static-mcast-groups"
  let wanted := igmpVersionOf ((getNumberValue version).toUInt 32)
  Parser.when (isNumber version) (do
    need wanted.isSome
    Parser.fill fun info => { info with version := wanted.getD info.version })
  Parser.fill fun info => { info with
    snoopingEnabled := if isBool snooping then isTrue snooping else info.snoopingEnabled
    querierEnabled := if isBool querier then isTrue querier else info.querierEnabled
    fastLeaveEnabled := if isBool fastLeave then isTrue fastLeave else info.fastLeaveEnabled
    queryInterval :=
      if isNumber query then (getNumberValue query).toUInt 32 else info.queryInterval
    lastMemberQueryInterval :=
      if isNumber lastMember then (getNumberValue lastMember).toUInt 32
      else info.lastMemberQueryInterval
    maxResponseTime :=
      if isNumber maxResponse then (getNumberValue maxResponse).toUInt 32
      else info.maxResponseTime }
  Parser.when (isArray groups) (forM (children groups) igmpGroup)
  Parser.fill fun info => { info with exist := info.snoopingEnabled || info.querierEnabled }

/-- One turn of the loop over the members of a VLAN. -/
def vlanEthernet (ports : Ports) (junk : List Json → Json → ℕ) (vid : ℕ) (eth : Json) :
    Parser Draft Unit := do
  let tag := getItem (some eth) "vlan-tag"
  let sel ← Parser.scratch {}
    (cfgEthernetSelectPortsParseFrom ports junk (getItemCI (some eth) "select-ports"))
  need (decide (sel.num ≠ 0))
  text (getStringValue tag)
  need (protoVlanTaggedToNum (strOf tag)).isSome
  Parser.fill fun d => (sel.bmap.bitsSet maxNumOfPorts).foldl (fun d i =>
    setVlan vid (fun v => { v with members :=
      ⟨pidToName i, i, (protoVlanTaggedToNum (strOf tag)).getD false⟩ :: v.members }) d) d

/-- The addresses, multicast and relay settings of a VLAN. -/
def vlanIpv4 (vid : ℕ) (ipv4 : Ptr) : Parser Draft Unit := do
  let subnetList := getItem ipv4 "subnet"
  let igmp := getItem (getItem ipv4 "multicast") "igmp"
  let dhcp := getItem ipv4 "dhcp"
  Parser.when subnetList.isSome
    (Parser.within (fun d : Draft => (d.cfg.vlans vid).ipv4)
      (fun a => setVlan vid fun v => { v with ipv4 := a }) (cfgInterfaceParseIpv4 subnetList))
  Parser.when igmp.isSome (do
    let info ← Parser.scratch igmpDefaults (igmpInfo igmp)
    Parser.fill (setVlan vid fun v => { v with igmp := info }))
  Parser.when dhcp.isSome (vlanDhcp vid dhcp)

/-- The part of `cfg_vlan_interface_parse` that fills the VLAN. -/
def vlanBody (ports : Ports) (stack : Stack) (vid : ℕ) (interface : Ptr) : Parser Draft Unit := do
  let ipv4 := getItem interface "ipv4"
  forM (children (getItem interface "ethernet")).zipIdx fun e => vlanEthernet ports (stack e.2) vid e.1
  Parser.fill (setVlan vid fun v => { v with
    ipv4 := { v.ipv4 with exist := false }
    relay := { v.relay with enabled := false } })
  Parser.when ipv4.isSome (vlanIpv4 vid ipv4)

/-- `cfg_vlan_interface_parse`. -/
def cfgVlanInterfaceParse (ports : Ports) (stack : Stack) (interface : Ptr) : Parser Draft Unit := do
  let vid := cfgInterface2vid interface
  need (getItem interface "vlan").isSome
  need (decide (vid ≠ maxVlans))
  Parser.fill fun d =>
    { cfg := { d.cfg with vlansToCfg := d.cfg.vlansToCfg.setBit vid }
      vlanUse := d.vlanUse ++ [vid] }
  vlanBody ports stack vid interface

/-- The ports of an interface without a VLAN. -/
def portSelection (interface : Ptr) : Ptr :=
  getItemCI (getArrayItem (getItem interface "ethernet") 0) "select-ports"

/-- The first of the ports selected, the length of the bitmap if there is none. -/
def firstPort (sel : Selection) : ℕ := (sel.bmap.bitsSet maxNumOfPorts).headD maxNumOfPorts

/-- `cfg_port_interface_parse`. -/
def cfgPortInterfaceParse (ports : Ports) (stack : Stack) (interface : Ptr) : Parser Draft Unit := do
  let ethernet := getItem interface "ethernet"
  let ipv4 := getItem interface "ipv4"
  let subnetList := getItem ipv4 "subnet"
  need (getItem interface "vlan").isNone
  need (decide (getArraySize ethernet = 1))
  let sel ← Parser.scratch {}
    (cfgEthernetSelectPortsParseFrom ports (stack 0) (portSelection interface))
  need (decide (sel.num = 1))
  Parser.when (ipv4.isSome && subnetList.isSome)
    (Parser.within (fun d : Draft => d.cfg.portsl2 (firstPort sel))
      (fun v => Draft.setCfg fun c =>
        { c with portsl2 := Function.update c.portsl2 (firstPort sel) v })
      (cfgInterfaceParseIpv4 subnetList))

/-- One turn of the loop of `cfg_interfaces_parse`. -/
def interfaceTurn (ports : Ports) (stack : Stack) (interface : Json) : Parser Draft Unit :=
  Parser.orElse (cfgVlanInterfaceParse ports stack (some interface))
    (cfgPortInterfaceParse ports stack (some interface))

/-- `cfg_interfaces_parse`, with what is on the stack at each interface. -/
def cfgInterfacesParse (ports : Ports) (stackAt : ℕ → Stack) (interfaces : Ptr) : Parser Draft Unit :=
  forM (children interfaces).zipIdx fun e => interfaceTurn ports (stackAt e.2) e.1

/-! ### The same parser -/

/-- The names of the egress ports fit into their field. -/
def ShortNames (interface : Json) : Prop :=
  ∀ group ∈ children (getItem (getItem (getItem (getItem (some interface) "ipv4") "multicast") "igmp")
    "static-mcast-groups"), ∀ port ∈ children (getItem (some group) "egress-ports"),
    (strOf (some port)).utf8ByteSize < 32

theorem cutBytes_go_of_le : ∀ (n : ℕ) (cs : List Char), (String.ofList cs).utf8ByteSize ≤ n →
    cutBytes.go n cs = cs
  | _, [], _ => rfl
  | n, c :: cs, h => by
      have hsize : (String.ofList (c :: cs)).utf8ByteSize =
          c.utf8Size + (String.ofList cs).utf8ByteSize := by
        rw [String.ofList_cons, String.utf8ByteSize_append, String.utf8ByteSize_singleton]
      rw [hsize] at h
      rw [cutBytes.go, if_pos (by omega), cutBytes_go_of_le (n - c.utf8Size) cs (by omega)]

theorem cutBytes_of_le {n : ℕ} {s : String} (h : s.utf8ByteSize ≤ n) : cutBytes n s = s := by
  rw [cutBytes, cutBytes_go_of_le n s.toList (by rwa [String.ofList_toList]), String.ofList_toList]

/-- What fits is not cut, and copying it is no fault. -/
theorem igmpGroup_same {group : Json} (h : ∀ port ∈ children (getItem (some group) "egress-ports"),
    (strOf (some port)).utf8ByteSize < 32) : igmpGroup group = Proto.igmpGroup group := by
  have hname : ((children (getItem (some group) "egress-ports")).map fun port =>
      cutBytes 32 (strOf (some port))) =
      (children (getItem (some group) "egress-ports")).map fun port => strOf (some port) :=
    List.map_congr_left fun port hport => cutBytes_of_le (h port hport).le
  have hloop : forM (children (getItem (some group) "egress-ports")) (fun port =>
      (need (isString (some port)) : Parser PlatIgmp Unit)) =
      forM (children (getItem (some group) "egress-ports")) fun port => (do
        need (isString (some port))
        copy (getStringValue (some port)) 32) := by
    refine forM_congr _ fun port hport => funext fun info => ?_
    have hfits := h port hport
    cases port with
    | str s =>
      rw [need_bind]
      exact (if_pos (decide_eq_true hfits)).symm
    | _ => rfl
  rw [igmpGroup, Proto.igmpGroup, hname, hloop]

theorem vlanIpv4_same {interface : Json} (h : ShortNames interface) (vid : ℕ) :
    vlanIpv4 vid (getItem (some interface) "ipv4") =
      Proto.vlanIpv4 vid (getItem (some interface) "ipv4") := by
  have hgroups := forM_congr _ fun group hgroup => igmpGroup_same (h group hgroup)
  have hinfo : igmpInfo (getItem (getItem (getItem (some interface) "ipv4") "multicast") "igmp") =
      Proto.igmpInfo (getItem (getItem (getItem (some interface) "ipv4") "multicast") "igmp") := by
    rw [igmpInfo, Proto.igmpInfo, hgroups]
  rw [vlanIpv4, Proto.vlanIpv4, hinfo]

/-- Where the stack holds the same in every call, this is the parser. -/
theorem interfaceTurn_same (ports : Ports) {interface : Json} (h : ShortNames interface) :
    interfaceTurn ports (fun _ _ _ => ports.junk) interface =
      Parser.orElse (Proto.cfgVlanInterfaceParse ports (some interface))
        (Proto.cfgPortInterfaceParse ports (some interface)) := by
  have hloop : ∀ vid, forM (children (getItem (some interface) "ethernet")).zipIdx (fun e =>
      vlanEthernet ports (fun _ _ => ports.junk) vid e.1) =
      forM (children (getItem (some interface) "ethernet")) (Proto.vlanEthernet ports vid) := by
    refine fun vid => forM_zipIdx _ fun e _ => ?_
    rw [vlanEthernet, Proto.vlanEthernet, cfgEthernetSelectPortsParseFrom_const]
  have hvlan : cfgVlanInterfaceParse ports (fun _ _ _ => ports.junk) (some interface) =
      Proto.cfgVlanInterfaceParse ports (some interface) := by
    rw [cfgVlanInterfaceParse, Proto.cfgVlanInterfaceParse, vlanBody, Proto.vlanBody, hloop,
      vlanIpv4_same h]
  have hport : cfgPortInterfaceParse ports (fun _ _ _ => ports.junk) (some interface) =
      Proto.cfgPortInterfaceParse ports (some interface) := by
    rw [cfgPortInterfaceParse, cfgEthernetSelectPortsParseFrom_const]
    rfl
  rw [interfaceTurn, hvlan, hport]

theorem cfgInterfacesParse_same (ports : Ports) {is : List Json} (h : ∀ i ∈ is, ShortNames i) :
    cfgInterfacesParse ports (fun _ _ _ _ => ports.junk) (some (.arr is)) =
      Proto.cfgInterfacesParse ports (some (.arr is)) := by
  refine forM_zipIdx _ fun e he => interfaceTurn_same ports (h e.1 ?_)
  exact List.fst_mem_of_mem_zipIdx he

/-! ### What an interface fills in -/

/-- The entries of a configuration that are filled from `interfaces`. -/
inductive Entry
  | vlan (vid : ℕ)
  | port (i : ℕ)

/-- A VLAN is its bit and its settings, a port is its address. -/
def Entry.Content : Entry → Type
  | vlan _ => Bool × PlatVlan
  | port _ => PlatIpv4

def entries : Cells PlatCfg Entry Entry.Content where
  get
    | .vlan vid, c => (c.vlansToCfg vid, c.vlans vid)
    | .port i, c => c.portsl2 i
  set
    | .vlan vid, a, c =>
      { c with
        vlansToCfg := Function.update c.vlansToCfg vid a.1
        vlans := Function.update c.vlans vid a.2 }
    | .port i, a, c => { c with portsl2 := Function.update c.portsl2 i a }
  get_set
    | .vlan vid, a, c => Prod.ext (Function.update_self ..) (Function.update_self ..)
    | .port i, a, c => Function.update_self ..
  set_get
    | .vlan vid, c => by simp only [Function.update_eq_self]
    | .port i, c => by simp only [Function.update_eq_self]
  set_set
    | .vlan vid, a, b, c => by simp only [Function.update_idem]
    | .port _, _, _, c => congrArg (fun p => { c with portsl2 := p }) (Function.update_idem ..)
  get_set_ne := by
    intro k l hkl a c
    cases k with
    | vlan v =>
      cases l with
      | vlan w =>
        have hvw : v ≠ w := fun h => hkl (congrArg Entry.vlan h)
        exact Prod.ext (Function.update_of_ne hvw ..) (Function.update_of_ne hvw ..)
      | port j => rfl
    | port i =>
      cases l with
      | vlan w => rfl
      | port j => exact Function.update_of_ne (fun h => hkl (congrArg Entry.port h)) ..
  set_comm := by
    intro k l hkl a b c
    cases k with
    | vlan v =>
      cases l with
      | vlan w =>
        have hvw : v ≠ w := fun h => hkl (congrArg Entry.vlan h)
        simp only [Function.update_comm hvw]
      | port j => rfl
    | port i =>
      cases l with
      | vlan w => rfl
      | port j =>
        have hij : j ≠ i := fun h => hkl (congrArg Entry.port h.symm)
        exact congrArg (fun p => { c with portsl2 := p }) (Function.update_comm hij ..)

/-- A write to the settings of a VLAN. -/
def writeVlan (vid : ℕ) (f : PlatVlan → PlatVlan) : Function.End PlatCfg := fun c =>
  { c with vlans := Function.update c.vlans vid (f (c.vlans vid)) }

theorem writeVlan_mem (vid : ℕ) (f : PlatVlan → PlatVlan) :
    writeVlan vid f ∈ entries.writes (.vlan vid) := by
  refine ⟨fun a => (a.1, f a.2), fun c => ?_⟩
  simp only [writeVlan, entries, Function.update_eq_self]

theorem acts_setVlan (vid : ℕ) (f : PlatVlan → PlatVlan) :
    Acts Draft.cfg (entries.writes (.vlan vid)) True (Parser.fill (setVlan vid f)) :=
  acts_fill (writeVlan_mem vid f) fun _ => rfl

theorem setBit_eq_update (b : Bitmap) (k : ℕ) : b.setBit k = Function.update b k true := by
  funext i
  by_cases hi : i = k
  · rw [hi, Function.update_self, Bitmap.setBit, beq_self_eq_true, Bool.true_or]
  · rw [Function.update_of_ne hi, Bitmap.setBit, beq_eq_false_iff_ne.mpr hi, Bool.false_or]

theorem acts_setBit (vid : ℕ) :
    Acts Draft.cfg (entries.writes (.vlan vid)) True (Parser.fill fun d =>
      { cfg := { d.cfg with vlansToCfg := d.cfg.vlansToCfg.setBit vid }
        vlanUse := d.vlanUse ++ [vid] }) := by
  refine acts_fill (g := fun c => { c with vlansToCfg := c.vlansToCfg.setBit vid }) ?_ fun _ => rfl
  refine ⟨fun a => (true, a.2), fun c => ?_⟩
  simp only [entries, Function.update_eq_self, setBit_eq_update]

theorem foldl_setVlan (vid : ℕ) (f : ℕ → PlatVlan → PlatVlan) : ∀ l : List ℕ,
    ∃ g ∈ entries.writes (.vlan vid),
      ∀ d : Draft, (l.foldl (fun d i => setVlan vid (f i) d) d).cfg = g d.cfg
  | [] => ⟨1, Submonoid.one_mem _, fun _ => rfl⟩
  | i :: l => by
      obtain ⟨g, hg, hl⟩ := foldl_setVlan vid f l
      exact ⟨g * writeVlan vid (f i), Submonoid.mul_mem _ hg (writeVlan_mem vid (f i)),
        fun d => hl (setVlan vid (f i) d)⟩

/-- `select-ports` is accepted, and gives so many ports. -/
def Selects (ports : Ports) (junk : List Json → Json → ℕ) (selectPorts : Ptr) (n : ℕ) : Prop :=
  (cfgEthernetSelectPortsParseFrom ports junk selectPorts {}).1 = .ok () ∧
    (cfgEthernetSelectPortsParseFrom ports junk selectPorts {}).2.num = n

/-- The tag of a member. -/
def TagFits (eth : Json) : Prop :=
  (getStringValue (getItem (some eth) "vlan-tag")).isSome = true ∧
    (protoVlanTaggedToNum (strOf (getItem (some eth) "vlan-tag"))).isSome = true

def SubnetFits (subnetList : Ptr) : Prop :=
  isString (getItem (getArrayItem subnetList 0) "prefix") = true →
    (netWidth (strOf (getItem (getArrayItem subnetList 0) "prefix")).toList).isSome = true

def GroupFits (group : Json) : Prop :=
  isString (getItem (some group) "address") = true ∧
    isArray (getItem (some group) "egress-ports") = true ∧
    (inetPton (strOf (getItem (some group) "address")).toList).isSome = true ∧
    ∀ port ∈ children (getItem (some group) "egress-ports"), isString (some port) = true

def IgmpFits (igmp : Ptr) : Prop :=
  (isNumber (getItem igmp "version") = true →
    (igmpVersionOf ((getNumberValue (getItem igmp "version")).toUInt 32)).isSome = true) ∧
  (isArray (getItem igmp "static-mcast-groups") = true →
    ∀ group ∈ children (getItem igmp "static-mcast-groups"), GroupFits group)

def DhcpFits (dhcp : Ptr) : Prop :=
  isString (getItem dhcp "relay-server") = true ∧ isString (getItem dhcp "circuit-id-format") = true ∧
    0 < (netWidth (strOf (getItem dhcp "relay-server")).toList).getD 0

def Ipv4Fits (ipv4 : Ptr) : Prop :=
  ((getItem ipv4 "subnet").isSome = true → SubnetFits (getItem ipv4 "subnet")) ∧
  ((getItem (getItem ipv4 "multicast") "igmp").isSome = true →
    IgmpFits (getItem (getItem ipv4 "multicast") "igmp")) ∧
  ((getItem ipv4 "dhcp").isSome = true → DhcpFits (getItem ipv4 "dhcp"))

theorem judges_cfgInterfaceParseIpv4 (subnetList : Ptr) :
    Judges (SubnetFits subnetList) (cfgInterfaceParseIpv4 subnetList) := by
  refine judges_of_accepts fun v => ?_
  rw [ok_iff_of_follows (follows_cfgInterfaceParseIpv4 subnetList), ipv4Checks, SubnetFits]
  by_cases h : isString (getItem (getArrayItem subnetList 0) "prefix") = true
  · rw [if_pos h, forall_prop_of_true h]
    simp [outcome, Check.holds, Option.isSome_iff_ne_none]
  · rw [if_neg h]
    exact iff_of_true rfl fun h' => absurd h' h

/-- `need` with two conditions. -/
theorem acts_needs {σ τ : Type} {part : σ → τ} {F : Submonoid (Function.End τ)} (a b : Bool) :
    Acts part F (a = true ∧ b = true) (need (a && b)) :=
  (acts_need (a && b)).congr Bool.and_eq_true_iff

theorem judges_igmpGroup (group : Json) : Judges (GroupFits group) (igmpGroup group) := by
  refine Acts.congr (acts_bind (acts_needs _ _) (acts_bind (acts_text _) (acts_bind (acts_need _)
    (acts_bind (acts_forM _ fun port _ => acts_need _) (judges_fill _))))) ?_
  unfold GroupFits
  constructor
  · rintro ⟨⟨haddr, hegress⟩, -, hpton, hnames, -⟩
    exact ⟨haddr, hegress, hpton, hnames⟩
  · rintro ⟨haddr, hegress, hpton, hnames⟩
    exact ⟨⟨haddr, hegress⟩, haddr, hpton, hnames, trivial⟩

theorem judges_igmpInfo (igmp : Ptr) : Judges (IgmpFits igmp) (igmpInfo igmp) := by
  refine Acts.congr (acts_bind (acts_when fun _ => acts_bind (acts_need _) (judges_fill _))
    (acts_bind (judges_fill _) (acts_bind (acts_when fun _ => acts_forM _ fun group _ =>
      judges_igmpGroup group) (judges_fill _)))) ?_
  unfold IgmpFits
  constructor
  · rintro ⟨hversion, -, hgroups, -⟩
    exact ⟨fun h => (hversion h).1, hgroups⟩
  · rintro ⟨hversion, hgroups⟩
    exact ⟨fun h => ⟨hversion h, trivial⟩, trivial, hgroups, trivial⟩

theorem acts_vlanDhcp (vid : ℕ) (dhcp : Ptr) :
    Acts Draft.cfg (entries.writes (.vlan vid)) (DhcpFits dhcp) (vlanDhcp vid dhcp) := by
  refine Acts.congr (acts_bind (acts_shown _ _) (acts_bind (acts_text _) (acts_bind (acts_setVlan _ _)
    (acts_bind (acts_need _) (acts_bind (acts_text _) (acts_setVlan _ _)))))) ?_
  unfold DhcpFits
  constructor
  · rintro ⟨⟨hsrv, hcirc⟩, -, -, hwidth, -⟩
    exact ⟨hsrv, hcirc, of_decide_eq_true hwidth⟩
  · rintro ⟨hsrv, hcirc, hwidth⟩
    exact ⟨⟨hsrv, hcirc⟩, hsrv, trivial, decide_eq_true hwidth, hcirc, trivial⟩

theorem acts_vlanIpv4 (vid : ℕ) (ipv4 : Ptr) :
    Acts Draft.cfg (entries.writes (.vlan vid)) (Ipv4Fits ipv4) (vlanIpv4 vid ipv4) := by
  have hsubnet : Acts Draft.cfg (entries.writes (.vlan vid)) (SubnetFits (getItem ipv4 "subnet"))
      (Parser.within (fun d : Draft => (d.cfg.vlans vid).ipv4)
        (fun a => setVlan vid fun v => { v with ipv4 := a })
        (cfgInterfaceParseIpv4 (getItem ipv4 "subnet"))) :=
    acts_within (judges_cfgInterfaceParseIpv4 _).accepts (writeVlan_mem vid fun v =>
      { v with ipv4 := (cfgInterfaceParseIpv4 (getItem ipv4 "subnet") v.ipv4).2 }) fun _ => rfl
  have higmp := judges_igmpInfo (getItem (getItem ipv4 "multicast") "igmp")
  refine Acts.congr (acts_bind (acts_when fun _ => hsubnet) (acts_bind (acts_when fun _ =>
    acts_scratch_bind fun _ => acts_setVlan _ _) (acts_when fun _ => acts_vlanDhcp vid _))) ?_
  unfold Ipv4Fits
  constructor
  · rintro ⟨h1, h2, h3⟩
    exact ⟨h1, fun h => (higmp.accepts _).mp (h2 h).1, h3⟩
  · rintro ⟨h1, h2, h3⟩
    exact ⟨h1, fun h => ⟨(higmp.accepts _).mpr (h2 h), trivial⟩, h3⟩

theorem acts_vlanEthernet (ports : Ports) (junk : List Json → Json → ℕ) (vid : ℕ) (eth : Json) :
    Acts Draft.cfg (entries.writes (.vlan vid))
      ((∃ n, n ≠ 0 ∧ Selects ports junk (getItemCI (some eth) "select-ports") n) ∧ TagFits eth)
      (vlanEthernet ports junk vid eth) := by
  obtain ⟨g, hg, hfold⟩ := foldl_setVlan vid (fun i v => { v with members :=
    ⟨pidToName i, i, (protoVlanTaggedToNum (strOf (getItem (some eth) "vlan-tag"))).getD false⟩ ::
      v.members }) ((cfgEthernetSelectPortsParseFrom ports junk
        (getItemCI (some eth) "select-ports") {}).2.bmap.bitsSet maxNumOfPorts)
  refine Acts.congr (acts_scratch_bind fun _ => acts_bind (acts_need _) (acts_bind (acts_text _)
    (acts_bind (acts_need _) (acts_fill hg hfold)))) ?_
  constructor
  · rintro ⟨hok, hnum, htext, htag, -⟩
    exact ⟨⟨_, of_decide_eq_true hnum, hok, rfl⟩, htext, htag⟩
  · rintro ⟨⟨n, hn, hok, hnum⟩, htext, htag⟩
    exact ⟨hok, decide_eq_true (hnum.symm ▸ hn), htext, htag, trivial⟩

/-- An interface with a VLAN is accepted, where `gives` says which numbers of ports `select-ports` gives
    at an element of `ethernet`. -/
def VlanInterfaceFits (gives : ℕ → Ptr → ℕ → Prop) (interface : Ptr) : Prop :=
  cfgInterface2vid interface ≠ maxVlans ∧
  (∀ e ∈ (children (getItem interface "ethernet")).zipIdx,
    (∃ n, n ≠ 0 ∧ gives e.2 (getItemCI (some e.1) "select-ports") n) ∧ TagFits e.1) ∧
  ((getItem interface "ipv4").isSome = true → Ipv4Fits (getItem interface "ipv4"))

/-- An interface without a VLAN is accepted. -/
def PortInterfaceFits (gives : ℕ → Ptr → ℕ → Prop) (interface : Ptr) : Prop :=
  getArraySize (getItem interface "ethernet") = 1 ∧ gives 0 (portSelection interface) 1 ∧
  ((getItem interface "ipv4").isSome = true →
    (getItem (getItem interface "ipv4") "subnet").isSome = true →
    SubnetFits (getItem (getItem interface "ipv4") "subnet"))

def HasVlan (interface : Json) : Prop := (getItem (some interface) "vlan").isSome = true

instance (interface : Json) : Decidable (HasVlan interface) :=
  inferInstanceAs (Decidable ((getItem (some interface) "vlan").isSome = true))

def Fits (gives : ℕ → Ptr → ℕ → Prop) (interface : Json) : Prop :=
  if HasVlan interface then VlanInterfaceFits gives (some interface)
  else PortInterfaceFits gives (some interface)

/-- The numbers of ports with a stack. -/
def Stack.gives (ports : Ports) (stack : Stack) (k : ℕ) (selectPorts : Ptr) (n : ℕ) : Prop :=
  Selects ports (stack k) selectPorts n

/-- The entry that an interface fills. -/
def entryOf (ports : Ports) (stack : Stack) (interface : Json) : Entry :=
  if HasVlan interface then .vlan (cfgInterface2vid (some interface))
  else .port (firstPort
    (cfgEthernetSelectPortsParseFrom ports (stack 0) (portSelection (some interface)) {}).2)

theorem acts_cfgVlanInterfaceParse (ports : Ports) (stack : Stack) (interface : Json) :
    Acts Draft.cfg (entries.writes (.vlan (cfgInterface2vid (some interface))))
      (HasVlan interface ∧ VlanInterfaceFits (stack.gives ports) (some interface))
      (cfgVlanInterfaceParse ports stack (some interface)) := by
  refine Acts.congr (acts_bind (acts_need _) (acts_bind (acts_need _) (acts_bind (acts_setBit _)
    (acts_bind (acts_forM _ fun e _ => acts_vlanEthernet ports (stack e.2) _ e.1)
      (acts_bind (acts_setVlan _ _) (acts_when fun _ => acts_vlanIpv4 _ _)))))) ?_
  constructor
  · rintro ⟨hvlan, hvid, -, hmembers, -, hipv4⟩
    exact ⟨hvlan, of_decide_eq_true hvid, hmembers, hipv4⟩
  · rintro ⟨hvlan, hvid, hmembers, hipv4⟩
    exact ⟨hvlan, decide_eq_true hvid, trivial, hmembers, trivial, hipv4⟩

theorem acts_cfgPortInterfaceParse (ports : Ports) (stack : Stack) (interface : Json) :
    Acts Draft.cfg (entries.writes (.port (firstPort
        (cfgEthernetSelectPortsParseFrom ports (stack 0) (portSelection (some interface)) {}).2)))
      (¬ HasVlan interface ∧ PortInterfaceFits (stack.gives ports) (some interface))
      (cfgPortInterfaceParse ports stack (some interface)) := by
  have haddress : ∀ i subnetList, Acts Draft.cfg (entries.writes (.port i)) (SubnetFits subnetList)
      (Parser.within (fun d : Draft => d.cfg.portsl2 i)
        (fun v => Draft.setCfg fun c => { c with portsl2 := Function.update c.portsl2 i v })
        (cfgInterfaceParseIpv4 subnetList)) := fun i subnetList =>
    acts_within (g := fun c => { c with
        portsl2 := Function.update c.portsl2 i (cfgInterfaceParseIpv4 subnetList (c.portsl2 i)).2 })
      (judges_cfgInterfaceParseIpv4 subnetList).accepts
      ⟨fun v => (cfgInterfaceParseIpv4 subnetList v).2, fun _ => rfl⟩ fun _ => rfl
  refine Acts.congr (acts_bind (acts_need _) (acts_bind (acts_need _) (acts_scratch_bind fun _ =>
    acts_bind (acts_need _) (acts_when fun _ => haddress _ _)))) ?_
  unfold HasVlan PortInterfaceFits
  rw [Bool.not_eq_true, Option.isSome_eq_false_iff]
  constructor
  · rintro ⟨hvlan, hsize, hok, hnum, hsubnet⟩
    refine ⟨hvlan, of_decide_eq_true hsize, ⟨hok, of_decide_eq_true hnum⟩, fun h h' => hsubnet ?_⟩
    rw [h, h']
    rfl
  · rintro ⟨hvlan, hsize, ⟨hok, hnum⟩, hsubnet⟩
    refine ⟨hvlan, decide_eq_true hsize, hok, decide_eq_true hnum, fun h => ?_⟩
    rw [Bool.and_eq_true] at h
    exact hsubnet h.1 h.2

theorem cfgPortInterfaceParse_of_hasVlan {ports : Ports} {stack : Stack} {interface : Json}
    (h : HasVlan interface) (d : Draft) :
    cfgPortInterfaceParse ports stack (some interface) d = (.error .reject, d) := by
  rw [cfgPortInterfaceParse, need_bind, if_neg]
  rw [HasVlan] at h
  simp [Option.isSome_iff_ne_none.mp h]

theorem cfgVlanInterfaceParse_of_not_hasVlan {ports : Ports} {stack : Stack} {interface : Json}
    (h : ¬ HasVlan interface) (d : Draft) :
    cfgVlanInterfaceParse ports stack (some interface) d = (.error .reject, d) := by
  rw [cfgVlanInterfaceParse, need_bind]
  exact if_neg h

theorem acts_interfaceTurn (ports : Ports) (stack : Stack) (interface : Json) :
    Acts Draft.cfg (entries.writes (entryOf ports stack interface))
      (Fits (stack.gives ports) interface) (interfaceTurn ports stack interface) := by
  have hvlan := acts_cfgVlanInterfaceParse ports stack interface
  have hport := acts_cfgPortInterfaceParse ports stack interface
  unfold entryOf Fits interfaceTurn
  by_cases h : HasVlan interface
  · rw [if_pos h, if_pos h]
    refine acts_orElse_left (hvlan.congr (and_iff_right h)) fun d => ?_
    rw [cfgPortInterfaceParse_of_hasVlan h]
  · rw [if_neg h, if_neg h]
    exact acts_orElse_right (cfgVlanInterfaceParse_of_not_hasVlan h) (hport.congr (and_iff_right h))

/-! ### What cut strings stand for -/

section Cut

variable {ports : Ports}

theorem entryOutcome_of_end {j : Json} (h : entryEnd ports j = none) :
    ∃ k, entryOutcome ports j = some (.port k) := by
  rw [entryEnd] at h
  cases hout : entryOutcome ports j with
  | none => rw [hout] at h; cases h
  | some o =>
    rw [hout] at h
    cases o with
    | port k => exact ⟨k, rfl⟩
    | all => cases h
    | rejected => cases h

theorem entryOutcome_of_all {j : Json} (h : entryEnd ports j = some (.ok ())) :
    entryOutcome ports j = some .all := by
  rw [entryEnd] at h
  cases hout : entryOutcome ports j with
  | none => rw [hout] at h; cases h
  | some o =>
    rw [hout] at h
    cases o with
    | port k => cases h
    | all => rfl
    | rejected => cases h

/-- A string that is cut short is come to: all entries before it are ports. -/
def CutRead (ports : Ports) (ps : List Json) : Prop :=
  ∃ pre j post, ps = pre ++ j :: post ∧ CutShort j ∧
    ∀ e ∈ pre, ¬ CutShort e ∧ entryEnd ports e = none

theorem cutRead_of_cutShort {j : Json} (ps : List Json) (h : CutShort j) : CutRead ports (j :: ps) :=
  ⟨[], j, ps, rfl, h, nofun⟩

theorem CutRead.cons {j : Json} {ps : List Json} (hj : ¬ CutShort j) (hend : entryEnd ports j = none)
    (h : CutRead ports ps) : CutRead ports (j :: ps) := by
  obtain ⟨pre, e, post, rfl, he, hpre⟩ := h
  exact ⟨j :: pre, e, post, rfl, he, List.forall_mem_cons.mpr ⟨⟨hj, hend⟩, hpre⟩⟩

/-- Otherwise it is the same whatever is on the stack. -/
theorem selectPortsFrom_congr (junk junk' : List Json → Json → ℕ) : ∀ (ps seen seen' : List Json)
    (t : Selection), ¬ CutRead ports ps →
    selectPortsFrom ports junk seen ps t = selectPortsFrom ports junk' seen' ps t
  | [], _, _, _, _ => rfl
  | j :: ps, seen, seen', t, h => by
      have hj : ¬ CutShort j := fun hcut => h (cutRead_of_cutShort ps hcut)
      rw [selectPortsFrom_cons_outcome hj, selectPortsFrom_cons_outcome hj]
      cases hout : entryOutcome ports j with
      | none => rfl
      | some o =>
        cases o with
        | all => rfl
        | rejected => rfl
        | port k =>
          have hend : entryEnd ports j = none := by rw [entryEnd, hout]
          exact selectPortsFrom_congr junk junk' ps _ _ _ fun hcut => h (hcut.cons hj hend)

theorem cfgEthernetSelectPortsParseFrom_congr (junk junk' : List Json → Json → ℕ) {selectPorts : Ptr}
    (h : ¬ CutRead ports (children selectPorts)) :
    cfgEthernetSelectPortsParseFrom ports junk selectPorts =
      cfgEthernetSelectPortsParseFrom ports junk' selectPorts := by
  funext t
  rw [cfgEthernetSelectPortsParseFrom, cfgEthernetSelectPortsParseFrom, need_bind, need_bind,
    fill_bind, fill_bind, selectPortsFrom_congr junk junk' _ [] [] _ h]

/-- A port that no platform has. -/
theorem selectPortsFrom_refused : ∀ (pre seen : List Json) {j : Json} (post : List Json)
    (t : Selection), CutShort j → (∀ e ∈ pre, ¬ CutShort e ∧ entryEnd ports e = none) →
    (selectPortsFrom ports (fun _ _ => 100) seen (pre ++ j :: post) t).1 = .error .reject
  | [], _, _, _, _, hj, _ => (verdict_of_cutShort hj).2 rfl
  | e :: pre, seen, j, post, t, hj, hpre => by
      obtain ⟨⟨he, hend⟩, hpre⟩ := List.forall_mem_cons.mp hpre
      obtain ⟨k, hout⟩ := entryOutcome_of_end hend
      rw [List.cons_append, selectPortsFrom_cons_outcome he, hout]
      exact selectPortsFrom_refused pre _ post _ hj hpre

theorem not_selects_of_cutRead {selectPorts : Ptr} (h : CutRead ports (children selectPorts)) (n : ℕ) :
    ¬ Selects ports (fun _ _ => 100) selectPorts n := by
  obtain ⟨pre, j, post, hps, hj, hpre⟩ := h
  rintro ⟨hok, -⟩
  rw [cfgEthernetSelectPortsParseFrom, hps] at hok
  obtain ⟨-, heq⟩ := need_bind_ok hok
  rw [heq, fill_bind, selectPortsFrom_refused pre [] post _ hj hpre] at hok
  cases hok

/-- The numbers of ports that a list may give, with `m` ports so far: a string that is cut short is any
    port of the platform or all of them. -/
def MayGive (ports : Ports) : List Json → ℕ → ℕ → Prop
  | [], m, n => n = m
  | j :: ps, m, n =>
    ((CutShort j ∨ entryEnd ports j = some (.ok ())) ∧ n = ports.names.length) ∨
    ((CutShort j ∧ (∃ k, k < maxNumOfPorts ∧ ports.avail k = true) ∨
      ¬ CutShort j ∧ entryEnd ports j = none) ∧ MayGive ports ps (m + 1) n)

theorem selectPortsFrom_cons_cut {junk : List Json → Json → ℕ} {seen : List Json} {j : Json}
    {ps : List Json} {t : Selection} (hj : CutShort j) :
    selectPortsFrom ports junk seen (j :: ps) t =
      if junk seen j % 65536 = portIdSelectAllPorts then (.ok (),
        ⟨ports.names.foldl (fun b name => b.setBit (ports.pid name)) t.bmap, ports.names.length⟩)
      else if decide (junk seen j % 65536 < maxNumOfPorts) && ports.avail (junk seen j % 65536) then
        selectPortsFrom ports junk (seen ++ [j]) ps
          ⟨t.bmap.setBit (junk seen j % 65536), t.num + 1⟩
      else (.error .reject, t) := by
  obtain ⟨s, rfl, -⟩ := id hj
  rw [selectPortsFrom_cons, getStringValue_str]
  dsimp only
  rw [protoPortNameToNum_cutShort hj]

/-- What is on the stack gives one of these numbers. -/
theorem mayGive_of_ok {junk : List Json → Json → ℕ} : ∀ (ps seen : List Json) (t : Selection),
    (selectPortsFrom ports junk seen ps t).1 = .ok () →
    MayGive ports ps t.num (selectPortsFrom ports junk seen ps t).2.num
  | [], _, _, _ => rfl
  | j :: ps, seen, t, h => by
      by_cases hj : CutShort j
      · rw [selectPortsFrom_cons_cut hj] at h ⊢
        split at h
        · next hall =>
          rw [if_pos hall]
          exact Or.inl ⟨Or.inl hj, rfl⟩
        · next hall =>
          rw [if_neg hall]
          split at h
          · next htest =>
            rw [if_pos htest]
            rw [Bool.and_eq_true, decide_eq_true_iff] at htest
            exact Or.inr ⟨Or.inl ⟨hj, _, htest⟩, mayGive_of_ok ps _ _ h⟩
          · cases h
      · rw [selectPortsFrom_cons_outcome hj] at h ⊢
        cases hout : entryOutcome ports j with
        | none => rw [hout] at h; cases h
        | some o =>
          rw [hout] at h
          cases o with
          | all => exact Or.inl ⟨Or.inr (by rw [entryEnd, hout]), rfl⟩
          | rejected => cases h
          | port k => exact Or.inr ⟨Or.inr ⟨hj, by rw [entryEnd, hout]⟩, mayGive_of_ok ps _ _ h⟩

/-- Only what is on the stack from here on counts. -/
theorem selectPortsFrom_congr_length {v w : ℕ → ℕ} : ∀ (ps seen : List Json),
    (∀ k, seen.length ≤ k → v k = w k) →
    selectPortsFrom ports (fun s _ => v s.length) seen ps =
      selectPortsFrom ports (fun s _ => w s.length) seen ps
  | [], _, _ => rfl
  | j :: ps, seen, h => by
      have ih := selectPortsFrom_congr_length ps (seen ++ [j]) fun k hk => h k <| by
        rw [List.length_append] at hk
        omega
      rw [selectPortsFrom, selectPortsFrom, h _ le_rfl, ih]

/-- Each of these numbers is given with something on the stack. -/
theorem ok_of_mayGive : ∀ (ps seen : List Json) {m n : ℕ}, MayGive ports ps m n →
    ∃ v : ℕ → ℕ, ∀ t : Selection, t.num = m →
      (selectPortsFrom ports (fun s _ => v s.length) seen ps t).1 = .ok () ∧
      (selectPortsFrom ports (fun s _ => v s.length) seen ps t).2.num = n
  | [], _, _, _, h => ⟨fun _ => 0, fun _ ht => ⟨rfl, ht.trans h.symm⟩⟩
  | j :: ps, seen, m, n, h => by
      rcases h with ⟨hall, rfl⟩ | ⟨hport, hrest⟩
      · refine ⟨fun _ => portIdSelectAllPorts, fun t _ => ?_⟩
        by_cases hj : CutShort j
        · rw [selectPortsFrom_cons_cut hj]
          exact ⟨rfl, rfl⟩
        · rw [selectPortsFrom_cons_outcome hj, entryOutcome_of_all (hall.resolve_left hj)]
          exact ⟨rfl, rfl⟩
      · obtain ⟨v, hv⟩ := ok_of_mayGive ps (seen ++ [j]) hrest
        rcases hport with ⟨hj, k, hk, havail⟩ | ⟨hj, hend⟩
        · refine ⟨Function.update v seen.length k, fun t ht => ?_⟩
          have hmod : k % 65536 = k := Nat.mod_eq_of_lt (by unfold maxNumOfPorts at hk; omega)
          have hne : k ≠ portIdSelectAllPorts := by
            unfold maxNumOfPorts at hk
            unfold portIdSelectAllPorts
            omega
          have htest : (decide (k < maxNumOfPorts) && ports.avail k) = true := by
            rw [havail, decide_eq_true hk]
            rfl
          have hlater : ∀ l, (seen ++ [j]).length ≤ l → Function.update v seen.length k l = v l := by
            intro l hl
            rw [List.length_append, List.length_singleton] at hl
            exact Function.update_of_ne (by omega) ..
          rw [selectPortsFrom_cons_cut hj, Function.update_self, hmod, if_neg hne, if_pos htest,
            selectPortsFrom_congr_length ps _ hlater]
          exact hv _ (congrArg (· + 1) ht)
        · obtain ⟨k, hout⟩ := entryOutcome_of_end hend
          refine ⟨v, fun t ht => ?_⟩
          rw [selectPortsFrom_cons_outcome hj, hout]
          exact hv _ (congrArg (· + 1) ht)

/-- The numbers of ports that `select-ports` may give. -/
def MayGiveAt (ports : Ports) (_ : ℕ) (selectPorts : Ptr) (n : ℕ) : Prop :=
  ports.list.isSome = true ∧ MayGive ports (children selectPorts) 0 n

theorem exists_selects_iff (selectPorts : Ptr) (n k : ℕ) :
    (∃ junk, Selects ports junk selectPorts n) ↔ MayGiveAt ports k selectPorts n := by
  unfold Selects cfgEthernetSelectPortsParseFrom MayGiveAt
  constructor
  · rintro ⟨junk, hok, rfl⟩
    obtain ⟨hlist, heq⟩ := need_bind_ok hok
    rw [heq, fill_bind] at hok ⊢
    exact ⟨hlist, mayGive_of_ok _ _ _ hok⟩
  · rintro ⟨hlist, hgive⟩
    obtain ⟨v, hv⟩ := ok_of_mayGive _ [] hgive
    refine ⟨fun s _ => v s.length, ?_⟩
    rw [need_bind, if_pos hlist, fill_bind]
    exact hv {} rfl

/-! ### Interfaces with cut strings -/

/-- A string that is cut short is come to in some `select-ports` of the interface. -/
def ReadsCut (ports : Ports) (interface : Json) : Prop :=
  if HasVlan interface then ∃ eth ∈ children (getItem (some interface) "ethernet"),
    CutRead ports (children (getItemCI (some eth) "select-ports"))
  else CutRead ports (children (portSelection (some interface)))

theorem interfaceTurn_congr {interface : Json} (stack stack' : Stack) (h : ¬ ReadsCut ports interface) :
    interfaceTurn ports stack interface = interfaceTurn ports stack' interface := by
  unfold ReadsCut at h
  unfold interfaceTurn
  by_cases hvlan : HasVlan interface
  · rw [if_pos hvlan] at h
    have hport : cfgPortInterfaceParse ports stack (some interface) =
        cfgPortInterfaceParse ports stack' (some interface) := by
      funext d
      rw [cfgPortInterfaceParse_of_hasVlan hvlan, cfgPortInterfaceParse_of_hasVlan hvlan]
    have hloop : ∀ vid, (forM (children (getItem (some interface) "ethernet")).zipIdx fun e =>
        vlanEthernet ports (stack e.2) vid e.1) =
        forM (children (getItem (some interface) "ethernet")).zipIdx fun e =>
          vlanEthernet ports (stack' e.2) vid e.1 := by
      refine fun vid => forM_congr _ fun e he => ?_
      have hcut : ¬ CutRead ports (children (getItemCI (some e.1) "select-ports")) :=
        fun hcut => h ⟨e.1, List.fst_mem_of_mem_zipIdx he, hcut⟩
      rw [vlanEthernet, vlanEthernet, cfgEthernetSelectPortsParseFrom_congr _ (stack' e.2) hcut]
    rw [hport, cfgVlanInterfaceParse, cfgVlanInterfaceParse, vlanBody, vlanBody, hloop]
  · rw [if_neg hvlan] at h
    have hv : cfgVlanInterfaceParse ports stack (some interface) =
        cfgVlanInterfaceParse ports stack' (some interface) := by
      funext d
      rw [cfgVlanInterfaceParse_of_not_hasVlan hvlan, cfgVlanInterfaceParse_of_not_hasVlan hvlan]
    rw [hv, cfgPortInterfaceParse, cfgPortInterfaceParse,
      cfgEthernetSelectPortsParseFrom_congr _ (stack' 0) h]

theorem fits_mono {gives gives' : ℕ → Ptr → ℕ → Prop} {interface : Json}
    (h : ∀ k p n, gives k p n → gives' k p n) (hfits : Fits gives interface) :
    Fits gives' interface := by
  unfold Fits at hfits ⊢
  by_cases hvlan : HasVlan interface
  · rw [if_pos hvlan] at hfits ⊢
    obtain ⟨hvid, hmembers, hipv4⟩ := hfits
    refine ⟨hvid, fun e he => ?_, hipv4⟩
    obtain ⟨⟨n, hn, hgives⟩, htag⟩ := hmembers e he
    exact ⟨⟨n, hn, h _ _ _ hgives⟩, htag⟩
  · rw [if_neg hvlan] at hfits ⊢
    obtain ⟨hsize, hgives, hsubnet⟩ := hfits
    exact ⟨hsize, h _ _ _ hgives, hsubnet⟩

theorem fits_of_stack {stack : Stack} {interface : Json} (h : Fits (stack.gives ports) interface) :
    Fits (MayGiveAt ports) interface :=
  fits_mono (fun k p n hsel => (exists_selects_iff p n k).mp ⟨stack k, hsel⟩) h

/-- What may be accepted is accepted with something on the stack. -/
theorem exists_stack {interface : Json} (h : Fits (MayGiveAt ports) interface) :
    ∃ stack : Stack, Fits (stack.gives ports) interface := by
  unfold Fits at h ⊢
  by_cases hvlan : HasVlan interface
  · simp only [if_pos hvlan] at h ⊢
    obtain ⟨hvid, hmembers, hipv4⟩ := h
    have hjunk : ∀ k : ℕ, ∃ junk, ∀ eth : Json,
        (children (getItem (some interface) "ethernet"))[k]? = some eth →
        ∃ n, n ≠ 0 ∧ Selects ports junk (getItemCI (some eth) "select-ports") n := by
      intro k
      cases hk : (children (getItem (some interface) "ethernet"))[k]? with
      | none => exact ⟨fun _ _ => 0, nofun⟩
      | some eth =>
        obtain ⟨⟨n, hn, hgives⟩, -⟩ := hmembers (eth, k) (List.mem_zipIdx_iff_getElem?.mpr hk)
        obtain ⟨junk, hjunk⟩ := (exists_selects_iff _ n k).mpr hgives
        exact ⟨junk, fun eth' heq => Option.some.inj heq ▸ ⟨n, hn, hjunk⟩⟩
    choose stack hstack using hjunk
    refine ⟨stack, hvid, fun e he => ⟨?_, (hmembers e he).2⟩, hipv4⟩
    exact hstack e.2 e.1 (List.mem_zipIdx_iff_getElem?.mp he)
  · simp only [if_neg hvlan] at h ⊢
    obtain ⟨hsize, hgives, hsubnet⟩ := h
    obtain ⟨junk, hjunk⟩ := (exists_selects_iff _ 1 0).mpr hgives
    exact ⟨fun _ => junk, hsize, hjunk, hsubnet⟩

/-- And refused with something else, if a string that is cut short is come to. -/
theorem not_fits_of_readsCut {interface : Json} (h : ReadsCut ports interface) :
    ¬ Fits (Stack.gives ports fun _ _ _ => 100) interface := by
  unfold ReadsCut at h
  unfold Fits
  by_cases hvlan : HasVlan interface
  · rw [if_pos hvlan] at h ⊢
    rintro ⟨-, hmembers, -⟩
    obtain ⟨eth, heth, hcut⟩ := h
    obtain ⟨k, hk⟩ := List.mem_iff_getElem?.mp heth
    obtain ⟨⟨n, -, hgives⟩, -⟩ := hmembers (eth, k) (List.mem_zipIdx_iff_getElem?.mpr hk)
    exact not_selects_of_cutRead hcut n hgives
  · rw [if_neg hvlan] at h ⊢
    rintro ⟨-, hgives, -⟩
    exact not_selects_of_cutRead h 1 hgives

end Cut

/-! ### Any order -/

/-- `interfaces` is accepted, from a configuration of zeros. -/
def Accepted (ports : Ports) (stackAt : ℕ → Stack) (is : List Json) : Prop :=
  (cfgInterfacesParse ports stackAt (some (.arr is)) {}).1 = .ok ()

/-- And what is filled in. -/
def filled (ports : Ports) (stackAt : ℕ → Stack) (is : List Json) : PlatCfg :=
  (cfgInterfacesParse ports stackAt (some (.arr is)) {}).2.cfg

/-- The array is accepted if each interface is on its own, and then the same is filled in for each
    order, and in the entry of a VLAN what its interface alone makes of it. In each of these runs there
    may be anything on the stack. -/
def Independent (ports : Ports) (is : List Json) : Prop :=
  ∀ (stackAt : ℕ → Stack) (own : Json → Stack),
    (Accepted ports stackAt is ↔ ∀ i ∈ is, Accepted ports (fun _ => own i) [i]) ∧
    (Accepted ports stackAt is →
      (∀ (stackAt' : ℕ → Stack) (js : List Json), is.Perm js →
        Accepted ports stackAt' js ∧ filled ports stackAt' js = filled ports stackAt is) ∧
      ∀ i ∈ is, HasVlan i → (filled ports stackAt is).vlans (cfgInterface2vid (some i)) =
        (filled ports (fun _ => own i) [i]).vlans (cfgInterface2vid (some i)))

/-- The port of an interface without a VLAN, whatever is on the stack. -/
def NamesPort (ports : Ports) (interface : Json) (p : ℕ) : Prop :=
  ¬ HasVlan interface ∧ ∀ junk, Selects ports junk (portSelection (some interface)) 1 ∧
    firstPort (cfgEthernetSelectPortsParseFrom ports junk (portSelection (some interface)) {}).2 = p

/-- The ids are VLAN ids, and no two interfaces are about the same VLAN or the same port. -/
structure Apart (ports : Ports) (is : List Json) : Prop where
  ids : ∀ i ∈ is, HasVlan i → ∃ v, NamesVlan (some i) v
  vlans : is.Pairwise fun i j => ∀ v, NamesVlan (some i) v → ¬ NamesVlan (some j) v
  ports : is.Pairwise fun i j => ∀ p, NamesPort ports i p → ¬ NamesPort ports j p

section Runs

variable {ports : Ports} {is : List Json}

theorem accepted_iff (stackAt : ℕ → Stack) :
    Accepted ports stackAt is ↔ ∀ e ∈ is.zipIdx, Fits ((stackAt e.2).gives ports) e.1 :=
  (acts_forM is.zipIdx fun e _ =>
    (acts_interfaceTurn ports (stackAt e.2) e.1).judges).accepts {}

theorem fits_of_accepted {stackAt : ℕ → Stack} (h : Accepted ports stackAt is) {i : Json}
    (hi : i ∈ is) : ∃ k, Fits ((stackAt k).gives ports) i := by
  obtain ⟨k, hk⟩ := List.mem_iff_getElem?.mp hi
  exact ⟨k, (accepted_iff stackAt).mp h (i, k) (List.mem_zipIdx_iff_getElem?.mpr hk)⟩

theorem accepted_one_iff (stack : Stack) (i : Json) :
    Accepted ports (fun _ => stack) [i] ↔ Fits (stack.gives ports) i := by
  rw [accepted_iff]
  exact List.forall_mem_singleton

theorem cfgInterface2vid_of_namesVlan {interface : Ptr} {v : ℕ} (h : NamesVlan interface v) :
    cfgInterface2vid interface = v := by
  obtain ⟨hpos, hlt, hid⟩ := h
  have hzero : (v : ℚ) ≠ 0 := Nat.cast_ne_zero.mpr (by omega)
  have hge : ¬ (maxVlans : ℚ) ≤ (v : ℚ) := by
    rw [Nat.cast_le]
    omega
  have htrunc : (Double.fin (v : ℚ)).trunc = v := by simp [Double.trunc]
  rw [interface2vid_eq, hid, Double.isZero, Double.geNat, beq_eq_false_iff_ne.mpr hzero,
    decide_eq_false hge, Double.toUInt, htrunc, Bool.or_false, if_neg Bool.false_ne_true]
  unfold maxVlans at hlt
  omega

/-- Without cut strings the runs are those of one loop. -/
theorem run_eq (stackAt : ℕ → Stack) (h : ∀ i ∈ is, ¬ ReadsCut ports i) :
    cfgInterfacesParse ports stackAt (some (.arr is)) =
      forM is (interfaceTurn ports fun _ _ _ => 0) :=
  forM_zipIdx is fun e he =>
    interfaceTurn_congr _ _ (h e.1 (List.fst_mem_of_mem_zipIdx he))

theorem namesPort_of_fits {i : Json} (hcut : ¬ ReadsCut ports i) (hvlan : ¬ HasVlan i)
    (h : Fits (Stack.gives ports fun _ _ _ => 0) i) :
    ∃ p, NamesPort ports i p ∧ entryOf ports (fun _ _ _ => 0) i = .port p := by
  unfold ReadsCut at hcut
  unfold Fits at h
  rw [if_neg hvlan] at h hcut
  refine ⟨_, ⟨hvlan, fun junk => ?_⟩, if_neg hvlan⟩
  rw [Selects, cfgEthernetSelectPortsParseFrom_congr junk (fun _ _ => 0) hcut]
  exact ⟨h.2.1, rfl⟩

/-- The entries of accepted interfaces are different. -/
theorem pairwise_entryOf (hapart : Apart ports is) (hcut : ∀ i ∈ is, ¬ ReadsCut ports i)
    (h : ∀ i ∈ is, Fits (Stack.gives ports fun _ _ _ => 0) i) :
    is.Pairwise fun i j =>
      entryOf ports (fun _ _ _ => 0) i ≠ entryOf ports (fun _ _ _ => 0) j := by
  refine (hapart.vlans.and hapart.ports).imp_of_mem fun {i j} hi hj hne heq => ?_
  by_cases hvi : HasVlan i
  · obtain ⟨v, hv⟩ := hapart.ids i hi hvi
    have hei : entryOf ports (fun _ _ _ => 0) i = .vlan v := by
      rw [entryOf, if_pos hvi, cfgInterface2vid_of_namesVlan hv]
    by_cases hvj : HasVlan j
    · obtain ⟨w, hw⟩ := hapart.ids j hj hvj
      rw [hei, entryOf, if_pos hvj, cfgInterface2vid_of_namesVlan hw] at heq
      obtain rfl : v = w := Entry.vlan.inj heq
      exact hne.1 v hv hw
    · obtain ⟨p, -, hej⟩ := namesPort_of_fits (hcut j hj) hvj (h j hj)
      rw [hei, hej] at heq
      cases heq
  · obtain ⟨p, hp, hei⟩ := namesPort_of_fits (hcut i hi) hvi (h i hi)
    by_cases hvj : HasVlan j
    · rw [hei, entryOf, if_pos hvj] at heq
      cases heq
    · obtain ⟨q, hq, hej⟩ := namesPort_of_fits (hcut j hj) hvj (h j hj)
      rw [hei, hej] at heq
      obtain rfl : p = q := Entry.port.inj heq
      exact hne.2 p hp hq

theorem fits_congr (stack stack' : Stack) {i : Json} (h : ¬ ReadsCut ports i) :
    Fits (stack.gives ports) i ↔ Fits (stack'.gives ports) i := by
  rw [← (acts_interfaceTurn ports stack i).accepts {}, ← (acts_interfaceTurn ports stack' i).accepts {},
    interfaceTurn_congr stack stack' h]

/-- Where no string that is cut short is come to, the interfaces are independent. -/
theorem independent_of_apart (hapart : Apart ports is) (hcut : ∀ i ∈ is, ¬ ReadsCut ports i) :
    Independent ports is := by
  intro stackAt own
  have hloop : Accepted ports stackAt is ↔ ∀ i ∈ is, Fits (Stack.gives ports fun _ _ _ => 0) i := by
    rw [Accepted, run_eq stackAt hcut]
    exact (acts_forM is fun i _ => (acts_interfaceTurn ports _ i).judges).accepts {}
  have hone : (∀ i ∈ is, Accepted ports (fun _ => own i) [i]) ↔
      ∀ i ∈ is, Fits (Stack.gives ports fun _ _ _ => 0) i :=
    forall₂_congr fun i hi => (accepted_one_iff _ i).trans (fits_congr _ _ (hcut i hi))
  refine ⟨hloop.trans hone.symm, fun hacc => ?_⟩
  have hkey := pairwise_entryOf hapart hcut (hloop.mp hacc)
  have hok : (forM is (interfaceTurn ports fun _ _ _ => 0) {}).1 = .ok () := by
    rwa [Accepted, run_eq stackAt hcut] at hacc
  obtain ⟨hperm, hentry⟩ :=
    forM_apart (fun i _ => acts_interfaceTurn ports (fun _ _ _ => 0) i) hkey hok
  constructor
  · intro stackAt' js hp
    rw [Accepted, filled, filled, run_eq stackAt hcut,
      run_eq stackAt' fun i hi => hcut i (hp.mem_iff.mpr hi)]
    exact hperm js hp
  · intro i hi hvlan
    have hself : cfgInterfacesParse ports (fun _ => own i) (some (.arr [i])) {} =
        interfaceTurn ports (fun _ _ _ => 0) i {} := by
      rw [run_eq _ (List.forall_mem_singleton.mpr (hcut i hi)), List.forM_cons, List.forM_nil,
        bind_pure_unit]
    have hkeyi : entryOf ports (fun _ _ _ => 0) i = .vlan (cfgInterface2vid (some i)) := if_pos hvlan
    have hget := hentry i hi
    rw [hkeyi] at hget
    rw [filled, filled, run_eq stackAt hcut, hself]
    exact congrArg Prod.snd hget

/-- The interfaces are independent exactly if no string that is cut short is come to, or some interface
    is refused whatever such a string stands for. -/
theorem independent_iff (hapart : Apart ports is) :
    Independent ports is ↔
      (∀ i ∈ is, ¬ ReadsCut ports i) ∨ ∃ i ∈ is, ¬ Fits (MayGiveAt ports) i := by
  constructor
  · intro hind
    by_contra hnot
    push Not at hnot
    obtain ⟨⟨i, hi, hcut⟩, hfits⟩ := hnot
    have hown : ∀ j, ∃ stack : Stack, j ∈ is → Fits (stack.gives ports) j := by
      intro j
      by_cases hj : j ∈ is
      · obtain ⟨stack, hstack⟩ := exists_stack (hfits j hj)
        exact ⟨stack, fun _ => hstack⟩
      · exact ⟨fun _ _ _ => 0, fun h => absurd h hj⟩
    choose own hown using hown
    have hacc := (hind (fun _ _ _ _ => 100) own).1.mpr fun j hj =>
      (accepted_one_iff _ j).mpr (hown j hj)
    obtain ⟨k, hk⟩ := fits_of_accepted hacc hi
    exact not_fits_of_readsCut hcut hk
  · rintro (hcut | ⟨i, hi, hunfit⟩)
    · exact independent_of_apart hapart hcut
    · intro stackAt own
      have hno : ∀ stackAt, ¬ Accepted ports stackAt is := by
        intro stackAt hacc
        obtain ⟨k, hk⟩ := fits_of_accepted hacc hi
        exact hunfit (fits_of_stack hk)
      have hone : ¬ Accepted ports (fun _ => own i) [i] := fun hacc =>
        hunfit (fits_of_stack ((accepted_one_iff _ i).mp hacc))
      exact ⟨iff_of_false (hno _) fun h => hone (h i hi), fun h => absurd h (hno _)⟩

end Runs

/-! ### Runs -/

/-- A VLAN with one element of `ethernet`. -/
def vlanInterface (id : ℕ) (names : List String) : Json :=
  .obj [("vlan", .obj [("id", .num (.fin id))]),
    ("ethernet", .arr [.obj [("select-ports", .arr (names.map .str)), ("vlan-tag", .str "tagged")]])]

/-- A port with an address. -/
def portInterface (name address : String) : Json :=
  .obj [("ethernet", .arr [.obj [("select-ports", .arr [.str name])]]),
    ("ipv4", .obj [("subnet", .arr [.obj [("prefix", .str address)]])])]

theorem namesVlan_vlanInterface {id v : ℕ} {names : List String} :
    NamesVlan (some (vlanInterface id names)) v ↔ 1 ≤ v ∧ v < maxVlans ∧ id = v := by
  have hid : vlanIdOf (some (vlanInterface id names)) = .fin id := rfl
  rw [NamesVlan, hid, Double.fin.injEq, Nat.cast_inj]

theorem not_namesVlan_portInterface {name address : String} {v : ℕ} :
    ¬ NamesVlan (some (portInterface name address)) v := by
  rintro ⟨-, -, hid⟩
  cases hid

theorem not_namesPort_vlanInterface {ports : Ports} {id p : ℕ} {names : List String} :
    ¬ NamesPort ports (vlanInterface id names) p :=
  fun h => h.1 rfl

theorem not_cutRead_of_forall {ports : Ports} {ps : List Json} (h : ∀ j ∈ ps, ¬ CutShort j) :
    ¬ CutRead ports ps := by
  rintro ⟨pre, j, post, rfl, hj, -⟩
  exact h j (List.mem_append_right _ List.mem_cons_self) hj

theorem children_selectPorts (ps : List Json) (l : List (String × Json)) :
    children (getItemCI (some (.obj (("select-ports", .arr ps) :: l))) "select-ports") = ps := by
  simp [getItemCI]

/-- The name of a port is not cut short. -/
theorem not_cutShort_portName (k : UInt16) : ¬ CutShort (.str (portName k)) := by
  have hvalue : scanU "Ethernet".toList (portName k).toList = .value (k.toNat % 65536 % 2 ^ 32) := by
    refine scanU_value_iff.mpr ⟨_, _, toList_pidToName k.toNat, scanLu_print ?_, rfl⟩
    omega
  rintro ⟨s, hs, hcut⟩
  obtain rfl : portName k = s := Json.str.inj hs
  rw [scanU_eof_iff.mpr hcut] at hvalue
  cases hvalue

theorem twoVlans_independent : Independent (platform [1, 2, 3] 0 .zero)
    [vlanInterface 10 [portName 1], vlanInterface 20 [portName 2],
      portInterface (portName 3) "10.0.0.1/24"] := by
  refine (independent_iff ⟨?ids, ?vlans, ?ports⟩).mpr (Or.inl ?cut)
  case ids =>
    refine List.forall_mem_cons.mpr ⟨fun _ => ⟨10, namesVlan_vlanInterface.mpr (by decide)⟩, ?_⟩
    refine List.forall_mem_cons.mpr ⟨fun _ => ⟨20, namesVlan_vlanInterface.mpr (by decide)⟩, ?_⟩
    exact List.forall_mem_singleton.mpr nofun
  case vlans =>
    simp +contextual [namesVlan_vlanInterface, not_namesVlan_portInterface, eq_comm]
  case ports =>
    simp [not_namesPort_vlanInterface]
  case cut =>
    have hread : ∀ k : UInt16, ¬ CutRead (platform [1, 2, 3] 0 .zero) [.str (portName k)] := fun k =>
      not_cutRead_of_forall (List.forall_mem_singleton.mpr (not_cutShort_portName k))
    have hvlan : ∀ id k, ¬ ReadsCut (platform [1, 2, 3] 0 .zero) (vlanInterface id [portName k]) := by
      rintro id k ⟨eth, heth, hcut⟩
      rw [List.mem_singleton.mp heth, children_selectPorts] at hcut
      exact hread k hcut
    have hport : ∀ k address,
        ¬ ReadsCut (platform [1, 2, 3] 0 .zero) (portInterface (portName k) address) := by
      intro k address hcut
      have hlist : children (portSelection (some (portInterface (portName k) address))) =
          [.str (portName k)] := children_selectPorts _ []
      rw [ReadsCut, if_neg nofun, hlist] at hcut
      exact hread k hcut
    exact List.forall_mem_cons.mpr ⟨hvlan 10 1, List.forall_mem_cons.mpr ⟨hvlan 20 2,
      List.forall_mem_singleton.mpr (hport 3 _)⟩⟩

/-- A name that ends before its number is refused with one thing on the stack and accepted with
    another. -/
theorem cutName_dependent :
    Apart (platform [1] 0 .zero) [vlanInterface 10 ["Ethernet"]] ∧
    ¬ Independent (platform [1] 0 .zero) [vlanInterface 10 ["Ethernet"]] := by
  refine ⟨⟨?_, List.pairwise_singleton _ _, List.pairwise_singleton _ _⟩, fun hind => ?_⟩
  · intro i hi _
    rw [List.mem_singleton.mp hi]
    exact ⟨10, namesVlan_vlanInterface.mpr (by decide)⟩
  · have hone : Accepted (platform [1] 0 .zero) (fun _ _ _ _ => 1) [vlanInterface 10 ["Ethernet"]] := by
      unfold Accepted
      decide +kernel
    have hrefused : ¬ Accepted (platform [1] 0 .zero) (fun _ _ _ _ => 100)
        [vlanInterface 10 ["Ethernet"]] := by
      unfold Accepted
      decide +kernel
    exact hrefused ((hind (fun _ _ _ _ => 100) (fun _ _ _ _ => 1)).1.mpr
      (List.forall_mem_singleton.mpr hone))

end Ucentral.Proto.Interfaces
