import Ucentral.Proto.CfgParse

/-! What the parser checks of `ethernet` and `interfaces`, and which strings it uses unchecked.

    Most uses of a string come after a test that it is one. Some do not: an entry of `select-ports`
    and a `vlan-tag` are used without a test, and the PoE modes and the egress ports of a group are
    copied into a field without looking at their length. The strings of a relay are tested, but a
    missing one is put into the message that says so. Each function has its list of checks: the
    conditions it tests and the strings it uses untested, in the order of the source. -/

namespace Ucentral.Proto
open CJson Inet Router Plat Parse

/-! ### Ports -/

/-- Does the entry select all ports? -/
def selectsAll (ports : Ports) (p : Json) : Bool :=
  protoPortNameToNum ports.junk (strOf (some p)) == some portIdSelectAllPorts

/-- How many ports a list of good entries selects. -/
def selectedNum (ports : Ports) (selectPorts : Ptr) : ℕ :=
  if (children selectPorts).any (selectsAll ports) then ports.names.length
  else (children selectPorts).length

/-- The entries up to the first wildcard are looked at. -/
def entryChecks (ports : Ports) : List Json → List Check
  | [] => []
  | p :: ps => .text (getStringValue (some p)) none ::
    match protoPortNameToNum ports.junk (strOf (some p)) with
    | none => [.need false]
    | some id =>
      if id = portIdSelectAllPorts then []
      else .need (decide (id < maxNumOfPorts) && ports.avail id) :: entryChecks ports ps

def selectChecks (ports : Ports) (selectPorts : Ptr) : List Check :=
  .need ports.list.isSome :: entryChecks ports (children selectPorts)

theorem follows_selectPortsGo (ports : Ports) :
    ∀ ps : List Json, Follows (selectPortsGo ports ps) (entryChecks ports ps)
  | [] => follows_pure ()
  | p :: ps => by
      unfold selectPortsGo entryChecks
      refine follows_text_bind fun _ => ?_
      rcases protoPortNameToNum ports.junk (strOf (some p)) with _ | id
      · exact follows_need false
      · refine follows_ite (fun _ => follows_fill _) (fun _ => ?_)
        refine follows_need_bind fun _ => follows_fill_bind ?_
        exact follows_selectPortsGo ports ps

theorem follows_cfgEthernetSelectPortsParse (ports : Ports) (selectPorts : Ptr) :
    Follows (cfgEthernetSelectPortsParse ports selectPorts) (selectChecks ports selectPorts) :=
  follows_need_bind fun _ => follows_fill_bind (follows_selectPortsGo ports _)

/-- The number that comes back only depends on the entries. -/
theorem selectPortsGo_num (ports : Ports) : ∀ (ps : List Json) (s : Selection),
    (selectPortsGo ports ps s).1 = .ok () →
      (selectPortsGo ports ps s).2.num =
        if ps.any (selectsAll ports) then ports.names.length else s.num + ps.length
  | [], s, _ => rfl
  | p :: ps, s, h => by
      unfold selectPortsGo at h ⊢
      obtain ⟨_, _, heq⟩ := Parser.bind_ok h
      rw [heq] at h ⊢
      rw [text, pass_snd] at h ⊢
      rcases hp : protoPortNameToNum ports.junk (strOf (some p)) with _ | id
      · rw [hp] at h
        simp [need, Check.pass, Check.holds] at h
      · rw [hp] at h
        by_cases hid : id = portIdSelectAllPorts
        · have hall : selectsAll ports p = true := by simp [selectsAll, hp, hid]
          simp [hid, hall, Parser.fill]
        · have hall : selectsAll ports p = false := by simp [selectsAll, hp, hid]
          simp only [hid, if_false] at h ⊢
          obtain ⟨_, _, heq⟩ := Parser.bind_ok h
          rw [heq] at h ⊢
          obtain ⟨_, _, heq⟩ := Parser.bind_ok h
          rw [heq] at h ⊢
          rw [selectPortsGo_num ports ps _ h, need, pass_snd]
          simp only [Parser.fill, List.any_cons, hall, Bool.false_or, List.length_cons]
          congr 1
          omega

theorem cfgEthernetSelectPortsParse_num {ports : Ports} {selectPorts : Ptr} {s : Selection}
    (h : (cfgEthernetSelectPortsParse ports selectPorts s).1 = .ok ()) :
    (cfgEthernetSelectPortsParse ports selectPorts s).2.num = selectedNum ports selectPorts := by
  unfold cfgEthernetSelectPortsParse at h ⊢
  obtain ⟨_, _, heq⟩ := Parser.bind_ok h
  rw [heq] at h ⊢
  obtain ⟨_, _, heq⟩ := Parser.bind_ok h
  rw [heq] at h ⊢
  rw [selectPortsGo_num ports _ _ h]
  simp [selectedNum, Parser.fill]

/-- A selection, and a condition on how many ports it selects. -/
theorem follows_select_bind {σ : Type} {ports : Ports} {selectPorts : Ptr} (p : ℕ → Bool)
    {y : Selection → Unit → Parser σ Unit} {cs : List Check} (hy : ∀ sel, Follows (y sel ()) cs) :
    Follows (Parser.scratch {} (cfgEthernetSelectPortsParse ports selectPorts) >>= fun sel =>
        need (p sel.num) >>= y sel)
      (selectChecks ports selectPorts ++ .need (p (selectedNum ports selectPorts)) :: cs) := by
  refine follows_scratch_bind (follows_cfgEthernetSelectPortsParse ports selectPorts) fun h => ?_
  rw [cfgEthernetSelectPortsParse_num h]
  exact follows_need_bind fun _ => hy _

/-! ### `ethernet` -/

def poeChecks (poe : Ptr) : List Check :=
  let detection := getItem poe "detection"
  let priority := getItem poe "priority"
  .need (optBool (getItem poe "admin-mode")) ::
  .need (optBool (getItem poe "do-reset")) ::
  .need (optString detection) ::
  (if detection.isSome then [.text (getStringValue detection) (some 32)] else []) ++
  .need (optNumber (getItem poe "power-limit")) ::
  .need (optString priority) ::
  (if priority.isSome then [.text (getStringValue priority) (some 32)] else [])

def dot1xChecks (ieee8021x : Ptr) : List Check :=
  let mode := getItem ieee8021x "authentication-mode"
  let host := getItem ieee8021x "host-mode"
  .need (optBool (getItem ieee8021x "is-authenticator")) ::
  .need (optString mode) ::
  (if mode.isSome then [.need (controlModeOf (strOf mode)).isSome] else []) ++
  .need (optString host) ::
  (if host.isSome then [.need (hostModeOf (strOf host)).isSome] else []) ++
  .need (optNumber (getItem ieee8021x "guest-vlan")) ::
  [.need (optNumber (getItem ieee8021x "unauthenticated-vlan"))]

def portChecks (eth : Json) : List Check :=
  let poe := getItem (some eth) "poe"
  let ieee8021x := getItem (some eth) "ieee8021x"
  .need (optObject poe) ::
  (if poe.isSome then poeChecks poe else []) ++
  .need (optObject ieee8021x) ::
  (if ieee8021x.isSome then dot1xChecks ieee8021x else [])

def ethernetChecks (ports : Ports) (eth : Json) : List Check :=
  let selectPorts := getItem (some eth) "select-ports"
  .need (isString (getItem (some eth) "duplex") &&
    !(getNumberValue (getItem (some eth) "speed")).isZero && selectPorts.isSome) ::
  portChecks eth ++
  selectChecks ports selectPorts ++ [.need (decide (selectedNum ports selectPorts ≠ 0))]

theorem isString_of_optString {j : Ptr} (h : optString j = true) (hj : j.isSome = true) :
    (getStringValue j).isSome = true := by
  obtain ⟨v, rfl⟩ := Option.isSome_iff_exists.mp hj
  simpa [optString, isString] using h

theorem follows_cfgEthernetPoeParse (poe : Ptr) :
    Follows (cfgEthernetPoeParse poe) (poeChecks poe) := by
  unfold cfgEthernetPoeParse poeChecks
  simp only [List.cons_append]
  refine follows_need_bind fun _ => follows_optFill_bind ?_
  refine follows_need_bind fun _ => follows_optFill_bind ?_
  refine follows_need_bind fun _ => ?_
  refine follows_bind (follows_when fun _ => follows_copy_bind (follows_fill _)) fun _ => ?_
  refine follows_need_bind fun _ => follows_optFill_bind ?_
  refine follows_need_bind fun _ => ?_
  exact follows_when fun _ => follows_copy_bind (follows_fill _)

theorem follows_cfgEthernetIeee8021xParse (ieee8021x : Ptr) :
    Follows (cfgEthernetIeee8021xParse ieee8021x) (dot1xChecks ieee8021x) := by
  unfold cfgEthernetIeee8021xParse dot1xChecks
  simp only [List.cons_append, List.append_assoc]
  refine follows_fill_bind (follows_need_bind fun _ => follows_optFill_bind ?_)
  refine follows_need_bind fun hmode => follows_bind (follows_when fun hsome => ?_) fun _ => ?_
  · refine follows_known_bind (isString_of_optString hmode hsome) ?_
    exact follows_need_bind fun _ => follows_fill _
  refine follows_need_bind fun hhost => follows_bind (follows_when fun hsome => ?_) fun _ => ?_
  · refine follows_known_bind (isString_of_optString hhost hsome) ?_
    exact follows_need_bind fun _ => follows_fill _
  refine follows_need_bind fun _ => follows_optFill_bind ?_
  refine follows_need_bind fun _ => ?_
  exact follows_when_silent fun _ => follows_fill _

theorem follows_ethernetPort {eth : Json} (h : isString (getItem (some eth) "duplex") = true) :
    Follows (ethernetPort eth) (portChecks eth) := by
  unfold ethernetPort portChecks
  simp only [List.cons_append]
  refine follows_need_bind fun _ => ?_
  refine follows_bind (follows_when fun _ => follows_cfgEthernetPoeParse _) fun _ => ?_
  refine follows_need_bind fun _ => ?_
  refine follows_bind_silent (follows_when fun _ => follows_cfgEthernetIeee8021xParse _) fun _ => ?_
  exact follows_known_bind h (follows_fill _)

theorem follows_ethernetElem (ports : Ports) (eth : Json) :
    Follows (ethernetElem ports eth) (ethernetChecks ports eth) := by
  unfold ethernetElem ethernetChecks
  simp only [List.cons_append, List.append_assoc]
  refine follows_need_bind fun hshape => ?_
  simp only [Bool.and_eq_true] at hshape
  refine follows_scratch_bind (follows_ethernetPort hshape.1.1) fun _ => ?_
  exact follows_select_bind (fun n => decide (n ≠ 0)) fun _ => follows_fill _

/-! ### `interfaces` -/

def ipv4Checks (subnetList : Ptr) : List Check :=
  let subnet := getItem (getArrayItem subnetList 0) "prefix"
  if isString subnet then [.need (netWidth (strOf subnet).toList).isSome] else []

def portInterfaceChecks (ports : Ports) (interface : Ptr) : List Check :=
  let ethernet := getItem interface "ethernet"
  let selectPorts := getItemCI (getArrayItem ethernet 0) "select-ports"
  let subnetList := getItem (getItem interface "ipv4") "subnet"
  .need (getItem interface "vlan").isNone ::
  .need (decide (getArraySize ethernet = 1)) ::
  selectChecks ports selectPorts ++
  .need (decide (selectedNum ports selectPorts = 1)) ::
  (if subnetList.isSome then ipv4Checks subnetList else [])

/-- The name of a port that is copied. -/
def portNameChecks (port : Json) : List Check :=
  [.need (isString (some port)), .text (getStringValue (some port)) (some 32)]

def groupChecks (group : Json) : List Check :=
  let addr := getItem (some group) "address"
  let egress := getItem (some group) "egress-ports"
  .need (isString addr && isArray egress) ::
  .need (inetPton (strOf addr).toList).isSome ::
  (children egress).flatMap portNameChecks

def igmpChecks (igmp : Ptr) : List Check :=
  let version := getItem igmp "version"
  let groups := getItem igmp "static-mcast-groups"
  (if isNumber version then
    [.need (igmpVersionOf ((getNumberValue version).toUInt 32)).isSome] else []) ++
  (if isArray groups then (children groups).flatMap groupChecks else [])

def memberChecks (ports : Ports) (eth : Json) : List Check :=
  let tag := getItem (some eth) "vlan-tag"
  let selectPorts := getItemCI (some eth) "select-ports"
  selectChecks ports selectPorts ++
  .need (decide (selectedNum ports selectPorts ≠ 0)) ::
  .text (getStringValue tag) none ::
  [.need (protoVlanTaggedToNum (strOf tag)).isSome]

def dhcpChecks (dhcp : Ptr) : List Check :=
  let srv := getItem dhcp "relay-server"
  [.shown [getStringValue srv, getStringValue (getItem dhcp "circuit-id-format")],
    .need (decide (0 < (netWidth (strOf srv).toList).getD 0))]

def vlanIpv4Checks (ipv4 : Ptr) : List Check :=
  let subnetList := getItem ipv4 "subnet"
  let igmp := getItem (getItem ipv4 "multicast") "igmp"
  let dhcp := getItem ipv4 "dhcp"
  (if subnetList.isSome then ipv4Checks subnetList else []) ++
  (if igmp.isSome then igmpChecks igmp else []) ++
  (if dhcp.isSome then dhcpChecks dhcp else [])

def vlanInterfaceChecks (ports : Ports) (interface : Ptr) : List Check :=
  let ipv4 := getItem interface "ipv4"
  .need (getItem interface "vlan").isSome ::
  .need (decide (cfgInterface2vid interface ≠ maxVlans)) ::
  (children (getItem interface "ethernet")).flatMap (memberChecks ports) ++
  (if ipv4.isSome then vlanIpv4Checks ipv4 else [])

/-- An interface with a VLAN is only a VLAN, one without only a port. -/
def interfaceChecks (ports : Ports) (interface : Json) : List Check :=
  if (getItem (some interface) "vlan").isSome then vlanInterfaceChecks ports (some interface)
  else portInterfaceChecks ports (some interface)

theorem follows_cfgInterfaceParseIpv4 (subnetList : Ptr) :
    Follows (cfgInterfaceParseIpv4 subnetList) (ipv4Checks subnetList) := by
  unfold cfgInterfaceParseIpv4 ipv4Checks
  simp only [inetNetPton_fst]
  refine follows_when fun h => follows_known_bind h (follows_fill_bind ?_)
  exact follows_need_bind fun _ => follows_fill _

theorem follows_cfgPortInterfaceParse (ports : Ports) (interface : Ptr) :
    Follows (cfgPortInterfaceParse ports interface) (portInterfaceChecks ports interface) := by
  unfold cfgPortInterfaceParse portInterfaceChecks
  simp only [List.cons_append]
  refine follows_need_bind fun _ => follows_need_bind fun _ => ?_
  refine follows_select_bind (fun n => decide (n = 1)) fun _ => ?_
  have hsome : ((getItem interface "ipv4").isSome &&
      (getItem (getItem interface "ipv4") "subnet").isSome) =
      (getItem (getItem interface "ipv4") "subnet").isSome := by
    cases getItem interface "ipv4" <;> simp
  rw [hsome]
  exact follows_when fun _ => follows_within (follows_cfgInterfaceParseIpv4 _)

theorem follows_igmpGroup (group : Json) : Follows (igmpGroup group) (groupChecks group) := by
  unfold igmpGroup groupChecks
  refine follows_need_bind fun h => ?_
  simp only [Bool.and_eq_true] at h
  refine follows_known_bind h.1 (follows_need_bind fun _ => ?_)
  refine follows_bind_silent (follows_forM _ fun port _ => ?_) fun _ => follows_fill _
  exact follows_need_bind fun _ => follows_copy _ _

theorem follows_igmpInfo (igmp : Ptr) : Follows (igmpInfo igmp) (igmpChecks igmp) := by
  unfold igmpInfo igmpChecks
  refine follows_bind (follows_when fun _ => follows_need_bind fun _ => follows_fill _) fun _ => ?_
  refine follows_fill_bind ?_
  refine follows_bind_silent (follows_when fun _ => ?_) fun _ => follows_fill _
  exact follows_forM _ fun group _ => follows_igmpGroup group

theorem follows_vlanEthernet (ports : Ports) (vid : ℕ) (eth : Json) :
    Follows (vlanEthernet ports vid eth) (memberChecks ports eth) := by
  unfold vlanEthernet memberChecks
  refine follows_select_bind (fun n => decide (n ≠ 0)) fun _ => ?_
  exact follows_text_bind fun _ => follows_need_bind fun _ => follows_fill _

theorem follows_vlanDhcp (vid : ℕ) (dhcp : Ptr) : Follows (vlanDhcp vid dhcp) (dhcpChecks dhcp) := by
  unfold vlanDhcp dhcpChecks
  refine follows_shown_bind fun h => ?_
  refine follows_known_bind (h _ (by simp)) (follows_fill_bind (follows_need_bind fun _ => ?_))
  exact follows_known_bind (h _ (by simp)) (follows_fill _)

theorem follows_vlanIpv4 (vid : ℕ) (ipv4 : Ptr) :
    Follows (vlanIpv4 vid ipv4) (vlanIpv4Checks ipv4) := by
  unfold vlanIpv4 vlanIpv4Checks
  simp only [List.append_assoc]
  refine follows_bind (follows_when fun _ => ?_) fun _ => ?_
  · exact follows_within (follows_cfgInterfaceParseIpv4 _)
  refine follows_bind (follows_when fun _ => ?_) fun _ => ?_
  · exact follows_bind_silent (follows_scratch (follows_igmpInfo _)) fun _ => follows_fill _
  · exact follows_when fun _ => follows_vlanDhcp vid _

theorem follows_cfgVlanInterfaceParse (ports : Ports) (interface : Ptr) :
    Follows (cfgVlanInterfaceParse ports interface) (vlanInterfaceChecks ports interface) := by
  unfold cfgVlanInterfaceParse vlanInterfaceChecks
  simp only [List.cons_append]
  refine follows_need_bind fun _ => follows_need_bind fun _ => follows_fill_bind ?_
  refine follows_bind (follows_forM _ fun eth _ => follows_vlanEthernet ports _ eth) fun _ => ?_
  exact follows_fill_bind (follows_when fun _ => follows_vlanIpv4 _ _)

/-- Only one of the two parsers can get past its first condition. -/
theorem follows_interface (ports : Ports) (interface : Json) :
    Follows (Parser.orElse (cfgVlanInterfaceParse ports (some interface))
      (cfgPortInterfaceParse ports (some interface))) (interfaceChecks ports interface) := by
  have hvlan := follows_cfgVlanInterfaceParse ports (some interface)
  have hport := follows_cfgPortInterfaceParse ports (some interface)
  unfold interfaceChecks
  split
  · next h =>
    refine follows_orElse_left hvlan hport ?_
    simp [portInterfaceChecks, outcome, Check.holds, Check.stop, Option.isSome_iff_ne_none.mp h]
  · next h =>
    refine follows_orElse_right hvlan hport ?_
    simp [vlanInterfaceChecks, outcome, Check.holds, Check.stop, h]

end Ucentral.Proto
