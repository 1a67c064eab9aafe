import Ucentral.Proto.CfgChecks

/-! Which configurations break the parser.

    The sections about the whole switch add four kinds of strings that are copied without looking at
    their length: the names of isolated ports, the power management mode, the system password, which
    does not even have to be a string, and the address of the lookup service. Together with those of
    `ethernet` and `interfaces` these are all. The strings that go into a message untested are those of
    the relay of a VLAN. -/

namespace Ucentral.Proto
open CJson Inet Router Plat Parse

/-! ### `services` -/

def logChecks (s : Ptr) : List Check :=
  let priority := getItem s "priority"
  let size := getItem s "size"
  let host := getItem s "host"
  let proto := getItem s "proto"
  .need (isNumber (getItem s "port")) ::
  (if priority.isSome then [.need (isNumber priority)] else []) ++
  (if size.isSome then [.need (isNumber size)] else []) ++
  (if proto.isSome then
    [.need (isString proto), .need (strOf proto == "udp" || strOf proto == "tcp")] else []) ++
  (if host.isSome then [.need (isString host)] else [])

def enableChecks (s : Ptr) : List Check :=
  if s.isSome then [.need (isObject s), .need (optBool (getItem s "enable"))] else []

def servicesChecks (services : Ptr) : List Check :=
  let log := getItem services "log"
  (if log.isSome then .need (isObject log) :: logChecks log else []) ++
  enableChecks (getItem services "ssh") ++
  enableChecks (getItem services "telnet") ++
  enableChecks (getItem services "http")

theorem follows_cfgServiceLogParse (s : Ptr) : Follows (cfgServiceLogParse s) (logChecks s) := by
  unfold cfgServiceLogParse logChecks
  simp only [List.cons_append, List.append_assoc]
  refine follows_need_bind fun _ => follows_fill_bind ?_
  refine follows_bind (follows_when fun _ => follows_need_bind fun _ => follows_fill _) fun _ => ?_
  refine follows_fill_bind ?_
  refine follows_bind (follows_when fun _ => follows_need_bind fun _ => follows_fill _) fun _ => ?_
  refine follows_bind (follows_when fun _ => ?_) fun _ => ?_
  · refine follows_need_bind fun h => follows_known_bind h ?_
    exact follows_need_bind fun _ => follows_fill _
  · exact follows_when fun _ => follows_need_bind fun h => follows_known_bind h (follows_fill _)

theorem follows_enabledService (s : Ptr) (set : Bool → PlatCfg → PlatCfg) :
    Follows (enabledService s set) (enableChecks s) :=
  follows_when fun _ => follows_need_bind fun _ => follows_need_bind fun _ => follows_fill _

theorem follows_cfgServicesParse (services : Ptr) :
    Follows (cfgServicesParse services) (servicesChecks services) := by
  unfold cfgServicesParse servicesChecks
  simp only [List.append_assoc]
  refine follows_bind (follows_when fun _ => follows_need_bind fun _ => ?_) fun _ => ?_
  · exact follows_bind_silent (follows_scratch (follows_cfgServiceLogParse _))
      fun _ => follows_fill _
  refine follows_fill_bind (follows_bind (follows_enabledService _ _) fun _ => ?_)
  exact follows_bind (follows_enabledService _ _) fun _ => follows_enabledService _ _

/-! ### `switch` -/

def radiusChecks (iter : Json) : List Check :=
  [.need (isObject (some iter)), .need (isString (getItem (some iter) "server-host"))]

def switchDot1xChecks (sw : Ptr) : List Check :=
  let ieee8021x := getItem sw "ieee8021x"
  let radius := getItem ieee8021x "radius"
  if ieee8021x.isSome then
    .need (isObject ieee8021x) :: .need (optArray radius) ::
      (children radius).flatMap radiusChecks
  else []

def stpChecks (seen : Bitmap) : List Json → List Check
  | [] => []
  | iter :: iters =>
    .need (decide (0 ≤ stpId iter) && decide (stpId iter < maxVlans)) ::
    .need (!seen (stpId iter).toNat) :: stpChecks (seen.setBit (stpId iter).toNat) iters

def isolatedPortsChecks (iface : Ptr) : List Check :=
  let ifaceList := getItem iface "interface-list"
  .need (isArray ifaceList && decide (getArraySize ifaceList ≠ 0)) ::
  (children ifaceList).flatMap portNameChecks

def sessionChecks (seen : List ℕ) : List Json → List Check
  | [] => []
  | session :: sessions =>
    let id := (getNumberValue (getItem (some session) "id")).toUInt 64
    let up := getItem (some session) "uplink"
    let down := getItem (some session) "downlink"
    .need (isNumber (getItem (some session) "id")) ::
    .need (!seen.contains id) ::
    .need (isObject up) ::
    .need (isObject down) ::
    isolatedPortsChecks up ++ (isolatedPortsChecks down ++ sessionChecks (seen ++ [id]) sessions)

def isolationChecks (portIsolation : Ptr) : List Check :=
  let sessions := getItem portIsolation "sessions"
  .need (isObject portIsolation) :: .need (isArray sessions) ::
  sessionChecks [] (children sessions)

def switchChecks (root : Ptr) : List Check :=
  let sw := getItem root "switch"
  let loop := getItem sw "loop-detection"
  let protocol := getItem loop "protocol"
  let portIsolation := getItem sw "port-isolation"
  switchDot1xChecks sw ++
  (if protocol.isSome then
    [.need (isString protocol), .need (protoStpModeToNum (strOf protocol)).isSome] else []) ++
  stpChecks Bitmap.clear (children (getItem loop "instances")) ++
  (if portIsolation.isSome then isolationChecks portIsolation else [])

theorem follows_cfgSwitchIeee8021xParse (sw : Ptr) :
    Follows (cfgSwitchIeee8021xParse sw) (switchDot1xChecks sw) := by
  refine follows_when fun _ => follows_need_bind fun _ => follows_fill_bind ?_
  refine follows_need_bind fun _ => follows_forM _ fun iter _ => ?_
  refine follows_need_bind fun _ => follows_need_bind fun h => ?_
  exact follows_known_bind h (follows_fill _)

theorem follows_stpInstancesGo (iters : List Json) :
    ∀ seen, Follows (stpInstancesGo seen iters) (stpChecks seen iters) := by
  induction iters with
  | nil => exact fun _ => follows_pure ()
  | cons iter iters ih =>
    intro seen
    refine follows_need_bind fun _ => follows_need_bind fun _ => follows_fill_bind ?_
    exact ih _

theorem follows_cfgEthernetPortIsolationInterfaceParse (iface : Ptr) :
    Follows (cfgEthernetPortIsolationInterfaceParse iface) (isolatedPortsChecks iface) := by
  refine follows_need_bind fun _ => follows_forM _ fun port _ => ?_
  exact follows_need_bind fun _ => follows_copy_bind (follows_fill _)

theorem follows_isolationGo (sessions : List Json) :
    ∀ seen, Follows (isolationGo seen sessions) (sessionChecks seen sessions) := by
  induction sessions with
  | nil => exact fun _ => follows_pure ()
  | cons session sessions ih =>
    intro seen
    unfold isolationGo sessionChecks
    refine follows_need_bind fun _ => follows_need_bind fun _ => ?_
    refine follows_need_bind fun _ => follows_need_bind fun _ => ?_
    refine follows_scratch_bind (follows_cfgEthernetPortIsolationInterfaceParse _) fun _ => ?_
    refine follows_scratch_bind (follows_cfgEthernetPortIsolationInterfaceParse _) fun _ => ?_
    exact follows_fill_bind (ih _)

theorem follows_cfgSwitchParse (root : Ptr) :
    Follows (cfgSwitchParse root) (switchChecks root) := by
  unfold cfgSwitchParse switchChecks
  simp only [List.append_assoc]
  refine follows_bind (follows_cfgSwitchIeee8021xParse _) fun _ => follows_fill_bind ?_
  refine follows_bind (follows_when fun _ => ?_) fun _ => follows_fill_bind ?_
  · refine follows_need_bind fun h => follows_known_bind h ?_
    exact follows_need_bind fun _ => follows_fill _
  refine follows_bind (follows_stpInstancesGo _ _) fun _ => ?_
  refine follows_when fun _ => ?_
  exact follows_need_bind fun _ => follows_need_bind fun _ => follows_isolationGo _ _

/-! ### `metrics`, `unit` and routes -/

def unitChecks (unit : Ptr) : List Check :=
  let powerMgmt := getItem (getItem unit "poe") "power-management"
  let password := getItem unit "system-password"
  (if isString powerMgmt then [.text (getStringValue powerMgmt) (some 32)] else []) ++
  (if password.isSome then [.text (getStringValue password) (some 64)] else [])

def prefixChecks (obj : Json) : List Check :=
  let addrStr := getItem (some obj) "prefix"
  [.need (isString addrStr), .need (netWidth (strOf addrStr).toList).isSome]

def gatewayChecks (iter : Json) : List Check :=
  let nh := getItem (some iter) "nexthop"
  prefixChecks iter ++ [.need (isString nh), .need (inetPton (strOf nh).toList).isSome]

def interfaceRouteChecks (interface : Json) : List Check :=
  if decide (cfgInterface2vid (some interface) ≠ maxVlans) then
    (gatewaysOf interface).flatMap gatewayChecks ++ (broadcastsOf interface).flatMap prefixChecks
  else []

def routerChecks (root : Ptr) : List Check :=
  (blackholesOf root).flatMap prefixChecks ++ (unreachablesOf root).flatMap prefixChecks ++
  (children (getItemCI root "interfaces")).flatMap interfaceRouteChecks

/-- Reading the metrics stops nowhere. -/
theorem follows_cfgMetricsParse (metrics : Ptr) : Follows (cfgMetricsParse metrics) [] := by
  refine follows_fill_bind (follows_silent_bind (follows_when_silent fun _ => ?_) fun _ => ?_)
  · refine follows_bind_silent (follows_forM_silent fun t _ => ?_) fun _ => follows_fill _
    exact follows_when_silent fun h => follows_known_bind h (follows_fill _)
  · exact follows_when_silent fun _ => follows_fill _

theorem follows_cfgUnitParse (unit : Ptr) : Follows (cfgUnitParse unit) (unitChecks unit) := by
  unfold cfgUnitParse unitChecks
  refine follows_bind (follows_when fun _ => follows_copy_bind (follows_fill _)) fun _ => ?_
  refine follows_optFill_bind ?_
  refine follows_bind_silent (follows_when fun _ => follows_copy_bind (follows_fill _)) fun _ => ?_
  exact follows_optFill_bind (follows_when_silent fun _ => follows_fill _)

theorem follows_routePrefixObj2nodeKey (obj : Json) :
    Follows (routePrefixObj2nodeKey obj) (prefixChecks obj) := by
  refine follows_need_bind fun h => follows_known_bind h (follows_fill_bind ?_)
  exact follows_need _

theorem follows_plainRoute (info : FibInfo) (iter : Json) :
    Follows (plainRoute info iter) (prefixChecks iter) := by
  exact follows_bind_silent (follows_routePrefixObj2nodeKey iter) fun _ => follows_fill _

theorem follows_gatewayRoute (vid : ℕ) (iter : Json) :
    Follows (gatewayRoute vid iter) (gatewayChecks iter) := by
  refine follows_bind (follows_routePrefixObj2nodeKey iter) fun _ => ?_
  refine follows_need_bind fun h => follows_known_bind h ?_
  exact follows_need_bind fun _ => follows_fill _

theorem follows_interfaceRoutes (interface : Json) :
    Follows (interfaceRoutes interface) (interfaceRouteChecks interface) := by
  refine follows_when fun _ => follows_bind (follows_forM _ fun iter _ => ?_) fun _ => ?_
  · exact follows_gatewayRoute _ iter
  · exact follows_forM _ fun iter _ => follows_plainRoute _ iter

theorem follows_cfgRouterParse (ports : Ports) (root : Ptr) :
    Follows (cfgRouterParse ports root) (routerChecks root) := by
  refine follows_bind_silent (follows_scratch ?_) fun _ => follows_fill _
  unfold cfgProcessPrefixes routerChecks
  simp only [List.append_assoc]
  refine follows_bind (follows_forM _ fun iter _ => follows_plainRoute _ iter) fun _ => ?_
  refine follows_bind (follows_forM _ fun iter _ => follows_plainRoute _ iter) fun _ => ?_
  exact follows_forM _ fun interface _ => follows_interfaceRoutes interface

/-! ### The whole -/

/-- Everything `cfg_parse` tests, and every string it uses untested, in its order. -/
def cfgChecks (ports : Ports) (config : Ptr) : List Check :=
  let ethernet := getItem config "ethernet"
  let interfaces := getItem config "interfaces"
  let services := getItem config "services"
  let metrics := getItem config "metrics"
  let unit := getItem config "unit"
  let lookup := getStringValue (getItem config "public_ip_lookup")
  .need (isArray ethernet) ::
  .need (isArray interfaces) ::
  .need (optObject services) ::
  .need (optObject metrics) ::
  .need (optObject unit) ::
  .need ports.list.isSome ::
  (children ethernet).flatMap (ethernetChecks ports) ++
  (children interfaces).flatMap (interfaceChecks ports) ++
  switchChecks config ++
  (if services.isSome then servicesChecks services else []) ++
  (if unit.isSome then unitChecks unit else []) ++
  routerChecks config ++
  [.text (some (lookup.getD "")) (some 2048)]

theorem follows_cfgParse (ports : Ports) (config : Ptr) :
    Follows (cfgParse ports config) (cfgChecks ports config) := by
  unfold cfgParse cfgChecks
  simp only [List.cons_append, List.append_assoc]
  refine follows_need_bind fun _ => follows_need_bind fun _ => follows_need_bind fun _ => ?_
  refine follows_need_bind fun _ => follows_need_bind fun _ => follows_need_bind fun _ => ?_
  refine follows_fill_bind ?_
  refine follows_bind (follows_forM _ fun eth _ => follows_ethernetElem ports eth) fun _ => ?_
  refine follows_bind (follows_forM _ fun i _ => follows_interface ports i) fun _ => ?_
  refine follows_bind (follows_within (follows_cfgSwitchParse _)) fun _ => ?_
  refine follows_silent_bind (follows_when_silent fun _ => ?_) fun _ => ?_
  · exact follows_within (follows_within (follows_cfgMetricsParse _))
  refine follows_bind (follows_when fun _ => ?_) fun _ => ?_
  · exact follows_within (follows_cfgServicesParse _)
  refine follows_bind (follows_when fun _ => ?_) fun _ => ?_
  · exact follows_within (follows_within (follows_cfgUnitParse _))
  refine follows_bind (follows_within (follows_cfgRouterParse ports _)) fun _ => ?_
  exact follows_copy_bind (follows_within (follows_within (follows_fill _)))

/-! ### The strings that are used untested -/

/-- The strings of a configuration that are used untested; with a room they are copied. -/
inductive Untested (config : Ptr) : Option String → Option ℕ → Prop
  | selectedPort {eth p : Json} (heth : eth ∈ children (getItem config "ethernet"))
      (hp : p ∈ children (getItem (some eth) "select-ports")) :
      Untested config (getStringValue (some p)) none
  | memberPort {i eth p : Json} (hi : i ∈ children (getItem config "interfaces"))
      (heth : eth ∈ children (getItem (some i) "ethernet"))
      (hp : p ∈ children (getItemCI (some eth) "select-ports")) :
      Untested config (getStringValue (some p)) none
  | vlanTag {i eth : Json} (hi : i ∈ children (getItem config "interfaces"))
      (heth : eth ∈ children (getItem (some i) "ethernet")) :
      Untested config (getStringValue (getItem (some eth) "vlan-tag")) none
  | poeMode {eth : Json} (heth : eth ∈ children (getItem config "ethernet")) {name : String}
      (hname : name = "detection" ∨ name = "priority") :
      Untested config (getStringValue (getItem (getItem (some eth) "poe") name)) (some 32)
  | egressPort {i group port : Json} (hi : i ∈ children (getItem config "interfaces"))
      (hgroup : group ∈ children (getItem (getItem (getItem (getItem (some i) "ipv4") "multicast")
        "igmp") "static-mcast-groups"))
      (hport : port ∈ children (getItem (some group) "egress-ports")) :
      Untested config (getStringValue (some port)) (some 32)
  | isolatedPort {session port : Json} {side : String} (hside : side = "uplink" ∨ side = "downlink")
      (hsession : session ∈ children (getItem (getItem (getItem config "switch") "port-isolation")
        "sessions"))
      (hport : port ∈ children (getItem (getItem (some session) side) "interface-list")) :
      Untested config (getStringValue (some port)) (some 32)
  | powerManagement :
      Untested config (getStringValue (getItem (getItem (getItem config "unit") "poe")
        "power-management")) (some 32)
  | systemPassword :
      Untested config (getStringValue (getItem (getItem config "unit") "system-password")) (some 64)
  | publicIpLookup :
      Untested config (some ((getStringValue (getItem config "public_ip_lookup")).getD ""))
        (some 2048)

/-- The strings of a configuration that are shown in a message when one of them is missing. -/
inductive Shown (config : Ptr) : List (Option String) → Prop
  | relay {i : Json} (hi : i ∈ children (getItem config "interfaces")) :
      Shown config
        [getStringValue (getItem (getItem (getItem (some i) "ipv4") "dhcp") "relay-server"),
          getStringValue (getItem (getItem (getItem (some i) "ipv4") "dhcp") "circuit-id-format")]

section Texts
variable {v : Option String} {room : Option ℕ}

theorem text_mem_entryChecks {ports : Ports} (ps : List Json)
    (h : .text v room ∈ entryChecks ports ps) :
    ∃ p ∈ ps, v = getStringValue (some p) ∧ room = none := by
  induction ps with
  | nil => simp [entryChecks] at h
  | cons p ps ih =>
    unfold entryChecks at h
    rcases List.mem_cons.mp h with heq | h
    · cases heq
      exact ⟨p, List.mem_cons_self .., rfl, rfl⟩
    · rcases hp : protoPortNameToNum ports.junk (strOf (some p)) with _ | id
      · rw [hp] at h
        simp at h
      · simp only [hp] at h
        split at h
        · simp at h
        · obtain ⟨q, hq, hv⟩ := ih (by simpa using h)
          exact ⟨q, List.mem_cons_of_mem _ hq, hv⟩

theorem text_mem_selectChecks {ports : Ports} {selectPorts : Ptr}
    (h : .text v room ∈ selectChecks ports selectPorts) :
    ∃ p ∈ children selectPorts, v = getStringValue (some p) ∧ room = none := by
  rcases List.mem_cons.mp h with heq | h
  · cases heq
  · exact text_mem_entryChecks _ h

theorem not_shown_mem_selectChecks {ports : Ports} {vs : List (Option String)} (selectPorts : Ptr) :
    .shown vs ∉ selectChecks ports selectPorts := by
  have hentries : ∀ ps : List Json, .shown vs ∉ entryChecks ports ps := by
    intro ps
    induction ps with
    | nil => simp [entryChecks]
    | cons p ps ih =>
      unfold entryChecks
      rcases protoPortNameToNum ports.junk (strOf (some p)) with _ | id
      · simp
      · dsimp only
        split <;> simp [ih]
  simp [selectChecks, hentries]

theorem text_mem_portNames {l : List Json} (h : .text v room ∈ l.flatMap portNameChecks) :
    ∃ port ∈ l, v = getStringValue (some port) ∧ room = some 32 := by
  obtain ⟨port, hport, h⟩ := List.mem_flatMap.mp h
  simp only [portNameChecks, List.mem_cons, List.not_mem_nil, reduceCtorEq, Check.text.injEq,
    false_or, or_false] at h
  exact ⟨port, hport, h⟩

theorem text_mem_poeChecks {poe : Ptr} (h : .text v room ∈ poeChecks poe) :
    ∃ name, (name = "detection" ∨ name = "priority") ∧
      v = getStringValue (getItem poe name) ∧ room = some 32 := by
  simp only [poeChecks, List.cons_append, List.mem_cons, List.mem_append, List.mem_ite_nil_right,
    List.not_mem_nil, reduceCtorEq, Check.text.injEq, false_or, or_false] at h
  rcases h with ⟨_, h⟩ | ⟨_, h⟩
  · exact ⟨"detection", Or.inl rfl, h⟩
  · exact ⟨"priority", Or.inr rfl, h⟩

theorem untested_of_ethernet {ports : Ports} {config : Ptr} {eth : Json}
    (heth : eth ∈ children (getItem config "ethernet"))
    (h : .text v room ∈ ethernetChecks ports eth) : Untested config v room := by
  have hdot1x : ∀ j, .text v room ∉ dot1xChecks j := fun j => by simp [dot1xChecks]
  simp only [ethernetChecks, portChecks, List.cons_append, List.mem_cons, List.mem_append,
    List.mem_ite_nil_right, List.not_mem_nil, reduceCtorEq, false_or, or_false, hdot1x,
    and_false] at h
  rcases h with ⟨_, h⟩ | h
  · obtain ⟨name, hname, rfl, rfl⟩ := text_mem_poeChecks h
    exact .poeMode heth hname
  · obtain ⟨p, hp, rfl, rfl⟩ := text_mem_selectChecks h
    exact .selectedPort heth hp

theorem untested_of_igmp {config : Ptr} {i : Json}
    (hi : i ∈ children (getItem config "interfaces"))
    (h : .text v room ∈
      igmpChecks (getItem (getItem (getItem (some i) "ipv4") "multicast") "igmp")) :
    Untested config v room := by
  simp only [igmpChecks, List.mem_append, List.mem_ite_nil_right, List.mem_cons, List.not_mem_nil,
    reduceCtorEq, or_false, and_false, false_or] at h
  obtain ⟨group, hgroup, h⟩ := List.mem_flatMap.mp h.2
  simp only [groupChecks, List.mem_cons, reduceCtorEq, false_or] at h
  obtain ⟨port, hport, rfl, rfl⟩ := text_mem_portNames h
  exact .egressPort hi hgroup hport

theorem untested_of_vlanInterface {ports : Ports} {config : Ptr} {i : Json}
    (hi : i ∈ children (getItem config "interfaces"))
    (h : .text v room ∈ vlanInterfaceChecks ports (some i)) : Untested config v room := by
  have hipv4 : ∀ j, .text v room ∉ ipv4Checks j := fun j => by simp [ipv4Checks]
  have hdhcp : ∀ j, .text v room ∉ dhcpChecks j := fun j => by simp [dhcpChecks]
  simp only [vlanInterfaceChecks, vlanIpv4Checks, List.cons_append, List.mem_cons, List.mem_append,
    List.mem_ite_nil_right, reduceCtorEq, false_or, or_false, hipv4, hdhcp, and_false] at h
  rcases h with h | ⟨_, _, h⟩
  · obtain ⟨eth, heth, h⟩ := List.mem_flatMap.mp h
    simp only [memberChecks, List.mem_append, List.mem_cons, List.not_mem_nil, reduceCtorEq,
      Check.text.injEq, false_or, or_false] at h
    rcases h with h | ⟨rfl, rfl⟩
    · obtain ⟨p, hp, rfl, rfl⟩ := text_mem_selectChecks h
      exact .memberPort hi heth hp
    · exact .vlanTag hi heth
  · exact untested_of_igmp hi h

theorem untested_of_portInterface {ports : Ports} {config : Ptr} {i : Json}
    (hi : i ∈ children (getItem config "interfaces"))
    (h : .text v room ∈ portInterfaceChecks ports (some i)) : Untested config v room := by
  have hipv4 : ∀ j, .text v room ∉ ipv4Checks j := fun j => by simp [ipv4Checks]
  simp only [portInterfaceChecks, List.cons_append, List.mem_cons, List.mem_append,
    List.mem_ite_nil_right, reduceCtorEq, false_or, or_false, hipv4, and_false] at h
  obtain ⟨p, hp, rfl, rfl⟩ := text_mem_selectChecks h
  rcases heth : getArrayItem (getItem (some i) "ethernet") 0 with _ | eth
  · rw [heth] at hp
    simp [getItemCI, children] at hp
  · rw [heth] at hp
    exact .memberPort hi (List.mem_of_getElem? heth) hp

theorem untested_of_sessions {config : Ptr} (sessions : List Json) (seen : List ℕ)
    (hsub : ∀ x ∈ sessions, x ∈ children (getItem (getItem (getItem config "switch")
      "port-isolation") "sessions"))
    (h : .text v room ∈ sessionChecks seen sessions) : Untested config v room := by
  induction sessions generalizing seen with
  | nil => simp [sessionChecks] at h
  | cons session sessions ih =>
    have hmem := hsub session (List.mem_cons_self ..)
    simp only [sessionChecks, isolatedPortsChecks, List.cons_append, List.mem_cons,
      List.mem_append, reduceCtorEq, false_or] at h
    rcases h with h | h | h
    · obtain ⟨port, hport, rfl, rfl⟩ := text_mem_portNames h
      exact .isolatedPort (Or.inl rfl) hmem hport
    · obtain ⟨port, hport, rfl, rfl⟩ := text_mem_portNames h
      exact .isolatedPort (Or.inr rfl) hmem hport
    · exact ih _ (fun x hx => hsub x (List.mem_cons_of_mem _ hx)) h

theorem not_text_mem_stpChecks (iters : List Json) (seen : Bitmap) :
    .text v room ∉ stpChecks seen iters := by
  induction iters generalizing seen with
  | nil => simp [stpChecks]
  | cons iter iters ih => simp [stpChecks, ih]

theorem untested_of_switch {config : Ptr} (h : .text v room ∈ switchChecks config) :
    Untested config v room := by
  have hdot1x : ∀ j, .text v room ∉ switchDot1xChecks j := fun j => by
    simp [switchDot1xChecks, radiusChecks]
  simp only [switchChecks, isolationChecks, List.mem_append, List.mem_ite_nil_right, List.mem_cons,
    List.not_mem_nil, reduceCtorEq, false_or, or_false, and_false, hdot1x,
    not_text_mem_stpChecks] at h
  exact untested_of_sessions _ _ (fun _ hx => hx) h.2

theorem not_shown_mem_stpChecks {vs : List (Option String)} (iters : List Json) (seen : Bitmap) :
    .shown vs ∉ stpChecks seen iters := by
  induction iters generalizing seen with
  | nil => simp [stpChecks]
  | cons iter iters ih => simp [stpChecks, ih]

theorem not_shown_mem_sessionChecks {vs : List (Option String)} (sessions : List Json)
    (seen : List ℕ) : .shown vs ∉ sessionChecks seen sessions := by
  induction sessions generalizing seen with
  | nil => simp [sessionChecks]
  | cons session sessions ih => simp [sessionChecks, isolatedPortsChecks, portNameChecks, ih]

theorem not_text_mem_servicesChecks {services : Ptr} : .text v room ∉ servicesChecks services := by
  simp [servicesChecks, logChecks, enableChecks]

theorem not_text_mem_routerChecks {root : Ptr} : .text v room ∉ routerChecks root := by
  have hprefix : ∀ j, .text v room ∉ prefixChecks j := fun j => by simp [prefixChecks]
  simp [routerChecks, interfaceRouteChecks, gatewayChecks, hprefix]

/-- There are no other untested strings. -/
theorem untested_of_text_mem {ports : Ports} {config : Ptr}
    (h : .text v room ∈ cfgChecks ports config) : Untested config v room := by
  simp only [cfgChecks, List.cons_append, List.mem_cons, List.mem_append, List.mem_ite_nil_right,
    List.not_mem_nil, reduceCtorEq, false_or, or_false, not_text_mem_servicesChecks,
    not_text_mem_routerChecks, and_false, Check.text.injEq] at h
  rcases h with (((h | h) | h) | ⟨_, h⟩) | ⟨rfl, rfl⟩
  · obtain ⟨eth, heth, h⟩ := List.mem_flatMap.mp h
    exact untested_of_ethernet heth h
  · obtain ⟨i, hi, h⟩ := List.mem_flatMap.mp h
    unfold interfaceChecks at h
    split at h
    · exact untested_of_vlanInterface hi h
    · exact untested_of_portInterface hi h
  · exact untested_of_switch h
  · simp only [unitChecks, List.mem_append, List.mem_ite_nil_right, List.mem_cons,
      List.not_mem_nil, Check.text.injEq, or_false] at h
    rcases h with ⟨_, rfl, rfl⟩ | ⟨_, rfl, rfl⟩
    · exact .powerManagement
    · exact .systemPassword
  · exact .publicIpLookup

/-- A message shows the strings of a relay. -/
theorem shown_mem_interfaceChecks {ports : Ports} {i : Json} {vs : List (Option String)}
    (h : .shown vs ∈ interfaceChecks ports i) :
    vs = [getStringValue (getItem (getItem (getItem (some i) "ipv4") "dhcp") "relay-server"),
      getStringValue (getItem (getItem (getItem (some i) "ipv4") "dhcp") "circuit-id-format")] := by
  have hselect : ∀ j, .shown vs ∉ selectChecks ports j := not_shown_mem_selectChecks
  have hipv4 : ∀ j, .shown vs ∉ ipv4Checks j := fun j => by simp [ipv4Checks]
  have higmp : ∀ j, .shown vs ∉ igmpChecks j := fun j => by
    simp [igmpChecks, groupChecks, portNameChecks]
  unfold interfaceChecks at h
  split at h
  · simp only [vlanInterfaceChecks, vlanIpv4Checks, memberChecks, dhcpChecks, List.cons_append,
      List.mem_cons, List.mem_append, List.mem_ite_nil_right, List.mem_flatMap, List.not_mem_nil,
      reduceCtorEq, Check.shown.injEq, false_or, or_false, hselect, hipv4, higmp, and_false,
      exists_false] at h
    exact h.2.2
  · simp only [portInterfaceChecks, List.cons_append, List.mem_cons, List.mem_append,
      List.mem_ite_nil_right, reduceCtorEq, or_false, hselect, hipv4, and_false] at h

/-- There are no other such strings. -/
theorem shown_of_mem {ports : Ports} {config : Ptr} {vs : List (Option String)}
    (h : .shown vs ∈ cfgChecks ports config) : Shown config vs := by
  have hethernet : ∀ j, .shown vs ∉ ethernetChecks ports j := fun j => by
    simp [ethernetChecks, portChecks, poeChecks, dot1xChecks, not_shown_mem_selectChecks]
  have hswitch : .shown vs ∉ switchChecks config := by
    simp [switchChecks, switchDot1xChecks, radiusChecks, isolationChecks, not_shown_mem_stpChecks,
      not_shown_mem_sessionChecks]
  have hservices : ∀ j, .shown vs ∉ servicesChecks j := fun j => by
    simp [servicesChecks, logChecks, enableChecks]
  have hunit : ∀ j, .shown vs ∉ unitChecks j := fun j => by simp [unitChecks]
  have hrouter : .shown vs ∉ routerChecks config := by
    simp [routerChecks, interfaceRouteChecks, gatewayChecks, prefixChecks]
  simp only [cfgChecks, List.cons_append, List.mem_cons, List.mem_append, List.mem_ite_nil_right,
    List.mem_flatMap, List.not_mem_nil, reduceCtorEq, false_or, or_false, hethernet, hswitch,
    hservices, hunit, hrouter, and_false, exists_false] at h
  obtain ⟨i, hi, h⟩ := h
  rw [shown_mem_interfaceChecks h]
  exact .relay hi

end Texts

/-- The checks go well exactly if each untested string that they come to is a good one. -/
theorem cfgChecks_ne_fault_iff (ports : Ports) (config : Ptr) :
    outcome (cfgChecks ports config) ≠ some .fault ↔
      ∀ v room, Untested config v room → Reached (cfgChecks ports config) (.text v room) →
        fits v room = true := by
  rw [outcome_ne_fault_iff]
  constructor
  · intro h v room _ hr
    exact h v room hr
  · intro h v room hr
    exact h v room (untested_of_text_mem hr.mem) hr

/-- They come to no bad message exactly if the strings of each relay that they come to are there. -/
theorem cfgChecks_ne_format_iff (ports : Ports) (config : Ptr) :
    outcome (cfgChecks ports config) ≠ some .format ↔
      ∀ vs, Shown config vs → Reached (cfgChecks ports config) (.shown vs) →
        ∀ v ∈ vs, v.isSome = true := by
  rw [outcome_ne_format_iff]
  constructor
  · intro h vs _ hr
    exact h vs hr
  · intro h vs hr
    exact h vs (shown_of_mem hr.mem) hr

/-- `cfg_parse` is safe exactly if each untested string that its tests let it come to is a string,
    and shorter than the field it is copied into, and the strings of each relay that they let it come
    to are strings as well. -/
theorem cfg_parse_strings_safe_iff (ports : Ports) (config : Ptr) :
    ((cfgParse ports config {}).1 ≠ .error .fault ∧ (cfgParse ports config {}).1 ≠ .error .format) ↔
      (∀ v room, Untested config v room → Reached (cfgChecks ports config) (.text v room) →
        fits v room = true) ∧
      ∀ vs, Shown config vs → Reached (cfgChecks ports config) (.shown vs) →
        ∀ v ∈ vs, v.isSome = true := by
  have hfollows := follows_cfgParse ports config
  rw [← cfgChecks_ne_fault_iff, ← cfgChecks_ne_format_iff]
  exact and_congr (ne_fault_iff_of_follows hfollows {}) (ne_format_iff_of_follows hfollows {})

/-- A configuration of one port setting. -/
def onePort (members : List (String × Json)) : Json :=
  .obj [("ethernet", .arr [.obj ([("duplex", .str "full"), ("speed", .num (.fin 1000))] ++ members)]),
    ("interfaces", .arr [])]

/-- A VLAN with a relay that has no server. -/
def relayVlan : Json :=
  .obj [("ethernet", .arr []), ("interfaces", .arr [.obj [("vlan", .obj [("id", .num (.fin 10))]),
    ("ipv4", .obj [("dhcp", .obj [("circuit-id-format", .str "\x7bVLAN-ID\x7d")])])]])]

/-- A port given by its number, a detection mode that is too long, and a relay without a server. -/
theorem cfg_parse_unsafe :
    (cfgParse ⟨some ["Ethernet1"], 0, InAddr.zero⟩
      (some (onePort [("select-ports", .arr [.num (.fin 1)])])) {}).1 = .error .fault ∧
    (cfgParse ⟨some ["Ethernet1"], 0, InAddr.zero⟩
      (some (onePort [("select-ports", .arr [.str "Ethernet1"]),
        ("poe", .obj [("detection", .str "ieee-2point-and-legacy-detection")])])) {}).1 =
      .error .fault ∧
    (cfgParse ⟨some ["Ethernet1"], 0, InAddr.zero⟩ (some relayVlan) {}).1 = .error .format := by
  refine ⟨rfl, rfl, rfl⟩

end Ucentral.Proto
