import Ucentral.Plat.Leaves

/-! A switch that keeps the settings of its ports in leaves.

    It is the switch that the results about the 802.1X and the PoE settings assume, and the gets of the port
    caches say what is at its leaves. -/

namespace Ucentral.Plat
open CJson Yang Effect

variable {δ : Type}

/-! ### The switch -/

/-- The ports have the same settings. -/
def SamePorts (l l' : Leaves) : Prop :=
  ∀ port, l' (poeEntry port) = l (poeEntry port) ∧
    ∀ name, l' (authmgrPath port name) = l (authmgrPath port name) ∧ l' (poePath port name) = l (poePath port name)

/-- A switch that keeps the settings of its ports in leaves. The other requests and the questions do not
    touch them. -/
structure GnmiSwitch (δ : Type) extends Server δ where
  rest : Dev δ
  poePortList : δ → Option (List String) × δ
  portErif : String → δ → Option (List IpPrefix) × δ
  poePowerMgmt : δ → Got PoePowerMgmt × δ
  poeUsageThreshold : δ → Got ℕ × δ
  request_keeps : ∀ op d, leafRequest op = none → SamePorts (leaf d) (leaf (rest.request op d).2)
  vlanList_keeps : ∀ d, leaf (rest.vlanList d).2 = leaf d
  vlanMembers_keeps : ∀ d, leaf (rest.vlanMembers d).2 = leaf d
  vlanErif_keeps : ∀ vid d, leaf (rest.vlanErif vid d).2 = leaf d
  portList_keeps : ∀ d, leaf (rest.portList d).2 = leaf d
  dacHosts_keeps : ∀ d, leaf (rest.dacHosts d).2 = leaf d
  radiusHosts_keeps : ∀ d, leaf (rest.radiusHosts d).2 = leaf d
  poePortList_keeps : ∀ d, leaf (poePortList d).2 = leaf d
  poePowerMgmt_keeps : ∀ d, leaf (poePowerMgmt d).2 = leaf d
  poeUsageThreshold_keeps : ∀ d, leaf (poeUsageThreshold d).2 = leaf d

theorem SamePorts.dot1xAt {l l' : Leaves} (h : SamePorts l l') : dot1xAt l' = dot1xAt l :=
  dot1xAt_congr fun port name => ((h port).2 name).1

theorem SamePorts.poeAt {l l' : Leaves} (h : SamePorts l l') : poeAt l' = poeAt l :=
  poeAt_congr fun port name => ((h port).2 name).2

theorem dot1xStore_of_leafRequest {op : Op} (h : leafRequest op = none) (v : String → CachedDot1x) :
    dot1xStore op v = v := by
  cases op <;> first | rfl | cases h

theorem poeStore_of_leafRequest {op : Op} (h : leafRequest op = none) (v : String → PoeSettings) :
    poeStore op v = v := by
  cases op <;> first | rfl | cases h

namespace GnmiSwitch

variable (sw : GnmiSwitch δ)

/-- Its requests: those for the settings of the ports set leaves. -/
def dev : Dev δ :=
  { sw.rest with
    request := fun op d =>
      match leafRequest op with
      | some (p, v) => sw.set p v d
      | none => sw.rest.request op d }

theorem request_leaf {op : Op} {p : Path} {v : Json} (h : leafRequest op = some (p, v)) (d : δ) :
    sw.dev.request op d = sw.set p v d := by
  simp [dev, h]

theorem request_rest {op : Op} (h : leafRequest op = none) (d : δ) :
    sw.dev.request op d = sw.rest.request op d := by
  simp [dev, h]

/-- The 802.1X settings are what the requests make of the leaves. -/
def dot1x : Dot1xSwitch δ where
  dev := sw.dev
  view d := dot1xAt (sw.leaf d)
  granted op d hg := by
    rcases h : leafRequest op with _ | ⟨p, v⟩
    · rw [sw.request_rest h, dot1xStore_of_leafRequest h]
      exact (sw.request_keeps op d h).dot1xAt
    · rw [sw.request_leaf h] at hg ⊢
      rw [sw.granted p v d hg, store_dot1x h]
  refused op d hg := by
    rcases h : leafRequest op with _ | ⟨p, v⟩
    · rw [sw.request_rest h]
      exact (sw.request_keeps op d h).dot1xAt
    · rw [sw.request_leaf h] at hg ⊢
      rw [sw.refused p v d hg]
  vlanList d := congrArg dot1xAt (sw.vlanList_keeps d)
  vlanMembers d := congrArg dot1xAt (sw.vlanMembers_keeps d)
  vlanErif vid d := congrArg dot1xAt (sw.vlanErif_keeps vid d)
  portList d := congrArg dot1xAt (sw.portList_keeps d)
  dacHosts d := congrArg dot1xAt (sw.dacHosts_keeps d)
  radiusHosts d := congrArg dot1xAt (sw.radiusHosts_keeps d)

/-- So are the PoE settings. -/
def poe : PoeSwitch δ where
  dev := sw.dev
  view d := poeAt (sw.leaf d)
  granted op d hg := by
    rcases h : leafRequest op with _ | ⟨p, v⟩
    · rw [sw.request_rest h, poeStore_of_leafRequest h]
      exact (sw.request_keeps op d h).poeAt
    · rw [sw.request_leaf h] at hg ⊢
      rw [sw.granted p v d hg, store_poe h]
  refused op d hg := by
    rcases h : leafRequest op with _ | ⟨p, v⟩
    · rw [sw.request_rest h]
      exact (sw.request_keeps op d h).poeAt
    · rw [sw.request_leaf h] at hg ⊢
      rw [sw.refused p v d hg]
  vlanList d := congrArg poeAt (sw.vlanList_keeps d)
  vlanMembers d := congrArg poeAt (sw.vlanMembers_keeps d)
  vlanErif vid d := congrArg poeAt (sw.vlanErif_keeps vid d)
  portList d := congrArg poeAt (sw.portList_keeps d)
  dacHosts d := congrArg poeAt (sw.dacHosts_keeps d)
  radiusHosts d := congrArg poeAt (sw.radiusHosts_keeps d)

end GnmiSwitch

/-! ### Gets -/

/-- The limit of a port. -/
def powerLimitAt (leaves : Leaves) (port : String) : Got (Bool × ℕ) :=
  readPowerLimit (leaves (poePath port "power_limit_type")) (leaves (poePath port "power_limit"))

/-- The list of the entries. -/
def poeList : Path := "/sonic-poe:sonic-poe/POE_PORT".toList

theorem poeEntry_eq_child (port : String) : poeEntry port =
    poeList ++ '/' :: ("POE_PORT_LIST".toList ++ '[' :: ("ifname=".toList ++ port.toList ++ [']'])) := by
  have hlist : "/sonic-poe:sonic-poe/POE_PORT/POE_PORT_LIST[ifname=".toList =
      poeList ++ '/' :: ("POE_PORT_LIST".toList ++ '[' :: "ifname=".toList) := by decide
  rw [poeEntry, entry, hlist]
  simp only [List.append_assoc, List.cons_append]

theorem child_ofList (p : Path) (name : List Char) : child p (String.ofList name) = p ++ '/' :: name := by
  rw [child, String.toList_ofList]

theorem configured_poeEntry {port : String} (hport : '/' ∉ port.toList) :
    configured (poeEntry port) = poeEntry port := by
  have hlist : ¬ "etats/".toList <+: poeList.reverse := by decide
  rw [poeEntry_eq_child, ← child_ofList]
  refine configured_of_not ?_ hlist
  rw [String.toList_ofList]
  simpa using hport

/-- A leaf that is read where it is set, and whose member has the name that the switch gives it. -/
structure Leaf.Lawful {κ α : Type} (l : Leaf κ α) : Prop where
  configured : ∀ k, configured (l.getPath k) = l.setPath k
  qualified : ∀ k, qualified (l.getPath k) = l.member
  none : l.read none = .missing
  arr : ∀ xs, l.read (some (.arr xs)) = .missing

theorem moduleName_append {first : List Char} (h : ∀ c ∈ first, c ≠ ':') (rest : List Char) :
    moduleName ('/' :: (first ++ ':' :: rest)) = first := by
  have hall : ∀ c ∈ first, decide (c ≠ ':') = true := fun c hc => by simpa using h c hc
  exact takeWhile_append_cons rest hall (by decide)

theorem moduleName_authmgr (port : String) (rest : Path) :
    moduleName (authmgrEntry port ++ rest) = "openconfig-authmgr".toList := by
  have hpath : authmgrEntry port ++ rest = '/' :: ("openconfig-authmgr".toList ++ ':' ::
      ("authmgr/authmgr-port-config/interface[name=".toList ++ port.toList ++ [']'] ++ rest)) := by
    simp [authmgrEntry, entry]
  rw [hpath]
  exact moduleName_append (forall_of_all (by decide)) _

theorem moduleName_poe (port : String) (rest : Path) :
    moduleName (poeEntry port ++ rest) = "sonic-poe".toList := by
  have hpath : poeEntry port ++ rest = '/' :: ("sonic-poe".toList ++ ':' ::
      ("sonic-poe/POE_PORT/POE_PORT_LIST[ifname=".toList ++ port.toList ++ [']'] ++ rest)) := by
    simp [poeEntry, entry]
  rw [hpath]
  exact moduleName_append (forall_of_all (by decide)) _

/-- The name of a leaf, from the module and the last part of the path. -/
theorem qualified_eq {p : Path} {m n : String} (hmodule : moduleName p = m.toList)
    (hname : lastName p = n.toList) : qualified p = m ++ ":" ++ n := by
  rw [qualified, hmodule, hname]
  apply String.toList_inj.mp
  simp

theorem authmgrLeaf_lawful {α : Type} {name : String} {write : α → Json} {read : Ptr → Got α}
    (hname : ∀ c ∈ name.toList, c ≠ '/' ∧ c ≠ '[') (hnone : read none = .missing)
    (harr : ∀ xs, read (some (.arr xs)) = .missing) :
    (authmgrLeaf name ("openconfig-authmgr:" ++ name) write read).Lawful where
  configured port := configured_state (authmgrEntry port) fun h => (hname _ h).1 rfl
  qualified port := by
    refine qualified_eq (m := "openconfig-authmgr") ?_ (lastName_leaf _ hname)
    change moduleName ((authmgrEntry port ++ '/' :: "state".toList) ++ '/' :: name.toList) = _
    rw [List.append_assoc]
    exact moduleName_authmgr port _
  none := hnone
  arr := harr

theorem poeLeaf_lawful {α : Type} {name : String} {write : α → Json} {read : Ptr → Got α}
    (hname : ∀ c ∈ name.toList, c ≠ '/' ∧ c ≠ '[') (hnone : read none = .missing)
    (harr : ∀ xs, read (some (.arr xs)) = .missing) :
    (poeLeaf name ("sonic-poe:" ++ name) write read).Lawful where
  configured port := by
    refine configured_of_not (fun h => (hname _ h).1 rfl) fun hpre => ?_
    -- an entry ends with a bracket
    change "etats/".toList <+: (poeEntry port).reverse at hpre
    rw [poeEntry, entry, List.reverse_append] at hpre
    exact absurd (List.cons_prefix_cons.mp hpre).1 (by decide)
  qualified port := by
    refine qualified_eq (m := "sonic-poe") ?_ (lastName_leaf _ hname)
    exact moduleName_poe port _
  none := hnone
  arr := harr

theorem pae_lawful : pae.Lawful := authmgrLeaf_lawful (forall_of_all (by decide)) rfl fun _ => rfl

theorem portCtrl_lawful : portCtrl.Lawful := authmgrLeaf_lawful (forall_of_all (by decide)) rfl fun _ => rfl

theorem hostMode_lawful : hostMode.Lawful := authmgrLeaf_lawful (forall_of_all (by decide)) rfl fun _ => rfl

theorem guestVlan_lawful : guestVlan.Lawful := authmgrLeaf_lawful (forall_of_all (by decide)) rfl fun _ => rfl

theorem unauthorizedVlan_lawful : unauthorizedVlan.Lawful :=
  authmgrLeaf_lawful (forall_of_all (by decide)) rfl fun _ => rfl

theorem adminMode_lawful : adminMode.Lawful := poeLeaf_lawful (forall_of_all (by decide)) rfl fun _ => rfl

theorem detectionMode_lawful : detectionMode.Lawful :=
  poeLeaf_lawful (forall_of_all (by decide)) rfl fun _ => rfl

theorem priority_lawful : priority.Lawful := poeLeaf_lawful (forall_of_all (by decide)) rfl fun _ => rfl

theorem qualified_poeEntry {port : String} (hport : '/' ∉ port.toList) :
    qualified (poeEntry port) = "sonic-poe:POE_PORT_LIST" := by
  refine qualified_eq (m := "sonic-poe") (n := "POE_PORT_LIST") ?_ ?_
  · have hmodule := moduleName_poe port []
    rwa [List.append_nil] at hmodule
  · rw [poeEntry_eq_child]
    exact lastName_append _ (forall_of_all (by decide)) (by simpa using hport)

namespace GnmiSwitch

variable (sw : GnmiSwitch δ)

/-- Get a leaf. -/
def leafGet {κ α : Type} (l : Leaf κ α) (k : κ) (d : δ) : Got α × δ :=
  (l.result (sw.get (l.getPath k) d).1, (sw.get (l.getPath k) d).2)

/-- Its answers to the gets of the port caches. -/
def portDev : PortDev δ where
  portList := sw.rest.portList
  poePortList := sw.poePortList
  portErif := sw.portErif
  dot1xPae := sw.leafGet pae
  dot1xCtrl := sw.leafGet portCtrl
  dot1xHost := sw.leafGet hostMode
  dot1xGuestVlan := sw.leafGet guestVlan
  dot1xAuthFailVlan := sw.leafGet unauthorizedVlan
  poeAdmin := sw.leafGet adminMode
  poeDetection := sw.leafGet detectionMode
  poePowerLimit port d := (powerLimitResult (sw.get (poeEntry port) d).1, (sw.get (poeEntry port) d).2)
  poePriority := sw.leafGet priority
  poePowerMgmt := sw.poePowerMgmt
  poeUsageThreshold := sw.poeUsageThreshold

/-- A get that does not fail says what is at the leaf. -/
theorem leafGet_eq {κ α : Type} {l : Leaf κ α} (hl : l.Lawful) (k : κ) (d : δ) :
    (sw.leafGet l k d).1 = .fails ∨ (sw.leafGet l k d).1 = l.at_ (sw.leaf d) k := by
  unfold leafGet Leaf.at_
  rcases hleaf : sw.leaf d (configured (l.getPath k)) with _ | v
  · rw [hl.configured] at hleaf
    rw [hleaf, hl.none]
    by_cases hentry : ∃ name, (sw.leaf d (child (l.getPath k) name)).isSome = true
    · obtain ⟨ms, hget, -⟩ := sw.get_entry _ d (by rw [hl.configured, hleaf]) hentry
      refine Or.inr ?_
      rw [hget, Leaf.result, hl.qualified]
      simp [getItem_obj_cons, hl.arr]
    · have hnone : ∀ name, sw.leaf d (child (l.getPath k) name) = none := by simpa using hentry
      refine Or.inl ?_
      rw [sw.get_none _ d (by rw [hl.configured, hleaf]) hnone]
      rfl
  · refine Or.inr ?_
    rw [sw.get_leaf _ d v hleaf, Leaf.result, hl.qualified, ← hl.configured, hleaf]
    simp [getItem_obj_cons]

theorem leafGet_says {κ α : Type} {l : Leaf κ α} (hl : l.Lawful) (k : κ) {leaves : Leaves} (d : δ)
    (hd : sw.leaf d = leaves) : (sw.leafGet l k d).1 = .fails ∨ (sw.leafGet l k d).1 = l.at_ leaves k := by
  subst hd
  exact sw.leafGet_eq hl k d

/-- The same of the get of a power limit, at the entry of the port. -/
theorem powerLimitGet_eq {port : String} (hport : '/' ∉ port.toList) {d : δ}
    (hentry : sw.leaf d (poeEntry port) = none) :
    (sw.portDev.poePowerLimit port d).1 = .fails ∨
      (sw.portDev.poePowerLimit port d).1 = powerLimitAt (sw.leaf d) port := by
  have hconf := configured_poeEntry hport
  change powerLimitResult (sw.get (poeEntry port) d).1 = .fails ∨
    powerLimitResult (sw.get (poeEntry port) d).1 = _
  by_cases hany : ∃ name, (sw.leaf d (child (poeEntry port) name)).isSome = true
  · obtain ⟨ms, hget, hms⟩ := sw.get_entry _ d (by rw [hconf, hentry]) hany
    refine Or.inr ?_
    rw [hget, qualified_poeEntry hport]
    unfold powerLimitResult powerLimitAt poePath
    rw [← hms "power_limit_type", ← hms "power_limit"]
    simp [getItem_obj_cons, getArrayItem, isArray, isObject]
  · have hnone : ∀ name, sw.leaf d (child (poeEntry port) name) = none := by simpa using hany
    refine Or.inl ?_
    rw [sw.get_none _ d (by rw [hconf, hentry]) hnone]
    rfl

end GnmiSwitch

/-! ### What fits -/

/-- A number at a leaf is one of `w` bits. -/
def NumberFits (w : ℕ) (leaf : Ptr) : Prop := ∀ x, leaf = some (.num x) → ∃ n < 2 ^ w, leaf = some (number n)

/-- The numbers fit the variables that they are read to, a limit of the user has a value, and the entry of a
    port is no leaf. -/
structure Fits (leaves : Leaves) : Prop where
  guestVid : ∀ port, NumberFits 16 (leaves (guestVlan.setPath port))
  authFailVid : ∀ port, NumberFits 16 (leaves (unauthorizedVlan.setPath port))
  powerLimit : ∀ port, isUser (leaves (poePath port "power_limit_type")) = true →
    ∃ n < 2 ^ 32, leaves (poePath port "power_limit") = some (number n)
  entry : ∀ port, leaves (poeEntry port) = none

/-- The numbers of a request are of the types of the source. -/
def OpFits : Op → Prop
  | .dot1xGuestVlanSet _ vid => vid < 2 ^ 16
  | .dot1xAuthFailVlanSet _ vid => vid < 2 ^ 16
  | .poePortPowerLimitSet _ _ limit => limit < 2 ^ 32
  | _ => True

theorem numberFits_number {w n : ℕ} (h : n < 2 ^ w) : NumberFits w (some (number n)) := fun _ _ => ⟨n, h, rfl⟩

theorem numberFits_str {w : ℕ} (s : String) : NumberFits w (some (.str s)) := by
  intro x h
  cases h

/-- Such a number is read as it is. -/
theorem readNumber_getD {w : ℕ} {leaf : Ptr} (h : NumberFits w leaf) :
    (readNumber w leaf).getD 0 = numberAt leaf := by
  rcases leaf with _ | v
  · rfl
  cases v with
  | num x =>
    obtain ⟨n, hn, hleaf⟩ := h x rfl
    rw [hleaf, numberAt_number]
    change (Double.fin (n : ℚ)).toUInt w = n
    rw [Double.toUInt_natCast, Nat.mod_eq_of_lt hn]
  | _ => rfl

/-- The entry of a port is not below an entry. -/
theorem poeEntry_ne_poePath {port port' name : String} (hname : ']' ∉ name.toList) :
    poeEntry port' ≠ poePath port name := by
  intro heq
  have hlast : (poeEntry port').getLast? = some ']' := List.getLast?_concat
  rw [heq, poePath, child, List.getLast?_append] at hlast
  have hmem : ']' ∈ '/' :: name.toList := by
    refine List.mem_of_getLast? ?_
    rw [List.getLast?_cons] at hlast ⊢
    exact hlast
  rcases List.mem_cons.mp hmem with h | h
  · exact absurd h (by decide)
  · exact hname h

theorem poeEntry_ne_authmgrPath (port port' name : String) : poeEntry port' ≠ authmgrPath port name := by
  intro heq
  have hsecond := congrArg (·[1]?) heq
  cases hsecond

namespace Fits

variable {leaves : Leaves}

theorem samePorts {l l' : Leaves} (h : Fits l) (hsame : SamePorts l l') : Fits l' := by
  refine ⟨fun port => ?_, fun port => ?_, fun port => ?_, fun port => ?_⟩
  · rw [guestVlan_setPath, ((hsame port).2 _).1]
    exact h.guestVid port
  · rw [unauthorizedVlan_setPath, ((hsame port).2 _).1]
    exact h.authFailVid port
  · rw [((hsame port).2 _).2, ((hsame port).2 _).2]
    exact h.powerLimit port
  · rw [(hsame port).1]
    exact h.entry port

/-- A leaf of the 802.1X settings is set. -/
theorem authmgr (h : Fits leaves) (port : String) {name : String} (hname : '/' ∉ name.toList) {v : Json}
    (hv : NumberFits 16 (some v)) :
    Fits (Function.update leaves (authmgrPath port name) (some v)) := by
  refine ⟨fun port' => ?_, fun port' => ?_, fun port' => ?_, fun port' => ?_⟩
  · rw [guestVlan_setPath, update_authmgrPath _ _ _ hname (by decide)]
    split
    · exact hv
    · exact h.guestVid port'
  · rw [unauthorizedVlan_setPath, update_authmgrPath _ _ _ hname (by decide)]
    split
    · exact hv
    · exact h.authFailVid port'
  · rw [Function.update_of_ne (authmgrPath_ne_poePath _ _ _ _).symm,
      Function.update_of_ne (authmgrPath_ne_poePath _ _ _ _).symm]
    exact h.powerLimit port'
  · rw [Function.update_of_ne (poeEntry_ne_authmgrPath _ _ _)]
    exact h.entry port'

/-- Only leaves of the PoE settings have changed, and the limits are such limits. -/
theorem poe (h : Fits leaves) {leaves' : Leaves}
    (hsame : ∀ q, (∀ port name, ']' ∉ name.toList → q ≠ poePath port name) → leaves' q = leaves q)
    (hlimit : ∀ port, isUser (leaves' (poePath port "power_limit_type")) = true →
      ∃ n < 2 ^ 32, leaves' (poePath port "power_limit") = some (number n)) : Fits leaves' := by
  refine ⟨fun port => ?_, fun port => ?_, hlimit, fun port => ?_⟩
  · rw [guestVlan_setPath, hsame _ fun _ _ _ => authmgrPath_ne_poePath _ _ _ _]
    exact h.guestVid port
  · rw [unauthorizedVlan_setPath, hsame _ fun _ _ _ => authmgrPath_ne_poePath _ _ _ _]
    exact h.authFailVid port
  · rw [hsame _ fun _ _ hname => poeEntry_ne_poePath hname]
    exact h.entry port

/-- A setting of a PoE port other than the limit. -/
theorem poeSetting (h : Fits leaves) (port : String) {name : String} (hslash : '/' ∉ name.toList)
    (hname : ']' ∉ name.toList) (hlimit : name ≠ "power_limit" ∧ name ≠ "power_limit_type") (v : Json) :
    Fits (Function.update leaves (poePath port name) (some v)) := by
  refine h.poe (fun q hq => Function.update_of_ne (hq port name hname) _ _) fun port' => ?_
  rw [update_poePath _ _ _ hslash (by decide), update_poePath _ _ _ hslash (by decide),
    if_neg fun hsame => hlimit.2 hsame.2, if_neg fun hsame => hlimit.1 hsame.2]
  exact h.powerLimit port'

/-- The requests keep it. -/
theorem request {op : Op} {p : Path} {v : Json} (hop : leafRequest op = some (p, v)) (hfits : OpFits op)
    (h : Fits leaves) : Fits (store leaves (given p v)) := by
  cases op <;> simp only [leafRequest, Option.some.injEq, reduceCtorEq] at hop
  case dot1xPaeSet port b =>
    rw [pae.store_request hop rfl]
    exact h.authmgr port (by decide) (numberFits_str _)
  case dot1xCtrlSet port mode =>
    rw [portCtrl.store_request hop rfl]
    exact h.authmgr port (by decide) (numberFits_str _)
  case dot1xHostSet port mode =>
    rw [hostMode.store_request hop rfl]
    exact h.authmgr port (by decide) (numberFits_str _)
  case dot1xGuestVlanSet port vid =>
    rw [guestVlan.store_request hop rfl]
    exact h.authmgr port (by decide) (numberFits_number hfits)
  case dot1xAuthFailVlanSet port vid =>
    rw [unauthorizedVlan.store_request hop rfl]
    exact h.authmgr port (by decide) (numberFits_number hfits)
  case poePortAdminSet port up =>
    rw [adminMode.store_request hop rfl]
    exact h.poeSetting port (by decide) (by decide) (by decide) _
  case poePortDetectionSet port mode =>
    rw [detectionMode.store_request hop rfl]
    exact h.poeSetting port (by decide) (by decide) (by decide) _
  case poePortPrioritySet port p =>
    rw [priority.store_request hop rfl]
    exact h.poeSetting port (by decide) (by decide) (by decide) _
  case poePortPowerLimitSet port userDefined limit =>
    refine h.poe (fun q hq => store_ne (fun g hg => ?_) leaves) fun port' => ?_
    · cases hop
      obtain ⟨name, hname, hpath⟩ := given_powerLimit hg
      rw [hpath]
      exact (hq port name hname).symm
    · simp (disch := decide) only [store_powerLimit hop]
      by_cases hport : port' = port
      · subst hport
        cases userDefined with
        | true =>
          simp only [true_and, and_self, reduceIte]
          exact fun _ => ⟨limit, hfits, rfl⟩
        | false => simp [isUser]
      · simpa [hport] using h.powerLimit port'

end Fits

end Ucentral.Plat
