import Ucentral.Lib.Yang
import Ucentral.Plat.Dot1x
import Ucentral.Plat.Poe

/-! The settings of the ports as leaves of the configuration of the switch.

    Each `gnma_*_set` sends a path and a JSON object for it, and each `gnma_*_get` looks for a member of
    the object that comes back. The abstract switches of the 802.1X and the PoE settings are what such
    requests make of a server that keeps its leaves. -/

namespace Ucentral.Plat
open CJson Yang

/-! ### Leaves -/

/-- A setting with a key: where it is set and where it is read, the name of its leaf there, the member
    that is sent and looked for, and the value in it. -/
structure Leaf (κ α : Type) where
  setUnder : κ → Path
  getUnder : κ → Path
  name : String
  member : String
  write : α → Json
  read : Ptr → Got α

namespace Leaf

variable {κ α : Type}

def setPath (l : Leaf κ α) (k : κ) : Path := child (l.setUnder k) l.name

def getPath (l : Leaf κ α) (k : κ) : Path := child (l.getUnder k) l.name

/-- What the set sends. -/
def request (l : Leaf κ α) (k : κ) (a : α) : Path × Json :=
  (l.setPath k, .obj [(l.member, l.write a)])

/-- What the get makes of the answer; there is none if the get fails or its text is no JSON. -/
def result (l : Leaf κ α) (answer : Option Json) : Got α :=
  if answer.isSome then l.read (getItem answer l.member) else .fails

end Leaf

/-- A member that is not a string is taken as not there. -/
def readString {α : Type} (f : String → Got α) (j : Ptr) : Got α :=
  match getStringValue j with
  | none => .missing
  | some s => f s

/-- A number, stored to an integer of `w` bits. -/
def readNumber (w : ℕ) (j : Ptr) : Got ℕ :=
  if isNumber j then .value ((getNumberValue j).toUInt w) else .missing

def readBool (j : Ptr) : Got Bool := if isBool j then .value (isTrue j) else .missing

def number (n : ℕ) : Json := .num (.fin (n : ℚ))

/-- The entry of a port in a list. -/
def entry (list : String) (port : String) : Path := list.toList ++ port.toList ++ [']']

/-- The entry of a port in `authmgr-port-config`. -/
def authmgrEntry (port : String) : Path :=
  entry "/openconfig-authmgr:authmgr/authmgr-port-config/interface[name=" port

/-- A leaf of a port there, which is set in its configuration and read in its state. -/
def authmgrLeaf {α : Type} (name member : String) (write : α → Json) (read : Ptr → Got α) :
    Leaf String α where
  setUnder port := child (authmgrEntry port) "config"
  getUnder port := child (authmgrEntry port) "state"
  name := name
  member := member
  write := write
  read := read

/-- `gnma_port_ieee8021x_pae_mode_set` and `_get`. -/
def pae : Leaf String Bool :=
  authmgrLeaf "port-pae-role" "openconfig-authmgr:port-pae-role"
    (fun isAuthenticator => .str (if isAuthenticator then "AUTHENTICATOR" else "NONE"))
    (readString fun s => .value (s = "AUTHENTICATOR"))

/-- `gnma_port_ieee8021x_port_ctrl_set` and `_get`. -/
def portCtrl : Leaf String PortControlMode :=
  authmgrLeaf "port-control-mode" "openconfig-authmgr:port-control-mode"
    (fun mode => .str (match mode with
      | .forceAuthorized => "FORCE_AUTHORIZED"
      | .forceUnauthorized => "FORCE_UNAUTHORIZED"
      | .auto => "AUTO"))
    (readString fun s =>
      if s = "FORCE_AUTHORIZED" then .value .forceAuthorized
      else if s = "FORCE_UNAUTHORIZED" then .value .forceUnauthorized
      else .value .auto)

/-- `gnma_port_ieee8021x_port_host_mode_set` and `_get`. -/
def hostMode : Leaf String PortHostMode :=
  authmgrLeaf "host-control-mode" "openconfig-authmgr:host-control-mode"
    (fun mode => .str (match mode with
      | .multiAuth => "MULTI_AUTH"
      | .multiDomain => "MULTI_DOMAIN"
      | .multiHost => "MULTI_HOST"
      | .singleHost => "SINGLE_HOST"))
    (readString fun s =>
      if s = "MULTI_AUTH" then .value .multiAuth
      else if s = "MULTI_DOMAIN" then .value .multiDomain
      else if s = "MULTI_HOST" then .value .multiHost
      else if s = "SINGLE_HOST" then .value .singleHost
      else .fails)

/-- `gnma_port_ieee8021x_guest_vlan_set` and `_get`. -/
def guestVlan : Leaf String ℕ :=
  authmgrLeaf "guest-vlan-id" "openconfig-authmgr:guest-vlan-id" number (readNumber 16)

/-- `gnma_port_ieee8021x_unauthorized_vlan_set` and `_get`. -/
def unauthorizedVlan : Leaf String ℕ :=
  authmgrLeaf "auth-fail-vlan-id" "openconfig-authmgr:auth-fail-vlan-id" number (readNumber 16)

/-- The entry of a port in `POE_PORT_LIST`. -/
def poeEntry (port : String) : Path := entry "/sonic-poe:sonic-poe/POE_PORT/POE_PORT_LIST[ifname=" port

/-- A leaf of a port there. -/
def poeLeaf {α : Type} (name member : String) (write : α → Json) (read : Ptr → Got α) :
    Leaf String α where
  setUnder := poeEntry
  getUnder := poeEntry
  name := name
  member := member
  write := write
  read := read

/-- `gnma_poe_port_admin_mode_set` and `_get`. -/
def adminMode : Leaf String Bool := poeLeaf "admin_mode" "sonic-poe:admin_mode" .bool readBool

/-- `gnma_poe_port_detection_mode_set` and `_get`. -/
def detectionMode : Leaf String PoeDetectionMode :=
  poeLeaf "detection_mode" "sonic-poe:detection_mode"
    (fun mode => .str (match mode with
      | .pt2Dot3af => "TWO_PT_DOT3AF"
      | .pt2Dot3afLeg => "TWO_PT_DOT3AF_LEG"
      | .pt4Dot3af => "FOUR_PT_DOT3AF"
      | .pt4Dot3afLeg => "FOUR_PT_DOT3AF_LEG"
      | .dot3bt => "DOT3BT"
      | .dot3btLeg => "DOT3BT_LEG"
      | .leg => "LEGACY"))
    (readString fun s =>
      if s = "TWO_PT_DOT3AF" then .value .pt2Dot3af
      else if s = "TWO_PT_DOT3AF_LEG" then .value .pt2Dot3afLeg
      else if s = "FOUR_PT_DOT3AF" then .value .pt4Dot3af
      else if s = "FOUR_PT_DOT3AF_LEG" then .value .pt4Dot3afLeg
      else if s = "DOT3BT" then .value .dot3bt
      else if s = "DOT3BT_LEG" then .value .dot3btLeg
      else if s = "LEGACY" then .value .leg
      else .fails)

/-- `gnma_poe_port_priority_set` and `_get`. -/
def priority : Leaf String PoePriority :=
  poeLeaf "priority" "sonic-poe:priority"
    (fun p => .str (match p with
      | .low => "LOW"
      | .medium => "MEDIUM"
      | .high => "HIGH"
      | .critical => "CRITICAL"))
    (readString fun s =>
      if s = "LOW" then .value .low
      else if s = "MEDIUM" then .value .medium
      else if s = "HIGH" then .value .high
      else if s = "CRITICAL" then .value .critical
      else .fails)

/-- `gnma_poe_port_power_limit_set`: the value is sent only with the type `USER`. -/
def powerLimitRequest (port : String) (userDefined : Bool) (limit : ℕ) : Path × Json :=
  (poeEntry port, .obj [("sonic-poe:POE_PORT_LIST", .arr [.obj
    ([("power_limit_type", .str (if userDefined then "USER" else "CLASS_BASED")), ("ifname", .str port)] ++
      if userDefined then [("power_limit", number limit)] else [])])])

/-- The limit in the entry of a port: without a value it is as if there was no type. -/
def readPowerLimit (type limit : Ptr) : Got (Bool × ℕ) :=
  match getStringValue type with
  | none => .missing
  | some type =>
    if !isNumber limit then .missing
    else if type = "CLASS_BASED" then .value (false, 0)
    else .value (true, (getNumberValue limit).toUInt 32)

/-- `gnma_poe_port_power_limit_get`. -/
def powerLimitResult (answer : Option Json) : Got (Bool × ℕ) :=
  if answer.isNone then .fails
  else
    let arr := getItem answer "sonic-poe:POE_PORT_LIST"
    let port := getArrayItem arr 0
    if !isArray arr || !isObject port then .missing
    else readPowerLimit (getItem port "power_limit_type") (getItem port "power_limit")

/-- The leaf that a request sets, or the entry. -/
def leafRequest : Op → Option (Path × Json)
  | .dot1xPaeSet port isAuthenticator => some (pae.request port isAuthenticator)
  | .dot1xCtrlSet port mode => some (portCtrl.request port mode)
  | .dot1xHostSet port mode => some (hostMode.request port mode)
  | .dot1xGuestVlanSet port vid => some (guestVlan.request port vid)
  | .dot1xAuthFailVlanSet port vid => some (unauthorizedVlan.request port vid)
  | .poePortAdminSet port enabled => some (adminMode.request port enabled)
  | .poePortDetectionSet port mode => some (detectionMode.request port mode)
  | .poePortPowerLimitSet port userDefined limit => some (powerLimitRequest port userDefined limit)
  | .poePortPrioritySet port p => some (priority.request port p)
  | _ => none

/-! ### What is at the leaves -/

/-- Where an 802.1X setting of a port is. -/
def authmgrPath (port name : String) : Path :=
  child (child (authmgrEntry port) "config") name

/-- Where a PoE setting of a port is. -/
def poePath (port name : String) : Path := child (poeEntry port) name

@[simp] theorem pae_setPath (port : String) : pae.setPath port = authmgrPath port "port-pae-role" := rfl

@[simp] theorem portCtrl_setPath (port : String) :
    portCtrl.setPath port = authmgrPath port "port-control-mode" := rfl

@[simp] theorem hostMode_setPath (port : String) :
    hostMode.setPath port = authmgrPath port "host-control-mode" := rfl

@[simp] theorem guestVlan_setPath (port : String) :
    guestVlan.setPath port = authmgrPath port "guest-vlan-id" := rfl

@[simp] theorem unauthorizedVlan_setPath (port : String) :
    unauthorizedVlan.setPath port = authmgrPath port "auth-fail-vlan-id" := rfl

@[simp] theorem adminMode_setPath (port : String) : adminMode.setPath port = poePath port "admin_mode" := rfl

@[simp] theorem detectionMode_setPath (port : String) :
    detectionMode.setPath port = poePath port "detection_mode" := rfl

@[simp] theorem priority_setPath (port : String) : priority.setPath port = poePath port "priority" := rfl

/-- What a leaf says, if it says anything. -/
def Got.getD {α : Type} (g : Got α) (a : α) : α :=
  match g with
  | .value b => b
  | _ => a

def Leaf.at_ {κ α : Type} (l : Leaf κ α) (leaves : Leaves) (k : κ) : Got α := l.read (leaves (l.setPath k))

/-- The number at a leaf, as it is sent. -/
def numberAt (leaf : Ptr) : ℕ :=
  match leaf with
  | some (.num (.fin q)) => q.num.toNat
  | _ => 0

/-- The 802.1X settings of a port. -/
def dot1xAt (leaves : Leaves) (port : String) : CachedDot1x where
  controlMode := (portCtrl.at_ leaves port).getD .forceAuthorized
  hostMode := (hostMode.at_ leaves port).getD .multiAuth
  authFailVid := numberAt (leaves (unauthorizedVlan.setPath port))
  guestVid := numberAt (leaves (guestVlan.setPath port))
  isAuthenticator := (pae.at_ leaves port).getD false

/-- The limit of a port is user defined. -/
def isUser (leaf : Ptr) : Bool :=
  match getStringValue leaf with
  | none => false
  | some type => type ≠ "CLASS_BASED"

/-- The PoE settings of a port; the value that is left behind a class based limit does not count. -/
def poeAt (leaves : Leaves) (port : String) : PoeSettings where
  isAdminModeUp := (adminMode.at_ leaves port).getD false
  detectionMode := (detectionMode.at_ leaves port).getD .pt2Dot3af
  powerLimit :=
    if isUser (leaves (poePath port "power_limit_type")) then numberAt (leaves (poePath port "power_limit"))
    else 0
  isPowerLimitUserDefined := isUser (leaves (poePath port "power_limit_type"))
  priority := (priority.at_ leaves port).getD .low

/-! ### Paths -/

theorem child_eq {p q : Path} {name name' : String} (hname : '/' ∉ name.toList)
    (hname' : '/' ∉ name'.toList) (h : child p name = child q name') : p = q ∧ name = name' := by
  have hsplit := split_child p hname
  rw [h, split_child q hname'] at hsplit
  injection hsplit with hlast hrest
  injection hrest with _ hrest
  exact ⟨List.reverse_injective hrest.symm, String.toList_inj.mp (List.reverse_injective hlast.symm)⟩

theorem entry_inj {list port port' : String} (h : entry list port = entry list port') : port = port' := by
  unfold entry at h
  rw [List.append_assoc, List.append_assoc] at h
  exact String.toList_inj.mp (List.append_cancel_right (List.append_cancel_left h))

/-! ### What a set does -/

/-- Neither an object nor an array. -/
def IsScalar : Json → Bool
  | .obj _ | .arr _ => false
  | _ => true

theorem given_scalar (p : Path) (member : String) {v : Json} (hv : IsScalar v = true) :
    given p (.obj [(member, v)]) = [(p, v)] := by
  cases v <;> first | rfl | cases hv

/-- A leaf is set alone. -/
theorem Leaf.store_request {κ α : Type} (l : Leaf κ α) {k : κ} {a : α} {p : Path} {v : Json}
    (h : l.request k a = (p, v)) (ha : IsScalar (l.write a) = true) (leaves : Leaves) :
    store leaves (given p v) = Function.update leaves (l.setPath k) (some (l.write a)) := by
  cases h
  rw [given_scalar _ _ ha]
  rfl

theorem numberAt_number (n : ℕ) : numberAt (some (number n)) = n := by
  show ((n : ℚ).num).toNat = n
  rw [Rat.num_natCast]
  rfl

theorem authmgrPath_eq {port port' name name' : String} (hname : '/' ∉ name.toList)
    (hname' : '/' ∉ name'.toList) (h : authmgrPath port name = authmgrPath port' name') :
    port = port' ∧ name = name' := by
  obtain ⟨hbase, hsame⟩ := child_eq hname hname' h
  exact ⟨entry_inj (child_eq (by decide) (by decide) hbase).1, hsame⟩

theorem poePath_eq {port port' name name' : String} (hname : '/' ∉ name.toList)
    (hname' : '/' ∉ name'.toList) (h : poePath port name = poePath port' name') :
    port = port' ∧ name = name' := by
  obtain ⟨hbase, hsame⟩ := child_eq hname hname' h
  exact ⟨entry_inj hbase, hsame⟩

/-- The leaves after one of them has been set, of those whose paths tell the port and the name. -/
theorem update_pathOf (path : String → String → Path) {port port' name name' : String}
    (heq : path port' name' = path port name → port' = port ∧ name' = name) (leaves : Leaves) (v : Ptr) :
    Function.update leaves (path port name) v (path port' name') =
      if port' = port ∧ name = name' then v else leaves (path port' name') := by
  by_cases h : port' = port ∧ name = name'
  · obtain ⟨rfl, rfl⟩ := h
    simp
  · rw [if_neg h]
    have hne : path port' name' ≠ path port name := by
      intro hpath
      obtain ⟨hport, hsame⟩ := heq hpath
      exact h ⟨hport, hsame.symm⟩
    exact Function.update_of_ne hne v leaves

/-- The 802.1X leaves after one of them has been set. -/
theorem update_authmgrPath (leaves : Leaves) (port port' : String) {name name' : String}
    (hname : '/' ∉ name.toList) (hname' : '/' ∉ name'.toList) (v : Ptr) :
    Function.update leaves (authmgrPath port name) v (authmgrPath port' name') =
      if port' = port ∧ name = name' then v else leaves (authmgrPath port' name') :=
  update_pathOf authmgrPath (authmgrPath_eq hname' hname) leaves v

/-- The PoE leaves after one of them has been set. -/
theorem update_poePath (leaves : Leaves) (port port' : String) {name name' : String}
    (hname : '/' ∉ name.toList) (hname' : '/' ∉ name'.toList) (v : Ptr) :
    Function.update leaves (poePath port name) v (poePath port' name') =
      if port' = port ∧ name = name' then v else leaves (poePath port' name') :=
  update_pathOf poePath (poePath_eq hname' hname) leaves v

/-- No leaf is both. -/
theorem authmgrPath_ne_poePath (port name port' name' : String) :
    authmgrPath port name ≠ poePath port' name' := by
  intro heq
  have hsecond := congrArg (·[1]?) heq
  cases hsecond

theorem dot1xAt_congr {leaves leaves' : Leaves}
    (h : ∀ port name, leaves' (authmgrPath port name) = leaves (authmgrPath port name)) :
    dot1xAt leaves' = dot1xAt leaves := by
  funext port
  simp [dot1xAt, Leaf.at_, h]

theorem poeAt_congr {leaves leaves' : Leaves}
    (h : ∀ port name, leaves' (poePath port name) = leaves (poePath port name)) :
    poeAt leaves' = poeAt leaves := by
  funext port
  simp [poeAt, Leaf.at_, h]

/-- The 802.1X settings after one of them has been set. -/
theorem dot1xAt_update (leaves : Leaves) (port port' name : String) (hname : '/' ∉ name.toList) (v : Json) :
    dot1xAt (Function.update leaves (authmgrPath port name) (some v)) port' =
      if port' = port then
        { controlMode := if name = "port-control-mode" then (portCtrl.read (some v)).getD .forceAuthorized
            else (dot1xAt leaves port).controlMode
          hostMode := if name = "host-control-mode" then (hostMode.read (some v)).getD .multiAuth
            else (dot1xAt leaves port).hostMode
          authFailVid := if name = "auth-fail-vlan-id" then numberAt (some v)
            else (dot1xAt leaves port).authFailVid
          guestVid := if name = "guest-vlan-id" then numberAt (some v) else (dot1xAt leaves port).guestVid
          isAuthenticator := if name = "port-pae-role" then (pae.read (some v)).getD false
            else (dot1xAt leaves port).isAuthenticator }
      else dot1xAt leaves port' := by
  unfold dot1xAt Leaf.at_
  simp only [portCtrl_setPath, hostMode_setPath, unauthorizedVlan_setPath, guestVlan_setPath, pae_setPath]
  rw [update_authmgrPath _ _ _ hname (by decide), update_authmgrPath _ _ _ hname (by decide),
    update_authmgrPath _ _ _ hname (by decide), update_authmgrPath _ _ _ hname (by decide),
    update_authmgrPath _ _ _ hname (by decide)]
  by_cases hport : port' = port
  · subst hport
    simp only [true_and, if_true]
    congr 1 <;> split <;> rfl
  · simp [hport]

/-- The PoE settings after a leaf of one of them has been set. -/
theorem poeAt_update (leaves : Leaves) (port port' name : String) (hname : '/' ∉ name.toList) (v : Json) :
    poeAt (Function.update leaves (poePath port name) (some v)) port' =
      if port' = port then
        { isAdminModeUp := if name = "admin_mode" then (adminMode.read (some v)).getD false
            else (poeAt leaves port).isAdminModeUp
          detectionMode := if name = "detection_mode" then (detectionMode.read (some v)).getD .pt2Dot3af
            else (poeAt leaves port).detectionMode
          powerLimit :=
            if isUser (if name = "power_limit_type" then some v else leaves (poePath port "power_limit_type"))
            then numberAt (if name = "power_limit" then some v else leaves (poePath port "power_limit"))
            else 0
          isPowerLimitUserDefined :=
            isUser (if name = "power_limit_type" then some v else leaves (poePath port "power_limit_type"))
          priority := if name = "priority" then (priority.read (some v)).getD .low
            else (poeAt leaves port).priority }
      else poeAt leaves port' := by
  unfold poeAt Leaf.at_
  simp only [adminMode_setPath, detectionMode_setPath, priority_setPath]
  rw [update_poePath _ _ _ hname (by decide), update_poePath _ _ _ hname (by decide),
    update_poePath _ _ _ hname (by decide), update_poePath _ _ _ hname (by decide),
    update_poePath _ _ _ hname (by decide)]
  by_cases hport : port' = port
  · subst hport
    simp only [true_and, if_true]
    congr 1 <;> split <;> rfl
  · simp [hport]

/-- The leaves of a power limit are those of an entry. -/
theorem given_powerLimit {port : String} {userDefined : Bool} {limit : ℕ} {g : Path × Json}
    (hg : g ∈ given (powerLimitRequest port userDefined limit).1
      (powerLimitRequest port userDefined limit).2) :
    ∃ name, ']' ∉ name.toList ∧ g.1 = poePath port name := by
  obtain ⟨m, hm, rfl⟩ := List.mem_map.mp hg
  have hname : m.1 ∈ ["power_limit_type", "ifname", "power_limit"] := by
    cases userDefined <;> simp at hm
    · rcases hm with rfl | rfl <;> simp
    · rcases hm with rfl | rfl | rfl <;> simp
  have hbracket : ∀ name ∈ ["power_limit_type", "ifname", "power_limit"], ']' ∉ name.toList := by decide
  exact ⟨m.1, hbracket m.1 hname, rfl⟩

/-- What the request for a power limit leaves at the entries of the ports. -/
theorem store_powerLimit {port : String} {userDefined : Bool} {limit : ℕ} {p : Path} {v : Json}
    (h : powerLimitRequest port userDefined limit = (p, v)) (leaves : Leaves) (port' : String)
    {name : String} (hname : '/' ∉ name.toList) :
    store leaves (given p v) (poePath port' name) =
      if port' = port ∧ "power_limit" = name ∧ userDefined = true then some (number limit)
      else if port' = port ∧ "ifname" = name then some (.str port)
      else if port' = port ∧ "power_limit_type" = name then
        some (.str (if userDefined then "USER" else "CLASS_BASED"))
      else leaves (poePath port' name) := by
  cases h
  cases userDefined with
  | true =>
    change Function.update (Function.update (Function.update leaves (poePath port "power_limit_type")
      (some (.str "USER"))) (poePath port "ifname") (some (.str port))) (poePath port "power_limit")
      (some (number limit)) (poePath port' name) = _
    rw [update_poePath _ _ _ (by decide) hname, update_poePath _ _ _ (by decide) hname,
      update_poePath _ _ _ (by decide) hname]
    simp
  | false =>
    change Function.update (Function.update leaves (poePath port "power_limit_type")
      (some (.str "CLASS_BASED"))) (poePath port "ifname") (some (.str port)) (poePath port' name) = _
    rw [update_poePath _ _ _ (by decide) hname, update_poePath _ _ _ (by decide) hname]
    simp

theorem store_dot1x {op : Op} {p : Path} {v : Json} (h : leafRequest op = some (p, v)) (leaves : Leaves) :
    dot1xAt (store leaves (given p v)) = dot1xStore op (dot1xAt leaves) := by
  have hpoe : ∀ {port name : String} {v : Json},
      dot1xAt (Function.update leaves (poePath port name) (some v)) = dot1xAt leaves :=
    dot1xAt_congr fun _ _ => Function.update_of_ne (authmgrPath_ne_poePath _ _ _ _) _ _
  cases op <;> simp only [leafRequest, Option.some.injEq, reduceCtorEq] at h
  case dot1xPaeSet port b =>
    rw [pae.store_request h rfl]
    funext port'
    rw [pae_setPath, dot1xAt_update _ _ _ _ (by decide)]
    by_cases hport : port' = port
    · subst hport
      simp [dot1xStore, pae, authmgrLeaf, readString, Got.getD]
    · simp [dot1xStore, hport]
  case dot1xCtrlSet port mode =>
    rw [portCtrl.store_request h rfl]
    funext port'
    rw [portCtrl_setPath, dot1xAt_update _ _ _ _ (by decide)]
    by_cases hport : port' = port
    · subst hport
      cases mode <;> simp [dot1xStore, portCtrl, authmgrLeaf, readString, Got.getD]
    · simp [dot1xStore, hport]
  case dot1xHostSet port mode =>
    rw [hostMode.store_request h rfl]
    funext port'
    rw [hostMode_setPath, dot1xAt_update _ _ _ _ (by decide)]
    by_cases hport : port' = port
    · subst hport
      cases mode <;> simp [dot1xStore, hostMode, authmgrLeaf, readString, Got.getD]
    · simp [dot1xStore, hport]
  case dot1xGuestVlanSet port vid =>
    rw [guestVlan.store_request h rfl]
    funext port'
    rw [guestVlan_setPath, dot1xAt_update _ _ _ _ (by decide)]
    by_cases hport : port' = port
    · subst hport
      simp [dot1xStore, guestVlan, authmgrLeaf, numberAt_number]
    · simp [dot1xStore, hport]
  case dot1xAuthFailVlanSet port vid =>
    rw [unauthorizedVlan.store_request h rfl]
    funext port'
    rw [unauthorizedVlan_setPath, dot1xAt_update _ _ _ _ (by decide)]
    by_cases hport : port' = port
    · subst hport
      simp [dot1xStore, unauthorizedVlan, authmgrLeaf, numberAt_number]
    · simp [dot1xStore, hport]
  case poePortAdminSet port up =>
    rw [adminMode.store_request h rfl]
    exact hpoe
  case poePortDetectionSet port mode =>
    rw [detectionMode.store_request h rfl]
    exact hpoe
  case poePortPrioritySet port p =>
    rw [priority.store_request h rfl]
    exact hpoe
  case poePortPowerLimitSet port userDefined limit =>
    cases h
    refine dot1xAt_congr fun port' name => store_ne (fun g hg => ?_) leaves
    obtain ⟨name', -, hpath⟩ := given_powerLimit hg
    rw [hpath]
    exact (authmgrPath_ne_poePath _ _ _ _).symm

theorem store_poe {op : Op} {p : Path} {v : Json} (h : leafRequest op = some (p, v)) (leaves : Leaves) :
    poeAt (store leaves (given p v)) = poeStore op (poeAt leaves) := by
  have hdot1x : ∀ {port name : String} {v : Json},
      poeAt (Function.update leaves (authmgrPath port name) (some v)) = poeAt leaves :=
    poeAt_congr fun _ _ => Function.update_of_ne (authmgrPath_ne_poePath _ _ _ _).symm _ _
  cases op <;> simp only [leafRequest, Option.some.injEq, reduceCtorEq] at h
  case dot1xPaeSet port b =>
    rw [pae.store_request h rfl]
    exact hdot1x
  case dot1xCtrlSet port mode =>
    rw [portCtrl.store_request h rfl]
    exact hdot1x
  case dot1xHostSet port mode =>
    rw [hostMode.store_request h rfl]
    exact hdot1x
  case dot1xGuestVlanSet port vid =>
    rw [guestVlan.store_request h rfl]
    exact hdot1x
  case dot1xAuthFailVlanSet port vid =>
    rw [unauthorizedVlan.store_request h rfl]
    exact hdot1x
  case poePortAdminSet port up =>
    rw [adminMode.store_request h rfl]
    funext port'
    rw [adminMode_setPath, poeAt_update _ _ _ _ (by decide)]
    by_cases hport : port' = port
    · subst hport
      cases up <;> simp [poeStore, adminMode, poeLeaf, readBool, Got.getD, isBool, CJson.isTrue,
        poeAt]
    · simp [poeStore, hport]
  case poePortDetectionSet port mode =>
    rw [detectionMode.store_request h rfl]
    funext port'
    rw [detectionMode_setPath, poeAt_update _ _ _ _ (by decide)]
    by_cases hport : port' = port
    · subst hport
      cases mode <;> simp [poeStore, detectionMode, poeLeaf, readString, Got.getD, poeAt]
    · simp [poeStore, hport]
  case poePortPrioritySet port p =>
    rw [priority.store_request h rfl]
    funext port'
    rw [priority_setPath, poeAt_update _ _ _ _ (by decide)]
    by_cases hport : port' = port
    · subst hport
      cases p <;> simp [poeStore, priority, poeLeaf, readString, Got.getD, poeAt]
    · simp [poeStore, hport]
  case poePortPowerLimitSet port userDefined limit =>
    funext port'
    simp (disch := decide) only [poeAt, Leaf.at_, adminMode_setPath, detectionMode_setPath,
      priority_setPath, store_powerLimit h]
    by_cases hport : port' = port
    · subst hport
      cases userDefined <;> simp [poeStore, isUser, numberAt_number, poeAt, Leaf.at_]
    · simp [poeStore, hport, poeAt, Leaf.at_]

end Ucentral.Plat
