import Ucentral.Lib.CString
import Ucentral.Lib.Json
import Ucentral.Lib.ParserStates
import Ucentral.Lib.Slots
import Ucentral.Plat.Cfg

/-! The authenticated clients of a port, picked out of those of the switch.

    One pass counts the clients of the port and sizes the array, another fills it. The first looks at
    the name in the state of a client, the second at the name of the client itself:

        { "name": "Ethernet1", "state": { "name": "Ethernet2", ... } } -/

namespace Ucentral.Plat.AuthClients
open CJson Parse CString Slots

/-- `struct plat_ieee8021x_authenticated_client_info`, its texts by their bytes. -/
structure ClientInfo where
  authMethod : List UInt8
  macAddr : List UInt8
  sessionTime : ℕ
  username : List UInt8
  vlanType : List UInt8
  vid : ℕ
  deriving DecidableEq

/-- `strncpy(field, s, sizeof(field) - 1)` into a field of `n + 1` zeros. -/
def field (n : ℕ) (s : String) : List UInt8 := strncpy n s ++ [0]

/-- As `calloc` leaves it. -/
def ClientInfo.zero : ClientInfo := ⟨field 31 "", field 17 "", 0, field 63 "", field 31 "", 0⟩

/-- `struct plat_ieee8021x_port_info`. -/
structure PortInfo where
  clientArr : Option (ℕ → ClientInfo)
  arrLen : ℕ

def strOf (j : Ptr) : String := (getStringValue j).getD ""

/-! ### The two passes -/

def clientName (it : Json) : Ptr := getItem (some it) "name"

def clientState (it : Json) (key : String) : Ptr := getItem (getItem (some it) "state") key

/-- The first pass: how many clients there are; none if one has no string for a name. -/
def countLoop (port : String) : List Json → ℕ → Option ℕ
  | [], arrLen => some arrLen
  | it :: its, arrLen =>
    if isString (clientState it "name") then
      countLoop port its (if port = strOf (clientState it "name") then arrLen + 1 else arrLen)
    else none

/-- The second pass: the array, the next slot, how far the array has been written to, and the clients
    that the slots before were filled from. -/
structure Fill where
  slots : ℕ → ClientInfo
  i : ℕ
  touched : ℕ
  sources : List Json

def Fill.put (s : Fill) (f : ClientInfo → ClientInfo) : Fill :=
  { s with
    slots := Function.update s.slots s.i (f (s.slots s.i))
    touched := max s.touched (s.i + 1) }

/-- `info->... = ...` with `info = &state->client_arr[i]`. -/
def store (f : ClientInfo → ClientInfo) : Parser Fill Unit := Parser.fill fun s => s.put f

/-- The client has been read; `++i`. -/
def nextSlot (it : Json) : Parser Fill Unit :=
  Parser.fill fun s => { s with i := s.i + 1, sources := s.sources ++ [it] }

/-- The body of the second loop for a client of the port. -/
def fillClient (it : Json) : Parser Fill Unit := do
  let authMethod := clientState it "authenticated-method"
  let mac := clientState it "macaddress"
  let sessionTime := clientState it "session-time"
  let username := clientState it "user-name"
  let vlanType := clientState it "vlan-type"
  let vid := clientState it "vlan-id"
  need (isString authMethod)
  store fun info => { info with authMethod := field 31 (strOf authMethod) }
  need (isString mac)
  store fun info => { info with macAddr := field 17 (strOf mac) }
  store fun info => { info with sessionTime := (getNumberValue sessionTime).toUInt 64 }
  need (isString username)
  store fun info => { info with username := field 63 (strOf username) }
  need (isString vlanType)
  store fun info => { info with vlanType := field 31 (strOf vlanType) }
  store fun info => { info with vid := (getNumberValue vid).toUInt 16 }
  nextSlot it

/-- One turn of the second loop. -/
def fillTurn (port : String) (it : Json) : Parser Fill Unit := do
  need (isString (clientName it))
  Parser.when (port = strOf (clientName it)) (fillClient it)

/-- What a call leaves: what it returns, the port's state, the slots it asked room for, and the second
    pass up to where it stopped. -/
structure Parsed where
  ret : ℤ
  info : PortInfo
  room : ℕ
  fill : Fill

def emptyFill : Fill := ⟨fun _ => .zero, 0, 0, []⟩

def clientsOf (root : Ptr) : List Json :=
  children (getItem (getItem root "openconfig-authmgr:authmgr-authenticated-clients")
    "authenticated-client")

/-- `__ieee8021x_auth_clients_parse`, from the parsed answer on; `alloc` tells whether `calloc`
    succeeds. The label `err` drops the array. -/
def ieee8021xAuthClientsParse (alloc : Bool) (portId : ℕ) (root : Ptr) : Parsed :=
  let port := pidToName portId
  let err (room : ℕ) (fill : Fill) : Parsed := ⟨-1, ⟨none, 0⟩, room, fill⟩
  match countLoop port (clientsOf root) 0 with
  | none => err 0 emptyFill
  | some arrLen =>
    if arrLen = 0 then err 0 emptyFill
    else if !alloc then err 0 emptyFill
    else
      match forM (clientsOf root) (fillTurn port) emptyFill with
      | (.ok _, fill) => ⟨0, ⟨some fill.slots, arrLen⟩, arrLen, fill⟩
      | (.error _, fill) => err arrLen fill

/-! ### Clients of a port -/

/-- A client is of the port by its own name or by the name in its state. -/
inductive Naming
  | top | state
  deriving DecidableEq

def nameOf : Naming → Json → Ptr
  | .top, it => clientName it
  | .state, it => clientState it "name"

def OfPort (naming : Naming) (port : String) (it : Json) : Prop :=
  getStringValue (nameOf naming it) = some port

instance (naming : Naming) (port : String) (it : Json) : Decidable (OfPort naming port it) :=
  inferInstanceAs (Decidable (getStringValue (nameOf naming it) = some port))

/-- What is reported of a client. -/
def infoOf (it : Json) : ClientInfo where
  authMethod := field 31 (strOf (clientState it "authenticated-method"))
  macAddr := field 17 (strOf (clientState it "macaddress"))
  sessionTime := (getNumberValue (clientState it "session-time")).toUInt 64
  username := field 63 (strOf (clientState it "user-name"))
  vlanType := field 31 (strOf (clientState it "vlan-type"))
  vid := (getNumberValue (clientState it "vlan-id")).toUInt 16

/-- The slots hold the clients of the port and no others, and no slot is written that there was no
    room for. -/
def Sound (naming : Naming) (port : String) (clients : List Json) (p : Parsed) : Prop :=
  (p.ret = 0 → p.info.arrLen = p.fill.i ∧
    p.fill.sources = clients.filter (OfPort naming port) ∧
    ∃ slots, p.info.clientArr = some slots ∧
      upTo slots p.fill.i = p.fill.sources.map infoOf) ∧
  p.fill.touched ≤ p.room

/-! ### One turn -/

/-- All texts of a client are strings. -/
def HasTexts (it : Json) : Prop :=
  isString (clientState it "authenticated-method") = true ∧
    isString (clientState it "macaddress") = true ∧
    isString (clientState it "user-name") = true ∧ isString (clientState it "vlan-type") = true

/-- The second pass goes on after the client. -/
def Good (port : String) (it : Json) : Prop :=
  isString (clientName it) = true ∧ (OfPort .top port it → HasTexts it)

/-- A client that the second pass writes something of. -/
def Touches (port : String) (it : Json) : Prop :=
  OfPort .top port it ∧ isString (clientState it "authenticated-method") = true

instance (it : Json) : Decidable (HasTexts it) := inferInstanceAs (Decidable (_ ∧ _ ∧ _ ∧ _))

instance (port : String) (it : Json) : Decidable (Good port it) :=
  inferInstanceAs (Decidable (_ ∧ (_ → _)))

instance (port : String) (it : Json) : Decidable (Touches port it) :=
  inferInstanceAs (Decidable (_ ∧ _))

theorem ofPort_iff {naming : Naming} {port : String} {it : Json}
    (h : isString (nameOf naming it) = true) :
    OfPort naming port it ↔ port = strOf (nameOf naming it) := by
  unfold OfPort strOf
  obtain ⟨s, hs⟩ := Option.isSome_iff_exists.mp h
  rw [hs, Option.some.injEq, Option.getD_some]
  exact eq_comm

theorem isString_of_ofPort {naming : Naming} {port : String} {it : Json} (h : OfPort naming port it) :
    isString (nameOf naming it) = true :=
  Option.isSome_iff_exists.mpr ⟨port, h⟩

theorem put_put (s : Fill) (f g : ClientInfo → ClientInfo) :
    (s.put f).put g = s.put fun info => g (f info) := by
  unfold Fill.put
  dsimp only
  rw [Function.update_self, Function.update_idem, Nat.max_assoc, Nat.max_self]

theorem store_bind (f : ClientInfo → ClientInfo) (y : Unit → Parser Fill Unit) (s : Fill) :
    (store f >>= y) s = y () (s.put f) := rfl

/-- A client is filled into the next slot. -/
def Fill.add (s : Fill) (it : Json) : Fill where
  slots := Function.update s.slots s.i (infoOf it)
  i := s.i + 1
  touched := max s.touched (s.i + 1)
  sources := s.sources ++ [it]

theorem fillClient_run {it : Json} (h : HasTexts it) (s : Fill) :
    fillClient it s = (.ok (), s.add it) := by
  obtain ⟨hmethod, hmac, huser, hvlan⟩ := h
  unfold fillClient
  rw [need_bind, if_pos hmethod, store_bind, need_bind, if_pos hmac, store_bind, store_bind, need_bind,
    if_pos huser, store_bind, need_bind, if_pos hvlan, store_bind, store_bind]
  simp only [put_put]
  rfl

/-- A client with a text missing stops the pass, after its slot has been written to if the first of
    its texts is there. -/
theorem fillClient_stop {it : Json} (h : ¬ HasTexts it) (s : Fill) :
    ∃ t, fillClient it s = (.error .reject, t) ∧ t.touched =
      if isString (clientState it "authenticated-method") = true then max s.touched (s.i + 1)
      else s.touched := by
  unfold fillClient
  rw [need_bind]
  by_cases hmethod : isString (clientState it "authenticated-method") = true
  · rw [if_pos hmethod, if_pos hmethod, store_bind, need_bind]
    by_cases hmac : isString (clientState it "macaddress") = true
    · rw [if_pos hmac, store_bind, store_bind, need_bind]
      by_cases huser : isString (clientState it "user-name") = true
      · have hvlan : ¬ isString (clientState it "vlan-type") = true :=
          fun hvlan => h ⟨hmethod, hmac, huser, hvlan⟩
        rw [if_pos huser, store_bind, need_bind, if_neg hvlan]
        simp only [put_put]
        exact ⟨_, rfl, rfl⟩
      · rw [if_neg huser]
        simp only [put_put]
        exact ⟨_, rfl, rfl⟩
    · rw [if_neg hmac]
      exact ⟨_, rfl, rfl⟩
  · rw [if_neg hmethod, if_neg hmethod]
    exact ⟨s, rfl, rfl⟩

theorem when_decide_pos {q : Prop} [Decidable q] (h : q) (x : Parser Fill Unit) :
    Parser.when (decide q) x = x := if_pos (decide_eq_true h)

theorem when_decide_neg {q : Prop} [Decidable q] (h : ¬ q) (x : Parser Fill Unit) :
    Parser.when (decide q) x = pure () := if_neg fun hd => h (of_decide_eq_true hd)

theorem fillTurn_good {port : String} {it : Json} (h : Good port it) (s : Fill) :
    fillTurn port it s = (.ok (), if OfPort .top port it then s.add it else s) := by
  have hof : OfPort .top port it ↔ port = strOf (clientName it) := ofPort_iff h.1
  unfold fillTurn
  rw [need_bind, if_pos h.1]
  by_cases htop : OfPort .top port it
  · rw [if_pos htop, when_decide_pos (hof.mp htop), fillClient_run (h.2 htop)]
  · rw [if_neg htop, when_decide_neg (mt hof.mpr htop)]
    rfl

theorem fillTurn_stop {port : String} {it : Json} (h : ¬ Good port it) (s : Fill) :
    ∃ t, fillTurn port it s = (.error .reject, t) ∧
      t.touched = if Touches port it then max s.touched (s.i + 1) else s.touched := by
  unfold fillTurn
  rw [need_bind]
  by_cases hname : isString (clientName it) = true
  · have htop : OfPort .top port it ∧ ¬ HasTexts it := by
      by_contra hno
      exact h ⟨hname, fun htop => by_contra fun htexts => hno ⟨htop, htexts⟩⟩
    have hiff : OfPort .top port it ↔ port = strOf (clientName it) := ofPort_iff hname
    have hof := hiff.mp htop.1
    obtain ⟨t, hrun, ht⟩ := fillClient_stop htop.2 s
    refine ⟨t, ?_, ht.trans ?_⟩
    · rw [if_pos hname, when_decide_pos hof, hrun]
    · exact if_congr (and_iff_right htop.1).symm rfl rfl
  · have hno : ¬ Touches port it := fun ht => hname (isString_of_ofPort ht.1)
    rw [if_neg hname, if_neg hno]
    exact ⟨s, rfl, rfl⟩

/-! ### A whole pass -/

theorem countLoop_eq (port : String) : ∀ (its : List Json) (arrLen : ℕ),
    countLoop port its arrLen =
      if ∀ it ∈ its, isString (clientState it "name") = true then
        some (arrLen + its.countP (OfPort .state port)) else none
  | [], arrLen => by simp [countLoop]
  | it :: its, arrLen => by
      rw [countLoop, countLoop_eq port its]
      by_cases hname : isString (clientState it "name") = true
      · have hof : OfPort .state port it ↔ port = strOf (clientState it "name") := ofPort_iff hname
        simp only [hname, if_true, List.forall_mem_cons, true_and, List.countP_cons, decide_eq_true_eq]
        rw [if_congr hof.symm rfl rfl]
        by_cases hport : OfPort .state port it
        · simp only [hport, if_true, Nat.add_assoc, Nat.add_comm 1]
        · simp only [hport, if_false, Nat.add_zero]
      · simp [hname]

/-- The clients the second pass looks at: up to the first that it stops at. -/
def reached (port : String) : List Json → List Json
  | [] => []
  | it :: its => if Good port it then it :: reached port its else [it]

theorem fill_good {port : String} (its : List Json) (s : Fill) (h : ∀ it ∈ its, Good port it) :
    forM its (fillTurn port) s = (.ok (), (its.filter (OfPort .top port)).foldl Fill.add s) := by
  rw [forM_run (fun it s hit => fillTurn_good hit s) its s h, List.foldl_filter]
  simp only [decide_eq_true_eq]

theorem fill_stop {port : String} : ∀ (its : List Json) (s : Fill), ¬ (∀ it ∈ its, Good port it) →
    ∃ t, forM its (fillTurn port) s = (.error .reject, t)
  | [], s, h => absurd (List.forall_mem_nil _) h
  | it :: its, s, h => by
      by_cases hit : Good port it
      · have hits : ¬ ∀ it ∈ its, Good port it := fun hall => h (List.forall_mem_cons.mpr ⟨hit, hall⟩)
        rw [List.forM_cons, Parser.bind_of_ok (fillTurn_good hit s)]
        exact fill_stop its _ hits
      · obtain ⟨t, hrun, -⟩ := fillTurn_stop hit s
        exact ⟨t, by rw [List.forM_cons, Parser.bind_of_error hrun]⟩

/-- One slot more is written to for each client that is reached and has a text to write. -/
theorem fill_touched {port : String} : ∀ (its : List Json) (s : Fill), s.touched = s.i →
    (forM its (fillTurn port) s).2.touched = s.i + (reached port its).countP (Touches port)
  | [], s, hs => hs
  | it :: its, s, hs => by
      rw [List.forM_cons, reached]
      by_cases hit : Good port it
      · rw [Parser.bind_of_ok (fillTurn_good hit s), if_pos hit, List.countP_cons]
        by_cases htop : OfPort .top port it
        · have htouch : Touches port it := ⟨htop, (hit.2 htop).1⟩
          have hadd : (s.add it).touched = (s.add it).i := by
            unfold Fill.add
            dsimp only
            omega
          rw [if_pos htop, fill_touched its _ hadd, if_pos (decide_eq_true htouch)]
          unfold Fill.add
          dsimp only
          omega
        · have hno : ¬ Touches port it := fun ht => htop ht.1
          rw [if_neg htop, fill_touched its s hs, if_neg (by simpa using hno), Nat.add_zero]
      · obtain ⟨t, hrun, ht⟩ := fillTurn_stop hit s
        rw [Parser.bind_of_error hrun, if_neg hit, List.countP_singleton, ht]
        by_cases htouch : Touches port it
        · rw [if_pos htouch, if_pos (decide_eq_true htouch)]
          omega
        · rw [if_neg htouch, if_neg (by simpa using htouch), hs, Nat.add_zero]

theorem foldl_add_i : ∀ (its : List Json) (s : Fill), (its.foldl Fill.add s).i = s.i + its.length
  | [], s => rfl
  | it :: its, s => by
      rw [List.foldl_cons, foldl_add_i its, List.length_cons]
      unfold Fill.add
      dsimp only
      omega

theorem foldl_add_sources : ∀ (its : List Json) (s : Fill),
    (its.foldl Fill.add s).sources = s.sources ++ its
  | [], s => (List.append_nil _).symm
  | it :: its, s => by
      rw [List.foldl_cons, foldl_add_sources its, List.append_cons]
      rfl

theorem foldl_add_slots : ∀ (its : List Json) (s : Fill),
    (its.foldl Fill.add s).slots = fillFrom s.slots s.i (its.map infoOf)
  | [], _ => rfl
  | it :: its, s => foldl_add_slots its (s.add it)

/-! ### When the array is right -/

theorem filter_eq_iff {p q : Json → Prop} [DecidablePred p] [DecidablePred q] : ∀ {its : List Json},
    its.filter p = its.filter q ↔ ∀ it ∈ its, p it ↔ q it
  | [] => iff_of_true rfl (List.forall_mem_nil _)
  | it :: its => by
      have ih : its.filter p = its.filter q ↔ ∀ it ∈ its, p it ↔ q it := filter_eq_iff
      rw [List.forall_mem_cons, ← ih, List.filter_cons, List.filter_cons]
      by_cases hp : p it
      · by_cases hq : q it
        · simp [hp, hq]
        · simp only [hp, hq, decide_true, decide_false, if_true, Bool.false_eq_true, if_false]
          refine iff_of_false (fun h => hq ?_) (by simp)
          have hmem : it ∈ its.filter q := h ▸ List.mem_cons_self ..
          simpa using (List.mem_filter.mp hmem).2
      · by_cases hq : q it
        · simp only [hp, hq, decide_true, decide_false, if_true, Bool.false_eq_true, if_false]
          refine iff_of_false (fun h => hp ?_) (by simp)
          have hmem : it ∈ its.filter p := h ▸ List.mem_cons_self ..
          simpa using (List.mem_filter.mp hmem).2
        · simp [hp, hq]

/-- The names at the two places agree as far as the array depends on them. -/
def Agree (naming : Naming) (port : String) (clients : List Json) : Prop :=
  match naming with
  | .top => clients.countP (OfPort .top port) = clients.countP (OfPort .state port)
  | .state => ∀ it ∈ clients, OfPort .top port it ↔ OfPort .state port it

/-- If the second pass runs: it finds no more clients to write than the first has counted, and if it
    goes through, the names agree. -/
def Sized (naming : Naming) (alloc : Bool) (port : String) (clients : List Json) : Prop :=
  alloc = true → (∀ it ∈ clients, isString (clientState it "name") = true) →
    0 < clients.countP (OfPort .state port) →
    (reached port clients).countP (Touches port) ≤ clients.countP (OfPort .state port) ∧
      ((∀ it ∈ clients, Good port it) → Agree naming port clients)

theorem agree_iff {naming : Naming} {port : String} {clients : List Json} :
    Agree naming port clients ↔
      clients.countP (OfPort .top port) = clients.countP (OfPort .state port) ∧
        clients.filter (OfPort .top port) = clients.filter (OfPort naming port) := by
  cases naming with
  | top => exact (and_iff_left rfl).symm
  | state =>
    rw [filter_eq_iff]
    unfold Agree
    refine (and_iff_right_of_imp fun h => ?_).symm
    rw [List.countP_eq_length_filter, List.countP_eq_length_filter]
    exact congrArg List.length (filter_eq_iff.mpr h)

/-- A second pass that goes through leaves the clients with the port's name at top level. -/
theorem filled_i (its : List Json) : (its.foldl Fill.add emptyFill).i = its.length :=
  (foldl_add_i its emptyFill).trans (Nat.zero_add _)

theorem filled_sources (its : List Json) : (its.foldl Fill.add emptyFill).sources = its :=
  foldl_add_sources its emptyFill

theorem filled_slots (its : List Json) :
    upTo (its.foldl Fill.add emptyFill).slots its.length = its.map infoOf := by
  have h := upTo_fillFrom (its.map infoOf) emptyFill.slots 0
  rw [List.length_map, Nat.zero_add] at h
  rw [foldl_add_slots]
  exact h

/-- A second pass that goes through is sound if the array has a slot for each client that it fills one
    with, and these are the clients of the port. -/
theorem sound_filled_iff {naming : Naming} {port : String} {clients : List Json} {fill : Fill} (n : ℕ)
    (hfill : fill = (clients.filter (OfPort .top port)).foldl Fill.add emptyFill) :
    Sound naming port clients ⟨0, ⟨some fill.slots, n⟩, n, fill⟩ ↔
      fill.touched ≤ n ∧ clients.countP (OfPort .top port) = n ∧
        clients.filter (OfPort .top port) = clients.filter (OfPort naming port) := by
  have hi : fill.i = clients.countP (OfPort .top port) := by
    rw [hfill, filled_i, List.countP_eq_length_filter]
  have hsources : fill.sources = clients.filter (OfPort .top port) := by rw [hfill, filled_sources]
  unfold Sound
  dsimp only
  rw [hi, hsources]
  constructor
  · rintro ⟨hret, hroom⟩
    obtain ⟨hlen, hsame, -⟩ := hret rfl
    exact ⟨hroom, hlen.symm, hsame⟩
  · rintro ⟨hroom, hlen, hsame⟩
    refine ⟨fun _ => ⟨hlen.symm, hsame, _, rfl, ?_⟩, hroom⟩
    rw [hfill, List.countP_eq_length_filter]
    exact filled_slots _

/-- The call is sound exactly if the array is sized right for the second pass, whichever of its names
    makes a client one of the port. -/
theorem ieee8021xAuthClientsParse_sound_iff (naming : Naming) (alloc : Bool) (portId : ℕ) (root : Ptr) :
    Sound naming (pidToName portId) (clientsOf root) (ieee8021xAuthClientsParse alloc portId root) ↔
      Sized naming alloc (pidToName portId) (clientsOf root) := by
  unfold ieee8021xAuthClientsParse
  dsimp only
  generalize hclients : clientsOf root = clients
  generalize hport : pidToName portId = port
  rw [countLoop_eq, Nat.zero_add]
  have hearly : Sound naming port clients ⟨-1, ⟨none, 0⟩, 0, emptyFill⟩ :=
    ⟨fun h => absurd h (by decide), Nat.le_refl 0⟩
  by_cases hnames : ∀ it ∈ clients, isString (clientState it "name") = true
  · rw [if_pos hnames]
    dsimp only
    by_cases hzero : clients.countP (OfPort .state port) = 0
    · rw [if_pos hzero]
      exact iff_of_true hearly fun _ _ hpos => absurd hpos (by omega)
    · rw [if_neg hzero]
      cases alloc with
      | false => exact iff_of_true hearly fun h => by cases h
      | true =>
        have hsized : Sized naming true port clients ↔
            (reached port clients).countP (Touches port) ≤ clients.countP (OfPort .state port) ∧
              ((∀ it ∈ clients, Good port it) → Agree naming port clients) :=
          ⟨fun h => h rfl hnames (Nat.pos_of_ne_zero hzero), fun h _ _ _ => h⟩
        rw [hsized]
        have htouched : (forM clients (fillTurn port) emptyFill).2.touched =
            (reached port clients).countP (Touches port) :=
          (fill_touched clients emptyFill rfl).trans (Nat.zero_add _)
        simp only [Bool.not_true, Bool.false_eq_true, if_false]
        by_cases hgood : ∀ it ∈ clients, Good port it
        · rw [fill_good clients emptyFill hgood] at htouched ⊢
          dsimp only at htouched ⊢
          rw [sound_filled_iff _ rfl, htouched, forall_prop_of_true hgood, agree_iff]
        · obtain ⟨t, hrun⟩ := fill_stop clients emptyFill hgood
          rw [hrun] at htouched ⊢
          unfold Sound
          dsimp only at htouched ⊢
          rw [htouched]
          exact ⟨fun h => ⟨h.2, fun hall => absurd hall hgood⟩,
            fun h => ⟨fun hret => absurd hret (by decide), h.1⟩⟩
  · rw [if_neg hnames]
    exact iff_of_true hearly fun _ h => absurd h hnames

/-! ### Two names -/

/-- A client as the switch reports it, with its own name and the one in its state. -/
def client (name stateName user : String) : Json :=
  .obj [("name", .str name), ("state", .obj [("name", .str stateName),
    ("authenticated-method", .str "DOT1X"), ("macaddress", .str "00:11:22:33:44:55"),
    ("session-time", .num (.fin 60)), ("user-name", .str user), ("vlan-type", .str "static"),
    ("vlan-id", .num (.fin 10))])]

def answer (clients : List Json) : Json :=
  .obj [("openconfig-authmgr:authmgr-authenticated-clients",
    .obj [("authenticated-client", .arr clients)])]

/-- One client is counted and two are filled: the second slot lies behind the array. -/
theorem writes_past_the_array :
    let p := ieee8021xAuthClientsParse true 1
      (some (answer [client "Ethernet1" "Ethernet1" "ann", client "Ethernet1" "Ethernet2" "bob"]))
    p.ret = 0 ∧ p.info.arrLen = 1 ∧ p.fill.i = 2 ∧ p.room < p.fill.touched ∧
      ∀ naming, ¬ Sound naming "Ethernet1"
        [client "Ethernet1" "Ethernet1" "ann", client "Ethernet1" "Ethernet2" "bob"] p := by
  refine ⟨by decide, by decide, by decide, by decide, fun naming h => ?_⟩
  exact absurd h.2 (by decide)

end Ucentral.Plat.AuthClients
