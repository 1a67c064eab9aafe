import Ucentral.Lib.CString
import Ucentral.Lib.Json
import Ucentral.Lib.ParserStates
import Ucentral.Lib.Slots
import Mathlib.Data.List.Forall2
import Mathlib.Data.List.TakeWhile

/-! The learned MAC addresses, out of the FDB of the switch.

    The list is sized by two counters of the answer and filled from the array beside them:

        { "mac-table": { "entries": { "entry": [ ... ] } },
          "state": { "dynamic-count": #, "static-count": # } } -/

namespace Ucentral.Plat.MacList
open CJson Parse CString Slots

/-- `valueint`: the number as an `int`, the nearest one where it is out of range. -/
def valueint (j : Ptr) : ℤ :=
  match getNumberValue j with
  | .nan => -2 ^ 31
  | .inf neg => if neg then -2 ^ 31 else 2 ^ 31 - 1
  | .fin q => if (2 ^ 31 - 1 : ℤ) ≤ q then 2 ^ 31 - 1 else if q ≤ (-2 ^ 31 : ℤ) then -2 ^ 31
      else (Double.fin q).trunc

/-- `size_t n = ...` -/
def toSize (z : ℤ) : ℕ := (z % 2 ^ 64).toNat

inductive FdbEntryType
  | static | dynamic
  deriving DecidableEq

/-- `struct gnma_fdb_entry`, its texts by their bytes. -/
structure FdbEntry where
  port : List UInt8
  type : FdbEntryType
  vid : ℤ
  mac : List UInt8
  deriving DecidableEq

/-- As `calloc` leaves it. -/
def FdbEntry.zero : FdbEntry := ⟨List.replicate 32 0, .static, 0, List.replicate 18 0⟩

/-! ### The entries of an answer -/

def strOf (j : Ptr) : String := (getStringValue j).getD ""

def stateOf (entry : Json) (key : String) : Ptr := getItem (getItem (some entry) "state") key

def portField (entry : Json) : Ptr :=
  getItem (getItem (getItem (getItem (some entry) "interface") "interface-ref") "state") "interface"

/-- `cJSON_IsNull`. -/
def isNull : Json → Bool
  | .null => true
  | _ => false

def typeOf (entry : Json) : FdbEntryType :=
  if strOf (stateOf entry "entry-type") = "STATIC" then .static else .dynamic

/-- What is stored of an entry. -/
def entryOf (entry : Json) : FdbEntry where
  port := strncpy 32 (strOf (portField entry))
  type := typeOf entry
  vid := valueint (stateOf entry "vlan")
  mac := strncpy 18 (strOf (stateOf entry "mac-address"))

/-! ### The two functions -/

/-- The list, the slots that have been written to, and `*list_size`. -/
structure Fdb where
  list : ℕ → FdbEntry
  idx : ℕ
  listSize : ℕ

def Fdb.add (s : Fdb) (entry : Json) : Fdb where
  list := Function.update s.list s.idx (entryOf entry)
  idx := s.idx + 1
  listSize := s.idx + 1

/-- The body of the loop over the entries. -/
def parseEntry (entry : Json) : Parser Fdb Unit := do
  need (!isNull entry)
  need ((getItem (some entry) "state").isSome && isString (stateOf entry "mac-address"))
  need (isNumber (stateOf entry "vlan"))
  need (isString (stateOf entry "entry-type"))
  need (isString (portField entry))
  Parser.fill fun s => s.add entry

def fdbOf (root : Ptr) : Ptr := getItem root "openconfig-network-instance:fdb"

def entryList (root : Ptr) : Ptr :=
  getItem (getItem (getItem (fdbOf root) "mac-table") "entries") "entry"

/-- `num_entries`: the two counters; none if one is missing. -/
def numEntries (root : Ptr) : Option ℕ :=
  let state := getItem (fdbOf root) "state"
  let dynamic := getItem state "dynamic-count"
  let static := getItem state "static-count"
  if (fdbOf root).isSome && state.isSome && isNumber dynamic && isNumber static then
    some ((toSize (valueint dynamic) + toSize (valueint static)) % 2 ^ 64)
  else none

/-- `gnma_mac_address_list_get`: what it returns, the list with the slots that it has written to, and
    `*list_size` afterwards. The answer is none if there is none that can be parsed. -/
def gnmaMacAddressListGet (root : Ptr) (list : Option (ℕ → FdbEntry)) (listSize : ℕ) : ℤ × Fdb :=
  let same : Fdb := ⟨list.getD fun _ => .zero, 0, listSize⟩
  match numEntries root with
  | none => (-1, same)
  | some n =>
    if listSize < n then (-2, { same with listSize := n })
    else if n = 0 then (0, same)
    else if list.isNone then (-1, same)
    else if (entryList root).isNone then (-1, same)
    else
      match forM (children (entryList root)) parseEntry same with
      | (.ok _, s) => (0, s)
      | (.error _, s) => (-1, s)

/-- `struct plat_learned_mac_addr`. -/
structure LearnedMac where
  port : List UInt8
  vid : ℤ
  mac : List UInt8
  deriving DecidableEq

/-- The loop over the list: the dynamic entries are copied. -/
def learned (list : List FdbEntry) : List LearnedMac :=
  (list.filter fun f => f.type = .dynamic).map fun f =>
    ⟨strncpyField 32 f.port, f.vid, strncpyField 18 f.mac⟩

/-- `plat_learned_mac_addrs_get`: what it returns and the addresses; none if the list is written to
    past its end. `alloc` tells whether the two `calloc` succeed. -/
def platLearnedMacAddrsGet (alloc : Bool × Bool) (first second : Ptr) :
    Option (ℤ × List LearnedMac) :=
  let (ret, s) := gnmaMacAddressListGet first none 0
  if ret ≠ 0 ∧ ret ≠ -2 then some (ret, [])
  else if s.listSize = 0 then some (0, [])
  else if !alloc.1 then some (-1, [])
  else
    let (ret, t) := gnmaMacAddressListGet second (some fun _ => .zero) s.listSize
    if s.listSize < t.idx then none
    else if ret ≠ 0 then some (ret, [])
    else if !alloc.2 then some (-1, [])
    else some (0, learned (upTo t.list t.listSize))

/-! ### What is promised -/

/-- The slot is the entry, nothing cut off. -/
def Represents (f : FdbEntry) (entry : Json) : Prop :=
  Holds f.port (strOf (portField entry)) ∧ Holds f.mac (strOf (stateOf entry "mac-address")) ∧
    f.type = typeOf entry ∧ f.vid = valueint (stateOf entry "vlan")

def entriesOf (root : Ptr) : List Json := children (entryList root)

/-- No slot outside of the list is written, and with `GNMA_OK` `*list_size` slots are the entries. -/
def ListSound (root : Ptr) (room : Room FdbEntry) : Prop :=
  let (ret, s) := gnmaMacAddressListGet root room.list room.size
  s.idx ≤ room.size ∧ (ret = 0 → s.listSize = s.idx ∧
    List.Forall₂ Represents (upTo s.list s.idx) (entriesOf root))

def IsDynamic (entry : Json) : Prop :=
  isString (stateOf entry "entry-type") = true ∧ typeOf entry = .dynamic

instance (entry : Json) : Decidable (IsDynamic entry) := inferInstanceAs (Decidable (_ ∧ _))

def Reports (m : LearnedMac) (entry : Json) : Prop :=
  Holds m.port (strOf (portField entry)) ∧ Holds m.mac (strOf (stateOf entry "mac-address")) ∧
    m.vid = valueint (stateOf entry "vlan")

/-- Nothing is written outside of the lists, and with 0 the dynamic entries are returned. -/
def LearnedSound (alloc : Bool × Bool) (root : Ptr) : Prop :=
  ∃ ret l, platLearnedMacAddrsGet alloc root root = some (ret, l) ∧
    (ret = 0 → List.Forall₂ Reports l ((entriesOf root).filter IsDynamic))

/-! ### The loop -/

/-- The loop goes on after the entry. -/
def Good (entry : Json) : Prop :=
  (!isNull entry) = true ∧
    ((getItem (some entry) "state").isSome && isString (stateOf entry "mac-address")) = true ∧
    isNumber (stateOf entry "vlan") = true ∧ isString (stateOf entry "entry-type") = true ∧
    isString (portField entry) = true

instance (entry : Json) : Decidable (Good entry) := inferInstanceAs (Decidable (_ ∧ _ ∧ _ ∧ _ ∧ _))

theorem parseEntry_run (entry : Json) (s : Fdb) :
    parseEntry entry s = if Good entry then (.ok (), s.add entry) else (.error .reject, s) := by
  unfold parseEntry
  have hport := need_bind (isString (portField entry))
    (fun _ => (Parser.fill fun s : Fdb => s.add entry))
  have htype := need_bind_checked (b := isString (stateOf entry "entry-type")) hport
  have hvlan := need_bind_checked (b := isNumber (stateOf entry "vlan")) htype
  have hmac := need_bind_checked
    (b := (getItem (some entry) "state").isSome && isString (stateOf entry "mac-address")) hvlan
  exact need_bind_checked (b := !isNull entry) hmac s

/-- The entries before the first that is no good are stored. -/
theorem loop_run (entries : List Json) (s : Fdb) :
    forM entries parseEntry s = (if ∀ e ∈ entries, Good e then .ok () else .error .reject,
      (entries.takeWhile Good).foldl Fdb.add s) :=
  forM_prefix (fun e s h => by rw [parseEntry_run, if_pos h])
    (fun e s h => by rw [parseEntry_run, if_neg h]) entries s

theorem foldl_add_idx : ∀ (es : List Json) (s : Fdb), (es.foldl Fdb.add s).idx = s.idx + es.length
  | [], s => rfl
  | e :: es, s => by
      rw [List.foldl_cons, foldl_add_idx es, List.length_cons]
      unfold Fdb.add
      dsimp only
      omega

/-- The size is only set with an entry. -/
theorem foldl_add_listSize : ∀ (es : List Json) (s : Fdb),
    (es.foldl Fdb.add s).listSize = if es = [] then s.listSize else s.idx + es.length
  | [], s => rfl
  | e :: es, s => by
      rw [List.foldl_cons, foldl_add_listSize es, if_neg (List.cons_ne_nil e es), List.length_cons]
      unfold Fdb.add
      dsimp only
      split
      · rename_i hnil
        rw [hnil]
        rfl
      · omega

theorem foldl_add_list : ∀ (es : List Json) (s : Fdb),
    (es.foldl Fdb.add s).list = fillFrom s.list s.idx (es.map entryOf)
  | [], _ => rfl
  | e :: es, s => foldl_add_list es (s.add e)

/-! ### What is stored -/

/-- The texts of an entry leave room for their terminators. -/
def Fits (entry : Json) : Prop :=
  strlen (strOf (portField entry)) < 32 ∧ strlen (strOf (stateOf entry "mac-address")) < 18

theorem represents_entryOf (entry : Json) : Represents (entryOf entry) entry ↔ Fits entry := by
  unfold Represents entryOf Fits
  dsimp only
  rw [strncpy_holds_iff, strncpy_holds_iff]
  exact and_congr_right fun _ => and_iff_left ⟨rfl, rfl⟩

theorem forall₂_represents (es : List Json) :
    List.Forall₂ Represents (es.map entryOf) es ↔ ∀ e ∈ es, Fits e := by
  rw [List.forall₂_map_left_iff, List.forall₂_same]
  exact forall₂_congr fun e _ => represents_entryOf e

/-- Entries stored from the first slot on. -/
theorem upTo_foldl_add (es : List Json) (list : ℕ → FdbEntry) (size : ℕ) :
    upTo (es.foldl Fdb.add ⟨list, 0, size⟩).list es.length = es.map entryOf := by
  have h := upTo_fillFrom (es.map entryOf) list 0
  rw [List.length_map, Nat.zero_add] at h
  rw [foldl_add_list]
  exact h

theorem takeWhile_eq_self {es : List Json} (h : ∀ e ∈ es, Good e) :
    es.takeWhile (fun e => decide (Good e)) = es :=
  List.takeWhile_eq_self_iff.mpr fun e he => decide_eq_true (h e he)

/-! ### When the list is right -/

/-- How many entries are stored. -/
def stored (root : Ptr) : ℕ := ((entriesOf root).takeWhile Good).length

/-- The list after the loop. -/
def afterLoop (root : Ptr) (slots : ℕ → FdbEntry) (size : ℕ) : Fdb :=
  ((entriesOf root).takeWhile Good).foldl Fdb.add ⟨slots, 0, size⟩

/-- If the counters are there and leave room: no counted entries means no entries and no room either;
    else the entries up to the first that is no good fit the room, and if all are good, there is one
    and all fit their fields. -/
def ListFits (root : Ptr) (size : ℕ) : Prop :=
  ∀ n, numEntries root = some n → n ≤ size →
    (n = 0 → size = 0 ∧ entriesOf root = []) ∧
    (n ≠ 0 → (entryList root).isSome = true → stored root ≤ size ∧
      ((∀ e ∈ entriesOf root, Good e) → entriesOf root ≠ [] ∧ ∀ e ∈ entriesOf root, Fits e))

/-! ### How `gnma_mac_address_list_get` ends -/

section
variable {root : Ptr} {list : Option (ℕ → FdbEntry)} {size n : ℕ}

theorem gnmaMacAddressListGet_uncounted (hn : numEntries root = none) :
    gnmaMacAddressListGet root list size = (-1, ⟨list.getD fun _ => .zero, 0, size⟩) := by
  unfold gnmaMacAddressListGet
  rw [hn]

theorem gnmaMacAddressListGet_overflow (hn : numEntries root = some n) (h : size < n) :
    gnmaMacAddressListGet root list size = (-2, ⟨list.getD fun _ => .zero, 0, n⟩) := by
  unfold gnmaMacAddressListGet
  rw [hn]
  exact if_pos h

theorem gnmaMacAddressListGet_zero (hn : numEntries root = some 0) :
    gnmaMacAddressListGet root list size = (0, ⟨list.getD fun _ => .zero, 0, size⟩) := by
  unfold gnmaMacAddressListGet
  rw [hn]
  dsimp only
  rw [if_neg (Nat.not_lt_zero size), if_pos rfl]

theorem gnmaMacAddressListGet_missing (hn : numEntries root = some n) (h : ¬ size < n) (hzero : n ≠ 0)
    (hlist : ¬ (entryList root).isSome = true) :
    gnmaMacAddressListGet root list size = (-1, ⟨list.getD fun _ => .zero, 0, size⟩) := by
  have hnone : (entryList root).isNone = true := by
    rw [Option.isNone_iff_eq_none]
    exact Option.not_isSome_iff_eq_none.mp hlist
  unfold gnmaMacAddressListGet
  rw [hn]
  dsimp only
  rw [if_neg h, if_neg hzero, hnone, if_pos rfl, ite_self]

/-- Otherwise the entries up to the first that is no good are stored. -/
theorem gnmaMacAddressListGet_loop (hn : numEntries root = some n) (h : ¬ size < n) (hzero : n ≠ 0)
    (hlist : (entryList root).isSome = true) (slots : ℕ → FdbEntry) :
    gnmaMacAddressListGet root (some slots) size =
      (if ∀ e ∈ entriesOf root, Good e then 0 else -1,
        afterLoop root slots size) := by
  have hsome : ¬ (entryList root).isNone = true := by
    rw [Option.isNone_iff_eq_none]
    exact Option.isSome_iff_ne_none.mp hlist
  have hslots : ¬ (some slots).isNone = true := by
    rw [Option.isNone_some]
    exact Bool.false_ne_true
  unfold gnmaMacAddressListGet
  rw [hn]
  dsimp only
  rw [if_neg h, if_neg hzero, if_neg hslots, if_neg hsome, loop_run]
  unfold entriesOf
  by_cases hgood : ∀ e ∈ children (entryList root), Good e
  · rw [if_pos hgood, if_pos hgood]
    rfl
  · rw [if_neg hgood, if_neg hgood]
    rfl

end

/-- All entries are stored by a loop that goes through. -/
theorem afterLoop_good {root : Ptr} (h : ∀ e ∈ entriesOf root, Good e) (slots : ℕ → FdbEntry) (size : ℕ) :
    (afterLoop root slots size).idx = (entriesOf root).length ∧
      (afterLoop root slots size).listSize =
        (if entriesOf root = [] then size else (entriesOf root).length) ∧
      upTo (afterLoop root slots size).list (entriesOf root).length = (entriesOf root).map entryOf := by
  unfold afterLoop
  rw [takeWhile_eq_self h]
  refine ⟨(foldl_add_idx _ _).trans (Nat.zero_add _), (foldl_add_listSize _ _).trans ?_,
    upTo_foldl_add _ slots size⟩
  exact if_congr Iff.rfl rfl (Nat.zero_add _)

theorem minus_one : (-1 : ℤ) ≠ 0 := by decide

/-- A loop over entries with room for something. -/
theorem loop_sound_iff {root : Ptr} {slots : ℕ → FdbEntry} {size : ℕ} (hsize : 0 < size) :
    ((afterLoop root slots size).idx ≤ size ∧
      ((if ∀ e ∈ entriesOf root, Good e then (0 : ℤ) else -1) = 0 →
        (afterLoop root slots size).listSize = (afterLoop root slots size).idx ∧
        List.Forall₂ Represents (upTo (afterLoop root slots size).list (afterLoop root slots size).idx)
          (entriesOf root))) ↔
      stored root ≤ size ∧
        ((∀ e ∈ entriesOf root, Good e) → entriesOf root ≠ [] ∧ ∀ e ∈ entriesOf root, Fits e) := by
  have hidx : (afterLoop root slots size).idx = stored root :=
    (foldl_add_idx _ _).trans (Nat.zero_add _)
  rw [hidx]
  refine and_congr_right fun hroom => ?_
  by_cases hgood : ∀ e ∈ entriesOf root, Good e
  · obtain ⟨hlen, hset, hlist⟩ := afterLoop_good hgood slots size
    rw [hidx] at hlen
    rw [if_pos hgood, hset, hlen, hlist, forall₂_represents, forall_prop_of_true rfl,
      forall_prop_of_true hgood]
    refine and_congr_left fun _ => ?_
    by_cases hnil : entriesOf root = []
    · rw [if_pos hnil, hnil]
      exact iff_of_false (Nat.ne_of_gt hsize) (fun h => h rfl)
    · rw [if_neg hnil]
      exact iff_of_true rfl hnil
  · rw [if_neg hgood]
    exact iff_of_true (fun h => absurd h minus_one) (fun h => absurd h hgood)

/-- The list is right exactly if the counters and the entries fit the room. -/
theorem listSound_iff (root : Ptr) (room : Room FdbEntry) :
    ListSound root room ↔ ListFits root room.size := by
  unfold ListSound ListFits
  cases hn : numEntries root with
  | none =>
    rw [gnmaMacAddressListGet_uncounted hn]
    exact iff_of_true ⟨Nat.zero_le _, fun h => absurd h minus_one⟩ fun n h => by cases h
  | some n =>
    simp only [Option.some.injEq, forall_eq']
    by_cases hroom : room.size < n
    · rw [gnmaMacAddressListGet_overflow hn hroom]
      refine iff_of_true ⟨Nat.zero_le _, fun h => absurd h ?_⟩ fun h => absurd hroom (Nat.not_lt.mpr h)
      exact (by decide : (-2 : ℤ) ≠ 0)
    · rw [forall_prop_of_true (Nat.not_lt.mp hroom)]
      by_cases hzero : n = 0
      · subst hzero
        rw [gnmaMacAddressListGet_zero hn]
        constructor
        · rintro ⟨-, hok⟩
          obtain ⟨hsize, hall⟩ := hok rfl
          exact ⟨fun _ => ⟨hsize, List.forall₂_nil_left_iff.mp hall⟩, fun h => absurd rfl h⟩
        · rintro ⟨hempty, -⟩
          obtain ⟨hsize, hnil⟩ := hempty rfl
          exact ⟨Nat.zero_le _, fun _ => ⟨hsize, List.forall₂_nil_left_iff.mpr hnil⟩⟩
      · by_cases hlist : (entryList root).isSome = true
        · cases hslots : room.list with
          | none => exact absurd (room.null_empty hslots) (by omega)
          | some slots =>
            rw [gnmaMacAddressListGet_loop hn hroom hzero hlist, forall_prop_of_false hzero, true_and,
              forall_prop_of_true hzero, forall_prop_of_true hlist]
            exact loop_sound_iff (by omega)
        · rw [gnmaMacAddressListGet_missing hn hroom hzero hlist]
          exact iff_of_true ⟨Nat.zero_le _, fun h => absurd h minus_one⟩
            ⟨fun h => absurd h hzero, fun _ h => absurd h hlist⟩

/-! ### When the dynamic entries are returned -/

/-- What is returned of a dynamic entry. -/
def reportOf (entry : Json) : LearnedMac where
  port := strncpy 32 (strOf (portField entry))
  vid := valueint (stateOf entry "vlan")
  mac := strncpy 18 (strOf (stateOf entry "mac-address"))

theorem reports_reportOf (entry : Json) : Reports (reportOf entry) entry ↔ Fits entry := by
  unfold Reports reportOf Fits
  dsimp only
  rw [strncpy_holds_iff, strncpy_holds_iff]
  exact and_congr_right fun _ => and_iff_left rfl

theorem learned_entries {es : List Json} (h : ∀ e ∈ es, Good e) :
    learned (es.map entryOf) = (es.filter IsDynamic).map reportOf := by
  unfold learned
  rw [List.filter_map, List.map_map]
  have hfilter : es.filter ((fun f => decide (f.type = .dynamic)) ∘ entryOf) = es.filter IsDynamic := by
    refine List.filter_congr fun e he => decide_eq_decide.mpr ?_
    exact (and_iff_right (h e he).2.2.2.1).symm
  rw [hfilter]
  refine List.map_congr_left fun e _ => ?_
  unfold entryOf reportOf
  simp only [Function.comp_apply, strncpyField_strncpy]

/-- Nothing is learned from slots that nothing was written to. -/
theorem learned_zero (n : ℕ) : learned (upTo (fun _ => FdbEntry.zero) n) = [] := by
  unfold learned upTo
  have hnone : ((List.range n).map fun _ => FdbEntry.zero).filter (fun f => f.type = .dynamic) = [] := by
    refine List.filter_eq_nil_iff.mpr fun f hf => ?_
    obtain ⟨_, -, rfl⟩ := List.mem_map.mp hf
    decide
  rw [hnone, List.map_nil]

theorem learned_afterLoop {root : Ptr} (h : ∀ e ∈ entriesOf root, Good e) (size : ℕ) :
    learned (upTo (afterLoop root (fun _ => .zero) size).list
      (afterLoop root (fun _ => .zero) size).listSize) = ((entriesOf root).filter IsDynamic).map reportOf := by
  obtain ⟨-, hsize, hlist⟩ := afterLoop_good h (fun _ => .zero) size
  rw [hsize]
  by_cases hnil : entriesOf root = []
  · rw [if_pos hnil]
    unfold afterLoop
    rw [hnil]
    exact learned_zero size
  · rw [if_neg hnil, hlist, learned_entries h]

/-- If the counters are there: no counted entries means no dynamic entry; else, if there is an array
    and the first `calloc` succeeds, no more entries are stored than are counted, and if all are good,
    the dynamic ones fit their fields. -/
def LearnedFits (alloc : Bool × Bool) (root : Ptr) : Prop :=
  ∀ n, numEntries root = some n →
    (n = 0 → ∀ e ∈ entriesOf root, ¬ IsDynamic e) ∧
    (n ≠ 0 → alloc.1 = true → (entryList root).isSome = true → stored root ≤ n ∧
      ((∀ e ∈ entriesOf root, Good e) → alloc.2 = true → ∀ e ∈ entriesOf root, IsDynamic e → Fits e))

/-- A call that fails promises nothing. -/
theorem learnedSound_failed {alloc : Bool × Bool} {root : Ptr} {ret : ℤ} {l : List LearnedMac}
    (h : platLearnedMacAddrsGet alloc root root = some (ret, l)) (hret : ret ≠ 0) :
    LearnedSound alloc root :=
  ⟨ret, l, h, fun hzero => absurd hzero hret⟩

theorem learnedSound_ok {alloc : Bool × Bool} {root : Ptr} {l : List LearnedMac}
    (h : platLearnedMacAddrsGet alloc root root = some (0, l)) :
    LearnedSound alloc root ↔ List.Forall₂ Reports l ((entriesOf root).filter IsDynamic) := by
  refine ⟨fun ⟨ret, l', hrun, hl⟩ => ?_, fun hl => ⟨0, l, h, fun _ => hl⟩⟩
  rw [h] at hrun
  cases hrun
  exact hl rfl

theorem forall₂_reports {es : List Json} :
    List.Forall₂ Reports ((es.filter IsDynamic).map reportOf) (es.filter IsDynamic) ↔
      ∀ e ∈ es, IsDynamic e → Fits e := by
  rw [List.forall₂_map_left_iff, List.forall₂_same]
  simp only [List.mem_filter, decide_eq_true_eq, and_imp, reports_reportOf]

/-! ### How `plat_learned_mac_addrs_get` ends -/

section
variable {root : Ptr} {n : ℕ} (alloc : Bool × Bool)

theorem platLearnedMacAddrsGet_uncounted (hn : numEntries root = none) :
    platLearnedMacAddrsGet alloc root root = some (-1, []) := by
  unfold platLearnedMacAddrsGet
  rw [gnmaMacAddressListGet_uncounted hn]
  exact if_pos (by decide)

theorem platLearnedMacAddrsGet_zero (hn : numEntries root = some 0) :
    platLearnedMacAddrsGet alloc root root = some (0, []) := by
  unfold platLearnedMacAddrsGet
  rw [gnmaMacAddressListGet_zero hn]
  rfl

variable (alloc2 : Bool) (hn : numEntries root = some n) (hzero : n ≠ 0)
include hn hzero

theorem platLearnedMacAddrsGet_unallocated :
    platLearnedMacAddrsGet (false, alloc2) root root = some (-1, []) := by
  unfold platLearnedMacAddrsGet
  rw [gnmaMacAddressListGet_overflow hn (Nat.pos_of_ne_zero hzero)]
  exact if_neg hzero

theorem platLearnedMacAddrsGet_missing (hlist : ¬ (entryList root).isSome = true) :
    platLearnedMacAddrsGet (true, alloc2) root root = some (-1, []) := by
  unfold platLearnedMacAddrsGet
  rw [gnmaMacAddressListGet_overflow hn (Nat.pos_of_ne_zero hzero)]
  dsimp only
  rw [gnmaMacAddressListGet_missing hn (Nat.lt_irrefl n) hzero hlist]
  exact if_neg hzero

/-- The second call goes through the entries, with a slot for each that was counted. -/
theorem platLearnedMacAddrsGet_loop (hlist : (entryList root).isSome = true) :
    platLearnedMacAddrsGet (true, alloc2) root root =
      if n < stored root then none
      else if ¬ ∀ e ∈ entriesOf root, Good e then some (-1, [])
      else if !alloc2 then some (-1, [])
      else some (0, learned (upTo (afterLoop root (fun _ => .zero) n).list
        (afterLoop root (fun _ => .zero) n).listSize)) := by
  have hidx : (afterLoop root (fun _ => .zero) n).idx = stored root :=
    (foldl_add_idx _ _).trans (Nat.zero_add _)
  have hcall : ¬ ((-2 : ℤ) ≠ 0 ∧ (-2 : ℤ) ≠ -2) := by decide
  have halloc : ¬ (!true) = true := by decide
  unfold platLearnedMacAddrsGet
  rw [gnmaMacAddressListGet_overflow hn (Nat.pos_of_ne_zero hzero)]
  dsimp only
  rw [gnmaMacAddressListGet_loop hn (Nat.lt_irrefl n) hzero hlist, hidx, if_neg hcall, if_neg hzero,
    if_neg halloc]
  by_cases hgood : ∀ e ∈ entriesOf root, Good e
  · rw [if_pos hgood, if_neg (not_not.mpr hgood)]
    rfl
  · rw [if_neg hgood, if_pos hgood, if_pos minus_one]

theorem learnedSound_loop (hlist : (entryList root).isSome = true) :
    LearnedSound (true, alloc2) root ↔ stored root ≤ n ∧
      ((∀ e ∈ entriesOf root, Good e) → alloc2 = true → ∀ e ∈ entriesOf root, IsDynamic e → Fits e) := by
  have hrun := platLearnedMacAddrsGet_loop alloc2 hn hzero hlist
  by_cases hroom : n < stored root
  · rw [if_pos hroom] at hrun
    refine iff_of_false (fun ⟨ret, l, h, _⟩ => ?_) fun h => absurd hroom (Nat.not_lt.mpr h.1)
    rw [hrun] at h
    cases h
  · rw [if_neg hroom] at hrun
    rw [and_iff_right (Nat.not_lt.mp hroom)]
    by_cases hgood : ∀ e ∈ entriesOf root, Good e
    · rw [if_neg (not_not.mpr hgood)] at hrun
      rw [forall_prop_of_true hgood]
      cases alloc2 with
      | false => exact iff_of_true (learnedSound_failed hrun minus_one) fun h => by cases h
      | true =>
        rw [forall_prop_of_true rfl, learnedSound_ok hrun, learned_afterLoop hgood]
        exact forall₂_reports
    · rw [if_pos hgood] at hrun
      exact iff_of_true (learnedSound_failed hrun minus_one) fun h => absurd h hgood

/-- The second call is only made after an allocation, and only looks at an array. -/
theorem learnedSound_counted : LearnedSound alloc root ↔
    (alloc.1 = true → (entryList root).isSome = true → stored root ≤ n ∧
      ((∀ e ∈ entriesOf root, Good e) → alloc.2 = true → ∀ e ∈ entriesOf root, IsDynamic e → Fits e)) := by
  obtain ⟨alloc1, alloc2⟩ := alloc
  cases alloc1 with
  | false =>
    have hrun := platLearnedMacAddrsGet_unallocated alloc2 hn hzero
    exact iff_of_true (learnedSound_failed hrun minus_one) fun h => by cases h
  | true =>
    rw [forall_prop_of_true rfl]
    by_cases hlist : (entryList root).isSome = true
    · rw [forall_prop_of_true hlist]
      exact learnedSound_loop alloc2 hn hzero hlist
    · have hrun := platLearnedMacAddrsGet_missing alloc2 hn hzero hlist
      exact iff_of_true (learnedSound_failed hrun minus_one) fun h => absurd h hlist

end

theorem learnedSound_iff (alloc : Bool × Bool) (root : Ptr) :
    LearnedSound alloc root ↔ LearnedFits alloc root := by
  unfold LearnedFits
  cases hn : numEntries root with
  | none =>
    have hrun := platLearnedMacAddrsGet_uncounted alloc hn
    exact iff_of_true (learnedSound_failed hrun minus_one) fun n h => by cases h
  | some n =>
    simp only [Option.some.injEq, forall_eq']
    by_cases hzero : n = 0
    · subst hzero
      have hnil : (entriesOf root).filter IsDynamic = [] ↔ ∀ e ∈ entriesOf root, ¬ IsDynamic e := by
        rw [List.filter_eq_nil_iff]
        exact forall₂_congr fun e _ => not_congr decide_eq_true_iff
      rw [learnedSound_ok (platLearnedMacAddrsGet_zero alloc hn), List.forall₂_nil_left_iff, hnil]
      exact ⟨fun h => ⟨fun _ => h, fun h0 => absurd rfl h0⟩, fun h => h.1 rfl⟩
    · rw [learnedSound_counted alloc hn hzero, forall_prop_of_false hzero, forall_prop_of_true hzero,
        true_and]

/-- Both functions are right exactly on the answers whose counters and entries go together. -/
theorem macLists_sound_iff (root : Ptr) :
    (∀ room : Room FdbEntry, ListSound root room ↔ ListFits root room.size) ∧
      (∀ alloc : Bool × Bool, LearnedSound alloc root ↔ LearnedFits alloc root) :=
  ⟨listSound_iff root, fun alloc => learnedSound_iff alloc root⟩

/-! ### Counters that are off -/

def entry (port mac : String) : Json :=
  .obj [("interface", .obj [("interface-ref", .obj [("state", .obj [("interface", .str port)])])]),
    ("state", .obj [("entry-type", .str "DYNAMIC"), ("mac-address", .str mac), ("vlan", .num (.fin 10))])]

def answer (dynamic static : ℚ) (entries : List Json) : Json :=
  .obj [("openconfig-network-instance:fdb", .obj [
    ("mac-table", .obj [("entries", .obj [("entry", .arr entries)])]),
    ("state", .obj [("dynamic-count", .num (.fin dynamic)), ("static-count", .num (.fin static))])])]

def twoEntries : List Json :=
  [entry "Ethernet1" "00:11:22:33:44:55", entry "Ethernet2" "00:11:22:33:44:66"]

def oneSlot : Room FdbEntry := ⟨some fun _ => .zero, 1, fun h => by cases h⟩

/-- Two entries where one is counted: the second is written behind the list. Where none is counted,
    the dynamic entries are not returned. -/
theorem counters_off :
    ¬ ListSound (some (answer 1 0 twoEntries)) oneSlot ∧
      platLearnedMacAddrsGet (true, true) (some (answer 1 0 twoEntries))
        (some (answer 1 0 twoEntries)) = none ∧
      platLearnedMacAddrsGet (true, true) (some (answer 0 0 twoEntries))
        (some (answer 0 0 twoEntries)) = some (0, []) ∧
      ¬ LearnedSound (true, true) (some (answer 1 0 twoEntries)) ∧
      ¬ LearnedSound (true, true) (some (answer 0 0 twoEntries)) := by
  have hnone : platLearnedMacAddrsGet (true, true) (some (answer 1 0 twoEntries))
      (some (answer 1 0 twoEntries)) = none := by decide +kernel
  have hnil : platLearnedMacAddrsGet (true, true) (some (answer 0 0 twoEntries))
      (some (answer 0 0 twoEntries)) = some (0, []) := by decide +kernel
  refine ⟨fun h => ?_, hnone, hnil, fun h => ?_, fun h => ?_⟩
  · exact absurd h.1 (by decide +kernel)
  · obtain ⟨ret, l, hrun, -⟩ := h
    rw [hnone] at hrun
    cases hrun
  · have hall := (learnedSound_ok hnil).mp h
    rw [List.forall₂_nil_left_iff] at hall
    exact absurd hall (by decide +kernel)

end Ucentral.Plat.MacList
