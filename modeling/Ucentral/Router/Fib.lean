import Ucentral.Lib.Inet
import Ucentral.Lib.Merge
import Mathlib.Data.Prod.Lex
import Mathlib.Data.List.Sort

/-! The route table of `router-utils`: nodes keyed by prefix, held in an array that may or may not
    be sorted. The key order is prefix length first, then the address as the host reads it. -/

namespace Ucentral.Router
open Inet Merge

/-- `struct ucentral_router_fib_key`. -/
structure FibKey where
  pref : InAddr
  prefixLen : ℤ
  deriving DecidableEq, Repr

/-- `struct ucentral_router_fib_info`: the route kind with the fields its kind uses. -/
inductive FibInfo
  | blackhole
  | unreachable
  | connected (vid : ℕ)
  | nh (vid : ℕ) (gw : InAddr)
  | broadcast (vid : ℕ)
  deriving DecidableEq, Repr

/-- The value of the `type` enumerator. -/
def FibInfo.type : FibInfo → ℕ
  | .blackhole => 0
  | .unreachable => 1
  | .connected _ => 2
  | .nh _ _ => 3
  | .broadcast _ => 4

/-- `struct ucentral_router_fib_node`. -/
structure FibNode where
  key : FibKey
  info : FibInfo
  deriving DecidableEq, Repr

/-- `ucentral_router_fib_key_cmp`. -/
def fibKeyCmp (a b : FibKey) : ℤ :=
  if a.prefixLen > b.prefixLen then 1
  else if a.prefixLen < b.prefixLen then -1
  else if a.pref.sAddr > b.pref.sAddr then 1
  else if a.pref.sAddr < b.pref.sAddr then -1
  else 0

/-- `if (x > y) return 1; if (x < y) return -1;` falling through to 0. -/
def cmpNat (x y : ℕ) : ℤ := if x > y then 1 else if x < y then -1 else 0

/-- `ucentral_router_fib_info_cmp`. -/
def fibInfoCmp (a b : FibInfo) : ℤ :=
  if a.type > b.type then 1
  else if a.type < b.type then -1
  else match a, b with
    | .connected v, .connected w => cmpNat v w
    | .broadcast v, .broadcast w => cmpNat v w
    | .nh v g, .nh w k =>
      if v > w then 1 else if v < w then -1 else cmpNat g.sAddr k.sAddr
    | _, _ => 0

/-- The order behind `fibKeyCmp`. -/
def FibKey.rank (k : FibKey) : ℤ ×ₗ ℕ := toLex (k.prefixLen, k.pref.sAddr)

def FibNode.rank (n : FibNode) : ℤ ×ₗ ℕ := n.key.rank

theorem FibKey.rank_injective : Function.Injective FibKey.rank := by
  rintro ⟨p, l⟩ ⟨q, m⟩ h
  have h' : (l, p.sAddr) = (m, q.sAddr) := toLex_inj.mp h
  simp only [Prod.mk.injEq] at h'
  rw [InAddr.sAddr_injective h'.2, h'.1]

theorem FibKey.rank_lt_iff (a b : FibKey) :
    a.rank < b.rank ↔
      a.prefixLen < b.prefixLen ∨ a.prefixLen = b.prefixLen ∧ a.pref.sAddr < b.pref.sAddr := by
  rw [FibKey.rank, FibKey.rank, Prod.Lex.toLex_lt_toLex]

theorem fibKeyCmp_eq_zero_iff (a b : FibKey) : fibKeyCmp a b = 0 ↔ a = b := by
  constructor
  · intro h
    unfold fibKeyCmp at h
    have hl : a.prefixLen = b.prefixLen ∧ a.pref.sAddr = b.pref.sAddr := by
      split_ifs at h <;> omega
    apply FibKey.rank_injective
    rw [FibKey.rank, FibKey.rank, hl.1, hl.2]
  · rintro rfl
    simp [fibKeyCmp]

theorem fibKeyCmp_pos_iff (a b : FibKey) : 0 < fibKeyCmp a b ↔ b.rank < a.rank := by
  rw [FibKey.rank_lt_iff]
  unfold fibKeyCmp
  split_ifs <;> omega

/-- The comparison of nodes used by the sort and by the walk over two tables. -/
def fibNodeKeyCmpCb (a b : FibNode) : ℤ := fibKeyCmp a.key b.key

theorem fibNodeKeyCmpCb_reflects : Reflects fibNodeKeyCmpCb FibNode.rank where
  eq_iff a b := by
    rw [fibNodeKeyCmpCb, fibKeyCmp_eq_zero_iff]
    exact FibKey.rank_injective.eq_iff.symm
  pos_iff a b := fibKeyCmp_pos_iff a.key b.key

theorem cmpNat_eq_zero_iff (x y : ℕ) : cmpNat x y = 0 ↔ x = y := by
  unfold cmpNat
  rcases Nat.lt_trichotomy x y with h | h | h
  · simp [h, h.ne, h.not_gt]
  · simp [h]
  · simp [h, h.ne']

/-- The attribute comparison finds exactly the differences. -/
theorem fibInfoCmp_eq_zero_iff (a b : FibInfo) : fibInfoCmp a b = 0 ↔ a = b := by
  cases a <;> cases b <;> simp [fibInfoCmp, FibInfo.type, cmpNat_eq_zero_iff]
  next v g w k =>
    rcases Nat.lt_trichotomy v w with h | rfl | h
    · simp [h, h.ne, h.not_gt]
    · simp [cmpNat_eq_zero_iff, InAddr.sAddr_injective.eq_iff]
    · simp [h, h.ne']

/-! ### The table -/

/-- `struct ucentral_router`. The flag promises that the array is in key order. -/
structure Table where
  arr : List FibNode
  max : ℕ
  sorted : Bool
  len_le_max : arr.length ≤ max
  sorted_spec : sorted = true → Sorted FibNode.rank arr

/-- `ucentral_router_fib_db_alloc`. -/
def fibDbAlloc (max : ℕ) : Table := ⟨[], max, true, Nat.zero_le _, fun _ => List.Pairwise.nil⟩

/-- `ucentral_router_fib_db_append`: full tables refuse. -/
def fibDbAppend (r : Table) (n : FibNode) : Option Table :=
  if h : r.arr.length = r.max then none
  else some
    { arr := r.arr ++ [n]
      max := r.max
      sorted := false
      len_le_max := by
        have := r.len_le_max
        simp only [List.length_append, List.length_cons, List.length_nil]
        omega
      sorted_spec := fun h => absurd h (by decide) }

/-- `ucentral_router_fib_db_copy` into a freshly allocated table. -/
def fibDbCopy (src : Table) : Table :=
  { fibDbAlloc src.max with
    arr := src.arr
    sorted := src.sorted
    len_le_max := src.len_le_max
    sorted_spec := src.sorted_spec }

/-- What `qsort` promises: a rearrangement in key order. How it arranges entries with equal keys is
    not promised. -/
structure Qsort where
  run : List FibNode → List FibNode
  perm : ∀ l, (run l).Perm l
  sorted : ∀ l, Sorted FibNode.rank (run l)

/-- `ucentral_router_fib_db_sort`. -/
def fibDbSort (qs : Qsort) (r : Table) : Table :=
  { arr := qs.run r.arr
    max := r.max
    sorted := true
    len_le_max := (qs.perm r.arr).length_eq ▸ r.len_le_max
    sorted_spec := fun _ => qs.sorted r.arr }

/-- `if (!r.sorted) ucentral_router_fib_db_sort(&r);` -/
def ensureSorted (qs : Qsort) (r : Table) : Table := if r.sorted then r else fibDbSort qs r

theorem ensureSorted_sorted (qs : Qsort) (r : Table) :
    Sorted FibNode.rank (ensureSorted qs r).arr := by
  unfold ensureSorted
  by_cases h : r.sorted = true
  · rw [if_pos h]; exact r.sorted_spec h
  · rw [if_neg h]; exact qs.sorted r.arr

theorem ensureSorted_perm (qs : Qsort) (r : Table) : (ensureSorted qs r).arr.Perm r.arr := by
  unfold ensureSorted
  by_cases h : r.sorted = true
  · rw [if_pos h]
  · rw [if_neg h]; exact qs.perm r.arr

/-- A sort that can be run: insertion in key order. -/
def insertionQsort : Qsort where
  run l := l.insertionSort (fun a b => fibNodeKeyCmpCb a b ≤ 0)
  perm l := List.perm_insertionSort _ l
  sorted l := by
    have hle : ∀ a b : FibNode, fibNodeKeyCmpCb a b ≤ 0 ↔ a.rank ≤ b.rank := by
      intro a b
      rw [← not_lt, ← not_lt, fibNodeKeyCmpCb_reflects.pos_iff]
    have : Std.Total (fun a b : FibNode => fibNodeKeyCmpCb a b ≤ 0) :=
      ⟨fun a b => by rw [hle, hle]; exact le_total _ _⟩
    have : IsTrans FibNode (fun a b => fibNodeKeyCmpCb a b ≤ 0) :=
      ⟨fun a b c => by rw [hle, hle, hle]; exact le_trans⟩
    exact (List.pairwise_insertionSort _ l).imp (fun {a b} h => (hle a b).mp h)

/-! ### The walk over two tables -/

/-- The steps of `for_router_db_diff` over two sorted tables, in order. -/
def routerDbDiff (newr oldr : Table) : List (Edit FibNode) :=
  diff fibNodeKeyCmpCb newr.arr oldr.arr

end Ucentral.Router
