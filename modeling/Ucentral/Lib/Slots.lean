import Mathlib.Logic.Function.Basic
import Mathlib.Data.Nat.Notation
import Mathlib.Tactic.Common

/-! Arrays that are filled slot by slot from a cursor on.

    An array is a function from its indices. What matters of it are the slots before the cursor. -/

namespace Slots

variable {α : Type}

/-- Fill the slots from `i` on with the values, in order. -/
def fillFrom (slots : ℕ → α) (i : ℕ) : List α → ℕ → α
  | [] => slots
  | x :: xs => fillFrom (Function.update slots i x) (i + 1) xs

theorem fillFrom_append : ∀ (xs ys : List α) (slots : ℕ → α) (i : ℕ),
    fillFrom slots i (xs ++ ys) = fillFrom (fillFrom slots i xs) (i + xs.length) ys
  | [], _, _, _ => rfl
  | x :: xs, ys, slots, i => by
      rw [List.cons_append, fillFrom, fillFrom_append xs ys, fillFrom, List.length_cons, Nat.add_assoc,
        Nat.add_comm 1]

/-- The slots before `n`. -/
def upTo (slots : ℕ → α) (n : ℕ) : List α := (List.range n).map slots

theorem upTo_update (slots : ℕ → α) (i : ℕ) (x : α) :
    upTo (Function.update slots i x) (i + 1) = upTo slots i ++ [x] := by
  unfold upTo
  rw [List.range_succ, List.map_append, List.map_singleton, Function.update_self]
  congr 1
  refine List.map_congr_left fun k hk => ?_
  exact Function.update_of_ne (Nat.ne_of_lt (List.mem_range.mp hk)) _ _

/-- After filling, the slots are the old ones before the cursor and the values behind them. -/
theorem upTo_fillFrom : ∀ (xs : List α) (slots : ℕ → α) (i : ℕ),
    upTo (fillFrom slots i xs) (i + xs.length) = upTo slots i ++ xs
  | [], slots, i => (List.append_nil _).symm
  | x :: xs, slots, i => by
      have hrest := upTo_fillFrom xs (Function.update slots i x) (i + 1)
      rw [fillFrom, List.length_cons, Nat.add_comm xs.length 1, ← Nat.add_assoc, hrest, upTo_update,
        List.append_assoc, List.singleton_append]

/-- An array that a caller offers, with the number of its slots; there are none behind a null pointer. -/
structure Room (α : Type) where
  list : Option (ℕ → α)
  size : ℕ
  null_empty : list = none → size = 0

theorem Room.isNone_list (r : Room α) (h : r.size ≠ 0) : r.list.isNone = false := by
  cases hlist : r.list with
  | none => exact absurd (r.null_empty hlist) h
  | some list => rfl

end Slots
