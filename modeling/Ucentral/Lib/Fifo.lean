import Mathlib.Data.List.Induction
import Mathlib.Order.Lattice

/-! Queues of bounded capacity that drop their oldest entry when they are full. -/

namespace Fifo

variable {α : Type}

/-- Append an entry; of a full queue the oldest goes. -/
def push (cap : ℕ) (q : List α) (a : α) : List α := (q ++ [a]).drop (q.length + 1 - cap)

theorem push_of_lt {cap : ℕ} {q : List α} (h : q.length < cap) (a : α) : push cap q a = q ++ [a] := by
  have hzero : q.length + 1 - cap = 0 := by omega
  rw [push, hzero, List.drop_zero]

theorem push_of_full {cap : ℕ} {b : α} {q : List α} (h : (b :: q).length = cap) (a : α) :
    push cap (b :: q) a = q ++ [a] := by
  have hone : (b :: q).length + 1 - cap = 1 := by omega
  rw [push, hone]
  rfl

/-- Of the entries pushed onto an empty queue the last ones are there. -/
theorem foldl_push (cap : ℕ) (l : List α) : l.foldl (push cap) [] = l.drop (l.length - cap) := by
  induction l using List.reverseRecOn with
  | nil => simp
  | append_singleton l a ih =>
    have hsplit : (l.drop (l.length - cap)).length + 1 - cap =
        (l.length + 1 - cap) - (l.length - cap) := by
      rw [List.length_drop]
      omega
    rw [List.foldl_append, ih, List.foldl_cons, List.foldl_nil, push, hsplit]
    have hcut : l.length - cap ≤ l.length := Nat.sub_le _ _
    rw [← List.drop_append_of_le_length hcut, List.drop_drop, List.length_append,
      List.length_singleton]
    congr 1
    omega

end Fifo
