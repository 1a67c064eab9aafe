import Mathlib.Data.Multiset.AddSub

/-! A completion queue.

    An operation is started under a tag and is in flight from then on. It completes at some time, and
    its event waits in the queue until somebody takes it out. Operations complete in any order, and
    events are taken in any order. -/

namespace Completion

variable {τ : Type}

/-- The operations that have not completed, and the events of those that have. -/
structure Queue (τ : Type) where
  pending : List τ := []
  ready : List (τ × Bool) := []

namespace Queue

/-- The tags of all operations whose event nobody has taken. -/
def inFlight (q : Queue τ) : Multiset τ := ↑(q.pending ++ q.ready.map Prod.fst)

def start (t : τ) (q : Queue τ) : Queue τ := { q with pending := t :: q.pending }

/-- The operation `t` completes, with or without success. -/
def complete [DecidableEq τ] (t : τ) (ok : Bool) (q : Queue τ) : Queue τ where
  pending := q.pending.erase t
  ready := q.ready ++ [(t, ok)]

/-- Somebody takes an event. -/
def take [DecidableEq τ] (e : τ × Bool) (q : Queue τ) : Queue τ := { q with ready := q.ready.erase e }

@[simp] theorem ready_start (t : τ) (q : Queue τ) : (q.start t).ready = q.ready := rfl

@[simp] theorem inFlight_start (t : τ) (q : Queue τ) : (q.start t).inFlight = t ::ₘ q.inFlight := rfl

/-- An operation that completes stays in flight. -/
theorem inFlight_complete [DecidableEq τ] {t : τ} {q : Queue τ} (h : t ∈ q.pending) (ok : Bool) :
    (q.complete t ok).inFlight = q.inFlight := by
  unfold inFlight complete
  rw [Multiset.coe_eq_coe, List.map_append, ← List.append_assoc]
  have herase : (t :: (q.pending.erase t ++ q.ready.map Prod.fst)).Perm
      (q.pending ++ q.ready.map Prod.fst) := (List.perm_cons_erase h).symm.append_right _
  exact List.perm_append_comm.trans herase

/-- Taking an event ends the flight of its operation. -/
theorem inFlight_take [DecidableEq τ] {e : τ × Bool} {q : Queue τ} (h : e ∈ q.ready) :
    q.inFlight = e.1 ::ₘ (q.take e).inFlight := by
  unfold inFlight take
  rw [Multiset.cons_coe, Multiset.coe_eq_coe]
  have hmap : (q.ready.map Prod.fst).Perm (e.1 :: (q.ready.erase e).map Prod.fst) :=
    (List.perm_cons_erase h).map Prod.fst
  exact (hmap.append_left _).trans List.perm_middle

theorem mem_inFlight_of_ready {e : τ × Bool} {q : Queue τ} (h : e ∈ q.ready) : e.1 ∈ q.inFlight :=
  List.mem_append_right _ (List.mem_map_of_mem h)

theorem mem_inFlight_of_pending {t : τ} {q : Queue τ} (h : t ∈ q.pending) : t ∈ q.inFlight :=
  List.mem_append_left _ h

end Queue

end Completion
