import Mathlib.Data.Nat.Notation
import Mathlib.Order.Basic
import Mathlib.Tactic.Common

/-! Loops that may fail, or never end.

    A turn of a loop fails, goes on from a new state, or leaves with a result. A loop is run for so many
    turns; if they do not suffice there is no result, as if it had failed. Where a measure goes down with
    every turn, more turns than the measure has at first suffice. -/

namespace Loop

variable {σ ρ : Type} {turn : σ → Option (σ ⊕ ρ)}

/-- A loop, for at most so many turns. -/
def run (turn : σ → Option (σ ⊕ ρ)) : ℕ → σ → Option ρ
  | 0, _ => none
  | turns + 1, s =>
    match turn s with
    | none => none
    | some (.inl next) => run turn turns next
    | some (.inr r) => some r

theorem run_next {s next : σ} (h : turn s = some (.inl next)) (turns : ℕ) :
    run turn (turns + 1) s = run turn turns next := by
  rw [run, h]

theorem run_leave {s : σ} {r : ρ} (h : turn s = some (.inr r)) (turns : ℕ) :
    run turn (turns + 1) s = some r := by
  rw [run, h]

/-- A turn from `s` goes on in `I` with a smaller measure, or leaves in `Q`. -/
def Turns (turn : σ → Option (σ ⊕ ρ)) (I : σ → Prop) (m : σ → ℕ) (Q : ρ → Prop) (s : σ) : Prop :=
  (∃ next, turn s = some (.inl next) ∧ I next ∧ m next < m s) ∨ ∃ r, turn s = some (.inr r) ∧ Q r

/-- A loop that keeps `I` while a measure goes down ends, and it ends in `Q`. -/
theorem run_total {I : σ → Prop} {m : σ → ℕ} {Q : ρ → Prop} (h : ∀ s, I s → Turns turn I m Q s) :
    ∀ (turns : ℕ) (s : σ), I s → m s < turns → ∃ r, run turn turns s = some r ∧ Q r
  | 0, _, _, hm => absurd hm (Nat.not_lt_zero _)
  | turns + 1, s, hs, hm => by
      rcases h s hs with ⟨next, hturn, hnext, hlt⟩ | ⟨r, hturn, hr⟩
      · obtain ⟨r, hrun, hr⟩ := run_total h turns next hnext (by omega)
        exact ⟨r, (run_next hturn turns).trans hrun, hr⟩
      · exact ⟨r, run_leave hturn turns, hr⟩

end Loop
