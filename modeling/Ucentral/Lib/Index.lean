import Ucentral.Lib.Effect
import Ucentral.Lib.Parser

/-! Parsers that put values into arrays, with the indices they use on record.

    An array is a function here, so an index out of its bounds goes unnoticed. An `Indexed` parser
    keeps a list of all indices it has used. Forgetting the list must give the plain parser back:
    this is `Erases`. What is asked of the list is that all of it stays below a bound. -/

namespace Parse
open Effect (Traced)

variable {σ α β : Type}

/-- A parser over a structure and the indices used so far, oldest first. -/
abbrev Indexed (σ α : Type) := Parser (Traced σ ℕ) α

namespace Indexed

/-- `a[i] = ...` and the like. -/
def store (i : ℕ) (f : σ → σ) : Indexed σ Unit :=
  Parser.fill fun s => ⟨f s.state, s.log ++ [i]⟩

/-- A part that uses no index that is asked about. -/
def plain (x : Parser σ α) : Indexed σ α := fun s => ((x s.state).1, ⟨(x s.state).2, s.log⟩)

end Indexed

open Indexed

/-! ### The record can be forgotten -/

/-- Without the record, this is the plain parser. -/
def Erases (x : Indexed σ α) (y : Parser σ α) : Prop :=
  ∀ s, (x s).1 = (y s.state).1 ∧ (x s).2.state = (y s.state).2

theorem erases_pure (a : α) : Erases (pure a) (pure a : Parser σ α) := fun _ => ⟨rfl, rfl⟩

theorem erases_store (i : ℕ) (f : σ → σ) : Erases (store i f) (Parser.fill f) :=
  fun _ => ⟨rfl, rfl⟩

theorem erases_plain (x : Parser σ α) : Erases (plain x) x := fun _ => ⟨rfl, rfl⟩

theorem erases_pass (c : Check) : Erases (c.pass) (c.pass : Parser σ Unit) := by
  intro s
  unfold Check.pass
  split <;> exact ⟨rfl, rfl⟩

theorem erases_bind {x : Indexed σ α} {y : Parser σ α} {f : α → Indexed σ β} {g : α → Parser σ β}
    (hx : Erases x y) (hf : ∀ a, Erases (f a) (g a)) : Erases (x >>= f) (y >>= g) := by
  intro s
  obtain ⟨hres, hstate⟩ := hx s
  change (Parser.bind x f s).1 = (Parser.bind y g s.state).1 ∧
    (Parser.bind x f s).2.state = (Parser.bind y g s.state).2
  unfold Parser.bind
  rcases hxs : x s with ⟨e | a, t⟩ <;> rcases hys : y s.state with ⟨e' | b, u⟩ <;>
    rw [hxs, hys] at hres hstate <;> cases hres
  · exact ⟨rfl, hstate⟩
  · subst hstate
    exact hf a t

/-- An index that is only read leaves the structure alone. -/
theorem erases_load_bind {i : ℕ} {f : Unit → Indexed σ β} {y : Parser σ β} (h : Erases (f ()) y) :
    Erases (store i (fun s => s) >>= f) y :=
  fun s => h ⟨s.state, s.log ++ [i]⟩

theorem erases_loads_bind (i : α → ℕ) {f : Unit → Indexed σ β} {y : Parser σ β}
    (h : Erases (f ()) y) (xs : List α) :
    Erases ((forM xs fun x => store (i x) fun s => s) >>= f) y := by
  induction xs with
  | nil => exact h
  | cons x xs ih => exact fun s => ih ⟨s.state, s.log ++ [i x]⟩

/-- A loop that uses an index in each turn is a fold. -/
theorem erases_forM_store (i : β → ℕ) (f : β → σ → σ) (xs : List β) :
    Erases (forM xs fun x => store (i x) (f x))
      (Parser.fill fun s => xs.foldl (fun s x => f x s) s) := by
  induction xs with
  | nil => exact fun _ => ⟨rfl, rfl⟩
  | cons x xs ih =>
    intro s
    rw [List.forM_cons]
    exact ih ⟨f x s.state, s.log ++ [i x]⟩

/-! ### Indices below a bound -/

/-- The record only grows, and all that is added to it is below the bound. -/
def InBounds (n : ℕ) (x : Indexed σ α) : Prop :=
  ∀ s, ∃ l, (x s).2.log = s.log ++ l ∧ ∀ i ∈ l, i < n

variable {n : ℕ}

theorem inBounds_pure (a : α) : InBounds n (pure a : Indexed σ α) :=
  fun s => ⟨[], (List.append_nil s.log).symm, by simp⟩

theorem inBounds_store {i : ℕ} (f : σ → σ) (h : i < n) : InBounds n (store i f) :=
  fun _ => ⟨[i], rfl, by simpa using h⟩

theorem inBounds_plain (x : Parser σ α) : InBounds n (plain x) :=
  fun s => ⟨[], (List.append_nil s.log).symm, by simp⟩

theorem inBounds_bind {x : Indexed σ α} {f : α → Indexed σ β} (hx : InBounds n x)
    (hf : ∀ a, InBounds n (f a)) : InBounds n (x >>= f) := by
  intro s
  obtain ⟨l, hl, hlt⟩ := hx s
  change ∃ l, (Parser.bind x f s).2.log = s.log ++ l ∧ ∀ i ∈ l, i < n
  unfold Parser.bind
  rcases hxs : x s with ⟨e | a, t⟩
  · rw [hxs] at hl
    exact ⟨l, hl, hlt⟩
  · rw [hxs] at hl
    obtain ⟨l', hl', hlt'⟩ := hf a t
    refine ⟨l ++ l', by rw [hl', hl, List.append_assoc], fun i hi => ?_⟩
    exact (List.mem_append.mp hi).elim (hlt i) (hlt' i)

/-- What comes after a check may rely on it. -/
theorem inBounds_pass_bind {c : Check} {f : Unit → Indexed σ β}
    (hf : c.holds = true → InBounds n (f ())) : InBounds n (c.pass >>= f) := by
  intro s
  rw [pass_bind]
  by_cases hc : c.holds = true
  · rw [if_pos hc]
    exact hf hc s
  · rw [if_neg hc]
    exact ⟨[], (List.append_nil s.log).symm, by simp⟩

theorem inBounds_pass (c : Check) : InBounds n (c.pass : Indexed σ Unit) := by
  intro s
  rw [pass_snd]
  exact ⟨[], (List.append_nil s.log).symm, by simp⟩

theorem inBounds_need_bind {b : Bool} {f : Unit → Indexed σ β}
    (hf : b = true → InBounds n (f ())) : InBounds n (need b >>= f) :=
  inBounds_pass_bind hf

theorem inBounds_forM {f : β → Indexed σ Unit} (xs : List β) (h : ∀ x ∈ xs, InBounds n (f x)) :
    InBounds n (forM xs f) := by
  induction xs with
  | nil => exact inBounds_pure ()
  | cons x xs ih =>
    rw [List.forM_cons]
    refine inBounds_bind (h x (List.mem_cons_self ..)) fun _ => ?_
    exact ih fun y hy => h y (List.mem_cons_of_mem _ hy)

/-- A plain part at the end adds nothing to the record. -/
theorem bind_plain_log (x : Indexed σ α) (y : Parser σ β) (s : Traced σ ℕ) :
    ((x >>= fun _ => plain y) s).2.log = (x s).2.log := by
  change (Parser.bind x (fun _ => plain y) s).2.log = _
  unfold Parser.bind
  rcases x s with ⟨e | a, t⟩ <;> rfl

/-- A loop that uses an index in each turn has used them all. -/
theorem forM_store_log (i : β → ℕ) (f : β → σ → σ) (xs : List β) (s : Traced σ ℕ) :
    ((forM xs fun x => store (i x) (f x) : Indexed σ Unit) s).2.log = s.log ++ xs.map i := by
  induction xs generalizing s with
  | nil => exact (List.append_nil s.log).symm
  | cons x xs ih =>
    rw [List.forM_cons]
    change ((forM xs fun x => store (i x) (f x) : Indexed σ Unit)
      ⟨f x s.state, s.log ++ [i x]⟩).2.log = _
    rw [ih, List.append_assoc]
    rfl

end Parse
