import Mathlib.Data.List.Nodup
import Mathlib.Logic.Function.Basic
import Mathlib.Tactic.Common

/-! Singly linked lists in a heap.

    A heap maps the addresses in use to cells. `Chain h p xs` says that the pointer `p` leads through
    the cells `xs`, each given with its address, to a null pointer. A step that touches other
    addresses leaves a chain as it is. -/

namespace Linked

variable {μ : Type}

structure Cell (μ : Type) where
  next : Option ℕ
  data : μ

/-- The cells in use, by address. A null pointer is `none`. -/
abbrev Heap (μ : Type) := ℕ → Option (Cell μ)

/-- Cells with their addresses. -/
abbrev Cells (μ : Type) := List (ℕ × μ)

/-- `a->next = p`. -/
def setNext (h : Heap μ) (a : ℕ) (p : Option ℕ) : Heap μ :=
  match h a with
  | none => h
  | some c => Function.update h a (some { c with next := p })

/-- From `p` on the heap holds these cells, and no more. -/
def Chain (h : Heap μ) : Option ℕ → Cells μ → Prop
  | p, [] => p = none
  | p, (a, m) :: xs => p = some a ∧ ∃ q, h a = some ⟨q, m⟩ ∧ Chain h q xs

/-- The address of the last cell. -/
def lastAddr (xs : Cells μ) : Option ℕ := xs.getLast?.map Prod.fst

variable {h : Heap μ}

theorem setNext_of_ne {a b : ℕ} (hne : b ≠ a) (p : Option ℕ) : setNext h a p b = h b := by
  cases hcell : h a with
  | none => simp [setNext, hcell]
  | some c => simp [setNext, hcell, Function.update_of_ne hne]

@[simp] theorem chain_nil {p : Option ℕ} : Chain h p [] ↔ p = none := Iff.rfl

/-- A pointer that leads somewhere starts with its own cell. -/
theorem chain_some {a : ℕ} : ∀ {xs : Cells μ}, Chain h (some a) xs →
    ∃ m q ys, xs = (a, m) :: ys ∧ h a = some ⟨q, m⟩ ∧ Chain h q ys
  | [], hc => by cases hc
  | (b, m) :: ys, hc => by
      obtain ⟨hb, q, hcell, hrest⟩ := hc
      cases hb
      exact ⟨m, q, ys, rfl, hcell, hrest⟩

theorem chain_none : ∀ {xs : Cells μ}, Chain h none xs → xs = []
  | [], _ => rfl
  | (_, _) :: _, hc => by cases hc.1

/-- The pointer is null exactly if there are no cells. -/
theorem chain_eq_none_iff {p : Option ℕ} {xs : Cells μ} (hc : Chain h p xs) :
    p = none ↔ xs = [] := by
  constructor
  · rintro rfl
    exact chain_none hc
  · rintro rfl
    exact hc

theorem lastAddr_eq_none_iff {xs : Cells μ} : lastAddr xs = none ↔ xs = [] := by
  simp [lastAddr]

theorem lastAddr_append (xs : Cells μ) (a : ℕ) (m : μ) : lastAddr (xs ++ [(a, m)]) = some a := by
  simp [lastAddr]

theorem exists_of_lastAddr {xs : Cells μ} {t : ℕ} (ht : lastAddr xs = some t) :
    ∃ ys m, xs = ys ++ [(t, m)] := by
  rcases List.eq_nil_or_concat' xs with rfl | ⟨ys, ⟨a, m⟩, rfl⟩
  · cases ht
  · rw [lastAddr_append] at ht
    cases ht
    exact ⟨ys, m, rfl⟩

/-- All cells of a chain are in use. -/
theorem chain_used {xs : Cells μ} {p : Option ℕ} (hc : Chain h p xs) : ∀ x ∈ xs, (h x.1).isSome := by
  induction xs generalizing p with
  | nil => simp
  | cons y xs ih =>
    obtain ⟨-, q, hcell, hrest⟩ := hc
    intro x hx
    rcases List.mem_cons.mp hx with rfl | hx
    · simp [hcell]
    · exact ih hrest x hx

theorem notMem_of_free {xs : Cells μ} {p : Option ℕ} (hc : Chain h p xs) {a : ℕ} (ha : h a = none) :
    a ∉ xs.map Prod.fst := by
  intro hmem
  obtain ⟨x, hx, rfl⟩ := List.mem_map.mp hmem
  have hused := chain_used hc x hx
  rw [ha] at hused
  cases hused

/-- Other addresses do not matter. -/
theorem chain_update {a : ℕ} (v : Option (Cell μ)) {xs : Cells μ} {p : Option ℕ} (hc : Chain h p xs)
    (ha : a ∉ xs.map Prod.fst) : Chain (Function.update h a v) p xs := by
  induction xs generalizing p with
  | nil => exact hc
  | cons x xs ih =>
    obtain ⟨hp, q, hcell, hrest⟩ := hc
    rw [List.map_cons, List.mem_cons, not_or] at ha
    refine ⟨hp, q, ?_, ih hrest ha.2⟩
    rw [Function.update_of_ne (Ne.symm ha.1), hcell]

theorem chain_setNext {a : ℕ} {p' : Option ℕ} {xs : Cells μ} {p : Option ℕ} (hc : Chain h p xs)
    (ha : a ∉ xs.map Prod.fst) : Chain (setNext h a p') p xs := by
  cases hcell : h a with
  | none => simpa [setNext, hcell] using hc
  | some c => simpa [setNext, hcell] using chain_update _ hc ha

/-- A cell is linked in front of a chain. -/
theorem chain_setNext_front {a : ℕ} {m : μ} {q p : Option ℕ} {xs : Cells μ}
    (hcell : h a = some ⟨q, m⟩) (hc : Chain h p xs) (ha : a ∉ xs.map Prod.fst) :
    Chain (setNext h a p) (some a) ((a, m) :: xs) := by
  refine ⟨rfl, p, ?_, chain_setNext hc ha⟩
  simp [setNext, hcell]

theorem chain_setNext_concat {t b : ℕ} {m m' : μ} (hb : h b = some ⟨none, m'⟩) :
    ∀ {xs : Cells μ} {p : Option ℕ}, Chain h p (xs ++ [(t, m)]) →
      (((xs ++ [(t, m)]).map Prod.fst) ++ [b]).Nodup →
        Chain (setNext h t (some b)) p (xs ++ [(t, m)] ++ [(b, m')])
  | [], p, ⟨hp, q, hcell, hq⟩, hnodup => by
      have hne : b ≠ t := by
        rintro rfl
        simp at hnodup
      refine ⟨hp, some b, by simp [setNext, hcell], rfl, none, ?_, rfl⟩
      rw [setNext_of_ne hne, hb]
  | (a, n) :: xs, p, ⟨hp, q, hcell, hrest⟩, hnodup => by
      rw [List.cons_append, List.map_cons, List.cons_append, List.nodup_cons] at hnodup
      have hne : a ≠ t := by
        rintro rfl
        simp at hnodup
      refine ⟨hp, q, ?_, chain_setNext_concat hb hrest hnodup.2⟩
      rw [setNext_of_ne hne, hcell]

/-- A cell is linked behind the last one of a chain. -/
theorem chain_setNext_last {t b : ℕ} {m : μ} {xs : Cells μ} {p : Option ℕ} (hc : Chain h p xs)
    (ht : lastAddr xs = some t) (hb : h b = some ⟨none, m⟩) (hnodup : (xs.map Prod.fst ++ [b]).Nodup) :
    Chain (setNext h t (some b)) p (xs ++ [(b, m)]) := by
  obtain ⟨ys, n, rfl⟩ := exists_of_lastAddr ht
  exact chain_setNext_concat hb hc hnodup

theorem lastAddr_mem {xs : Cells μ} {t : ℕ} (ht : lastAddr xs = some t) : t ∈ xs.map Prod.fst := by
  obtain ⟨ys, m, rfl⟩ := exists_of_lastAddr ht
  simp

end Linked
