import Mathlib.Data.List.Basic
import Mathlib.Tactic.Common

/-! Blocks of memory with bounds.

    A cell that was never written holds nothing. An access outside of the block fails, and so does a read
    of a cell that holds nothing: a program that ends has stayed inside, and has only read what was
    written. -/

/-- A block, cell by cell. -/
abbrev Block (α : Type) := List (Option α)

namespace Block

variable {α : Type}

/-- What `malloc` gives: `n` cells that were never written. -/
def uninit (n : ℕ) : Block α := List.replicate n none

/-- A block with these values in it. -/
def holding (xs : List α) : Block α := xs.map some

def load (b : Block α) (i : ℕ) : Option α := b[i]?.join

def store (b : Block α) (i : ℕ) (a : α) : Option (Block α) :=
  if i < b.length then some (b.set i (some a)) else none

@[simp] theorem length_uninit (n : ℕ) : (uninit n : Block α).length = n := List.length_replicate

@[simp] theorem length_holding (xs : List α) : (holding xs).length = xs.length := List.length_map _

@[simp] theorem load_holding (xs : List α) (i : ℕ) : load (holding xs) i = xs[i]? := by
  unfold load holding
  rw [List.getElem?_map]
  cases xs[i]? with
  | none => rfl
  | some a => rfl

@[simp] theorem load_uninit (n i : ℕ) : load (uninit n : Block α) i = none := by
  unfold load uninit
  rw [List.getElem?_replicate]
  split <;> rfl

section Store

variable {b : Block α} {i : ℕ} (h : i < b.length) (a : α)
include h

theorem store_eq : b.store i a = some (b.set i (some a)) := if_pos h

theorem load_set_self : load (b.set i (some a)) i = some a := by
  rw [load, List.getElem?_set_self h]
  rfl

end Store

theorem load_set_ne {b : Block α} {i k : ℕ} (h : i ≠ k) (a : Option α) :
    load (b.set i a) k = b.load k := by
  rw [load, load, List.getElem?_set_ne h]

/-! ### Copies and texts -/

/-- `memcpy(dst, src, n)` -/
def copy (src dst : Block α) (n : ℕ) : Option (Block α) :=
  if n ≤ src.length ∧ n ≤ dst.length then some (src.take n ++ dst.drop n) else none

/-- The text in a block, up to a NUL; it cannot be read if there is none. -/
def readText : Block UInt8 → Option (List UInt8)
  | [] => none
  | none :: _ => none
  | some c :: rest => if c = 0 then some [] else (readText rest).map (c :: ·)

/-- A text is read exactly if the block begins with it and a NUL. -/
theorem readText_eq_some_iff : ∀ {b : Block UInt8} {t : List UInt8},
    b.readText = some t ↔ 0 ∉ t ∧ ∃ rest, b = holding t ++ some 0 :: rest
  | [], t => iff_of_false (by simp [readText]) (by simp)
  | none :: b, t => by
      refine iff_of_false (by simp [readText]) ?_
      rintro ⟨-, rest, hrest⟩
      cases t <;> simp [holding] at hrest
  | some c :: b, [] => by
      by_cases hc : c = 0
      · simp [readText, hc, holding]
      · simp [readText, hc, holding]
  | some c :: b, d :: t => by
      by_cases hc : c = 0
      · refine iff_of_false (by simp [readText, hc]) ?_
        rintro ⟨hnul, rest, hrest⟩
        have hd : c = d := Option.some.inj (List.cons.inj hrest).1
        exact hnul (List.mem_cons.mpr (Or.inl (hc.symm.trans hd)))
      · rw [readText, if_neg hc, Option.map_eq_some_iff, List.mem_cons, not_or]
        constructor
        · rintro ⟨u, hu, htail⟩
          obtain ⟨rfl, rfl⟩ := List.cons.inj htail
          obtain ⟨hnul, rest, rfl⟩ := readText_eq_some_iff.mp hu
          exact ⟨⟨fun h => hc h.symm, hnul⟩, rest, rfl⟩
        · rintro ⟨⟨-, hnul⟩, rest, hrest⟩
          obtain ⟨hd, hb⟩ := List.cons.inj hrest
          exact ⟨t, readText_eq_some_iff.mpr ⟨hnul, rest, hb⟩, by rw [Option.some.inj hd]⟩

end Block
