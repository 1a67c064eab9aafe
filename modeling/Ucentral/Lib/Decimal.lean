import Mathlib.Data.Nat.Notation
import Mathlib.Tactic.Common

/-! Decimal numbers in text: what `%u` prints and what a digit loop reads back.

    A reader eats the digits at the front of its input and leaves the rest. Reading the digits of
    `n` followed by anything that does not start with a digit gives `n` and that rest. -/

namespace Decimal

/-- The value of a decimal digit. -/
def digit (c : Char) : ℕ := c.toNat - '0'.toNat

/-- The text of `n`, as `%u` prints it. -/
def print (n : ℕ) : List Char := Nat.toDigits 10 n

/-- Eat the digits at the front, on top of what has been read so far. -/
def readNat : List Char → ℕ → ℕ × List Char
  | [], acc => (acc, [])
  | c :: cs, acc => if c.isDigit then readNat cs (10 * acc + digit c) else (acc, c :: cs)

/-- The same loop, giving up as soon as the number is above `bound`. -/
def readUpTo (bound : ℕ) : List Char → ℕ → Option (ℕ × List Char)
  | [], acc => some (acc, [])
  | c :: cs, acc =>
    if c.isDigit then
      if bound < 10 * acc + digit c then none else readUpTo bound cs (10 * acc + digit c)
    else some (acc, c :: cs)

/-- Does the text start with a digit? -/
def startsDigit : List Char → Bool
  | [] => false
  | c :: _ => c.isDigit

theorem print_digits {n : ℕ} {c : Char} (h : c ∈ print n) : c.isDigit :=
  Nat.isDigit_of_mem_toDigits (by decide) (by decide) h

theorem print_ne_nil (n : ℕ) : print n ≠ [] := Nat.toDigits_ne_nil

theorem startsDigit_print (n : ℕ) (rest : List Char) : startsDigit (print n ++ rest) = true := by
  cases h : print n with
  | nil => exact absurd h (print_ne_nil n)
  | cons c cs => exact print_digits (n := n) (by rw [h]; exact List.mem_cons_self ..)

theorem readNat_stop {rest : List Char} (h : startsDigit rest = false) (acc : ℕ) :
    readNat rest acc = (acc, rest) := by
  cases rest with
  | nil => rfl
  | cons c cs =>
    have hc : c.isDigit = false := h
    rw [readNat, hc]; rfl

theorem readNat_append : ∀ (ds rest : List Char) (acc : ℕ), (∀ c ∈ ds, c.isDigit) →
    startsDigit rest = false → readNat (ds ++ rest) acc = (Nat.ofDigitChars 10 ds acc, rest)
  | [], rest, acc, _, hr => by rw [List.nil_append, readNat_stop hr, Nat.ofDigitChars_nil]
  | d :: ds, rest, acc, hd, hr => by
      rw [List.cons_append, readNat, if_pos (hd d (List.mem_cons_self ..)),
        readNat_append ds rest _ (fun c hc => hd c (List.mem_cons_of_mem _ hc)) hr,
        Nat.ofDigitChars_cons]
      rfl

/-- Reading a printed number back. -/
theorem readNat_print (n : ℕ) {rest : List Char} (h : startsDigit rest = false) :
    readNat (print n ++ rest) 0 = (n, rest) := by
  rw [readNat_append (print n) rest 0 (fun _ hc => print_digits hc) h]
  rw [print, Nat.ofDigitChars_ten_toDigits]

theorem print_inj {m n : ℕ} (h : print m = print n) : m = n := by
  have hm : readNat (print m) 0 = (m, []) := by
    simpa using readNat_print m (show startsDigit [] = false from rfl)
  have hn : readNat (print n) 0 = (n, []) := by
    simpa using readNat_print n (show startsDigit [] = false from rfl)
  rw [h, hn] at hm
  exact (Prod.mk.inj hm).1.symm

/-! The bytes of a number. -/

/-- The text of `n` in a field of bytes. -/
def printBytes (n : ℕ) : List UInt8 := (print n).map Char.toUInt8

theorem char_of_digit {c : Char} (h : c.isDigit) : Char.ofNat c.toUInt8.toNat = c := by
  have hrange := Char.isDigit_iff_toNat.mp h
  have hlt : c.toNat < 256 := Nat.lt_of_le_of_lt hrange.2 (by decide)
  have hbyte : c.toUInt8.toNat = c.toNat := Nat.mod_eq_of_lt hlt
  rw [hbyte, Char.ofNat_toNat]

/-- The characters are found again in the bytes. -/
theorem chars_printBytes (n : ℕ) :
    ((printBytes n).map fun b => Char.ofNat b.toNat) = print n := by
  unfold printBytes
  rw [List.map_map]
  exact (List.map_congr_left fun c hc => char_of_digit (print_digits hc)).trans (List.map_id _)

theorem printBytes_inj {m n : ℕ} (h : printBytes m = printBytes n) : m = n := by
  have hchars := congrArg (List.map fun b : UInt8 => Char.ofNat b.toNat) h
  rw [chars_printBytes, chars_printBytes] at hchars
  exact print_inj hchars

/-- A number below 65536 has at most five digits. -/
theorem length_printBytes_le {n : ℕ} (h : n < 65536) : (printBytes n).length ≤ 5 := by
  rw [printBytes, List.length_map, print]
  exact (Nat.length_toDigits_le_iff (by decide) (by decide)).mpr (Nat.lt_trans h (by decide))

/-! Bounded reading. -/

theorem le_ofDigitChars : ∀ (ds : List Char) (acc : ℕ), acc ≤ Nat.ofDigitChars 10 ds acc
  | [], acc => by simp [Nat.ofDigitChars_nil]
  | d :: ds, acc => by
      rw [Nat.ofDigitChars_cons]
      have := le_ofDigitChars ds (10 * acc + (d.toNat - '0'.toNat))
      omega

theorem readUpTo_append (bound : ℕ) : ∀ (ds rest : List Char) (acc : ℕ), (∀ c ∈ ds, c.isDigit) →
    startsDigit rest = false → Nat.ofDigitChars 10 ds acc ≤ bound →
    readUpTo bound (ds ++ rest) acc = some (Nat.ofDigitChars 10 ds acc, rest)
  | [], rest, acc, _, hr, _ => by
      rw [List.nil_append, Nat.ofDigitChars_nil]
      cases rest with
      | nil => rfl
      | cons c cs =>
        have hc : c.isDigit = false := hr
        rw [readUpTo, hc]; rfl
  | d :: ds, rest, acc, hd, hr, hb => by
      rw [Nat.ofDigitChars_cons] at hb ⊢
      have hle := le_ofDigitChars ds (10 * acc + (d.toNat - '0'.toNat))
      have hnot : ¬ bound < 10 * acc + digit d := by unfold digit; omega
      rw [List.cons_append, readUpTo, if_pos (hd d (List.mem_cons_self ..)), if_neg hnot]
      exact readUpTo_append bound ds rest _ (fun c hc => hd c (List.mem_cons_of_mem _ hc)) hr hb

/-- A printed number within the bound is read back by the bounded loop too. -/
theorem readUpTo_print {bound n : ℕ} (hn : n ≤ bound) {rest : List Char}
    (h : startsDigit rest = false) : readUpTo bound (print n ++ rest) 0 = some (n, rest) := by
  have hval : Nat.ofDigitChars 10 (print n) 0 = n := Nat.ofDigitChars_ten_toDigits
  rw [readUpTo_append bound (print n) rest 0 (fun _ hc => print_digits hc) h (by rwa [hval]), hval]

end Decimal
