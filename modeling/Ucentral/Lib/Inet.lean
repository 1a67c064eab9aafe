import Ucentral.Lib.Decimal
import Mathlib.Data.Int.Notation

/-! IPv4 addresses and their text, as the C library has them.

    An `in_addr` is four octets in network order. `inetNtop` prints the dotted form, `inetPton`
    reads exactly that form back, and `inetNetPton` reads the looser network form: one to four
    octets (or a hexadecimal string) and an optional `/len`. The network reader writes only the
    octets it has read, so its result depends on what the destination held before. -/

namespace Inet
open Decimal

/-- Numbers may be written for octets. -/
instance instNeZeroOctets : @NeZero ℕ Zero.ofOfNat0 256 := @Nat.instNeZeroSucc 255

/-- `struct in_addr`: the octets in the order they are stored. -/
structure InAddr where
  b0 : Fin 256
  b1 : Fin 256
  b2 : Fin 256
  b3 : Fin 256
  deriving DecidableEq, Repr

namespace InAddr

/-- `s_addr` on a little-endian host. -/
def sAddr (a : InAddr) : ℕ := a.b0 + 256 * a.b1 + 65536 * a.b2 + 16777216 * a.b3

theorem sAddr_injective : Function.Injective sAddr := by
  rintro ⟨a0, a1, a2, a3⟩ ⟨c0, c1, c2, c3⟩ h
  simp only [sAddr] at h
  have h0 : a0 = c0 := Fin.ext (by omega)
  have h1 : a1 = c1 := Fin.ext (by omega)
  have h2 : a2 = c2 := Fin.ext (by omega)
  have h3 : a3 = c3 := Fin.ext (by omega)
  rw [h0, h1, h2, h3]

def zero : InAddr := ⟨0, 0, 0, 0⟩

def ofOctets (o0 o1 o2 o3 : ℕ) : InAddr :=
  ⟨Fin.ofNat 256 o0, Fin.ofNat 256 o1, Fin.ofNat 256 o2, Fin.ofNat 256 o3⟩

/-- Store the octet `o` at place `i`; the destination has four places. -/
def put (a : InAddr) (i : ℕ) (o : ℕ) : InAddr :=
  match i with
  | 0 => { a with b0 := Fin.ofNat 256 o }
  | 1 => { a with b1 := Fin.ofNat 256 o }
  | 2 => { a with b2 := Fin.ofNat 256 o }
  | 3 => { a with b3 := Fin.ofNat 256 o }
  | _ => a

/-- Overwrite the first octets of the destination from place `i` on. -/
def putAll (a : InAddr) : ℕ → List ℕ → InAddr
  | _, [] => a
  | i, o :: os => putAll (a.put i o) (i + 1) os

end InAddr

/-- `inet_ntop(AF_INET, ...)`. -/
def inetNtop (a : InAddr) : List Char :=
  print a.b0 ++ '.' :: (print a.b1 ++ '.' :: (print a.b2 ++ '.' :: print a.b3))

/-- The octet loop of `inet_pton`: the current octet so far, if a digit of it was seen. A second
    digit after a leading zero is refused. -/
def ptonGo : List Char → List ℕ → Option ℕ → Option (List ℕ)
  | [], os, some o => some (os ++ [o])
  | [], _, none => none
  | c :: cs, os, cur =>
    if c.isDigit then
      match cur with
      | none => if os.length = 4 then none else ptonGo cs os (some (digit c))
      | some o => if o = 0 ∨ 255 < 10 * o + digit c then none
          else ptonGo cs os (some (10 * o + digit c))
    else
      match cur with
      | some o => if c = '.' ∧ os.length < 3 then ptonGo cs (os ++ [o]) none else none
      | none => none

/-- `inet_pton(AF_INET, ...)`: four decimal octets and nothing else. -/
def inetPton (s : List Char) : Option InAddr :=
  match ptonGo s [] none with
  | some [o0, o1, o2, o3] => some (InAddr.zero.putAll 0 [o0, o1, o2, o3])
  | _ => none

/-! ### The network form -/

/-- Dotted decimal octets; `room` places are left in the destination. Gives the octets written and,
    unless the text is refused, what follows them. -/
def readOctets : ℕ → List Char → List ℕ → List ℕ × Option (List Char)
  | 0, _, os => (os, none)
  | room + 1, cs, os =>
    match readUpTo 255 cs 0 with
    | none => (os, none)
    | some (o, []) => (os ++ [o], some [])
    | some (o, '/' :: rest) => (os ++ [o], some ('/' :: rest))
    | some (o, '.' :: rest) =>
      if startsDigit rest then readOctets room rest (os ++ [o]) else (os ++ [o], none)
    | some (o, _) => (os ++ [o], none)

def hexVal (c : Char) : Option ℕ :=
  if c.isDigit then some (digit c)
  else if 'a' ≤ c ∧ c ≤ 'f' then some (c.toNat - 'a'.toNat + 10)
  else if 'A' ≤ c ∧ c ≤ 'F' then some (c.toNat - 'A'.toNat + 10)
  else none

/-- A string of hexadecimal digits, two to an octet; an odd last digit is the high half. -/
def readHex : List Char → Option ℕ → List ℕ → List ℕ × Option (List Char)
  | [], hi, os => finish [] hi os
  | c :: cs, hi, os =>
    match hexVal c with
    | none => finish (c :: cs) hi os
    | some n =>
      match hi with
      | none => readHex cs (some n) os
      | some h => if os.length = 4 then (os, none) else readHex cs none (os ++ [16 * h + n])
where
  finish (rest : List Char) (hi : Option ℕ) (os : List ℕ) : List ℕ × Option (List Char) :=
    match hi with
    | none => (os, some rest)
    | some h => if os.length = 4 then (os, none) else (os ++ [16 * h], some rest)

/-- The address part: `0x...`, or dotted decimal. -/
def readAddr : List Char → List ℕ × Option (List Char)
  | '0' :: x :: c :: cs =>
    if (x = 'x' ∨ x = 'X') ∧ (hexVal c).isSome then readHex (c :: cs) none []
    else readOctets 4 ('0' :: x :: c :: cs) []
  | cs => if startsDigit cs then readOctets 4 cs [] else ([], none)

/-- The width the class of the first octet stands for, widened to the octets given. -/
def classBits (os : List ℕ) : ℕ :=
  let first := os.headD 0
  let bits := if 240 ≤ first then 32 else if 224 ≤ first then 4 else if 192 ≤ first then 24
    else if 128 ≤ first then 16 else 8
  if 8 ≤ bits ∧ bits < 8 * os.length then 8 * os.length else bits

/-- The width: `/len`, or the one the class stands for. -/
def readBits (os : List ℕ) : List Char → Option ℕ
  | [] => some (classBits os)
  | '/' :: rest =>
    if startsDigit rest then
      match readNat rest 0 with
      | (bits, []) => if 32 < bits then none else some bits
      | _ => none
    else none
  | _ => none

/-- `inet_net_pton(AF_INET, s, dst, 4)`: the width, or `none` for -1, and the destination after. -/
def inetNetPton (s : List Char) (dst : InAddr) : Option ℕ × InAddr :=
  let (os, rest) := readAddr s
  match rest.bind (readBits os) with
  | none => (none, dst.putAll 0 os)
  | some bits =>
    (some bits, dst.putAll 0 (os ++ List.replicate ((bits + 7) / 8 - os.length) 0))

/-- The width alone: it does not depend on what the destination held. -/
def netWidth (s : List Char) : Option ℕ := (readAddr s).2.bind (readBits (readAddr s).1)

theorem inetNetPton_fst (s : List Char) (dst : InAddr) : (inetNetPton s dst).1 = netWidth s := by
  unfold inetNetPton netWidth
  rcases readAddr s with ⟨os, rest⟩
  simp only
  rcases rest.bind (readBits os) with _ | bits <;> rfl

/-! ### Bounds -/

theorem readOctets_length : ∀ (room : ℕ) (cs : List Char) (os : List ℕ),
    (readOctets room cs os).1.length ≤ os.length + room
  | 0, _, os => Nat.le_refl _
  | room + 1, cs, os => by
      unfold readOctets
      split
      · exact Nat.le_add_right _ _
      · simp
      · simp
      · split
        · refine Nat.le_trans (readOctets_length room _ _) ?_
          rw [List.length_append, List.length_singleton]
          omega
        · simp
      · simp

theorem readHex_finish_length (rest : List Char) (hi : Option ℕ) {os : List ℕ} (h : os.length ≤ 4) :
    (readHex.finish rest hi os).1.length ≤ 4 := by
  unfold readHex.finish
  split
  · exact h
  · split
    · exact h
    · rw [List.length_append]
      exact Nat.succ_le_of_lt (Nat.lt_of_le_of_ne h ‹_›)

theorem readHex_length : ∀ (cs : List Char) (hi : Option ℕ) {os : List ℕ}, os.length ≤ 4 →
    (readHex cs hi os).1.length ≤ 4
  | [], hi, os, h => readHex_finish_length [] hi h
  | c :: cs, hi, os, h => by
      unfold readHex
      split
      · exact readHex_finish_length _ hi h
      · split
        · exact readHex_length cs _ h
        · split
          · exact h
          · refine readHex_length cs none ?_
            rw [List.length_append]
            exact Nat.succ_le_of_lt (Nat.lt_of_le_of_ne h ‹_›)

/-- No more than four octets are read. -/
theorem readAddr_length (s : List Char) : (readAddr s).1.length ≤ 4 := by
  unfold readAddr
  split
  · split
    · exact readHex_length _ none (Nat.zero_le _)
    · exact readOctets_length 4 _ []
  · split
    · exact readOctets_length 4 _ []
    · exact Nat.zero_le _

theorem classBits_le {os : List ℕ} (h : os.length ≤ 4) : classBits os ≤ 32 := by
  unfold classBits
  dsimp only
  split_ifs <;> omega

theorem readBits_le {os : List ℕ} (h : os.length ≤ 4) {cs : List Char} {w : ℕ}
    (hw : readBits os cs = some w) : w ≤ 32 := by
  unfold readBits at hw
  split at hw
  · cases hw
    exact classBits_le h
  · split at hw
    · split at hw
      · split at hw
        · cases hw
        · cases hw
          omega
      · cases hw
    · cases hw
  · cases hw

theorem netWidth_le {s : List Char} {w : ℕ} (h : netWidth s = some w) : w ≤ 32 := by
  obtain ⟨rest, -, hbits⟩ := Option.bind_eq_some_iff.mp h
  exact readBits_le (readAddr_length s) hbits

/-! ### What is written -/

/-- The octets of the text, and zeros up to its width. -/
def octets (s : List Char) (w : ℕ) : List ℕ :=
  (readAddr s).1 ++ List.replicate ((w + 7) / 8 - (readAddr s).1.length) 0

theorem inetNetPton_octets {s : List Char} {w : ℕ} (h : netWidth s = some w) (dst : InAddr) :
    inetNetPton s dst = (some w, dst.putAll 0 (octets s w)) := by
  unfold netWidth at h
  unfold inetNetPton octets
  rcases hread : readAddr s with ⟨os, rest⟩
  rw [hread] at h
  dsimp only at h ⊢
  rw [h]

theorem octets_length {s : List Char} {w : ℕ} (h : netWidth s = some w) :
    (octets s w).length = max (readAddr s).1.length ((w + 7) / 8) ∧ (octets s w).length ≤ 4 := by
  have hw := netWidth_le h
  have hos := readAddr_length s
  unfold octets
  rw [List.length_append, List.length_replicate]
  omega

/-- Four octets leave nothing of the destination. -/
theorem putAll_four {os : List ℕ} (h : os.length = 4) (a b : InAddr) : a.putAll 0 os = b.putAll 0 os := by
  match os, h with
  | [o0, o1, o2, o3], _ => rfl

/-- Fewer leave its last one. -/
theorem putAll_b3 : ∀ (os : List ℕ) (a : InAddr) (i : ℕ), i + os.length ≤ 3 → (a.putAll i os).b3 = a.b3
  | [], _, _, _ => rfl
  | o :: os, a, i, h => by
      rw [List.length_cons] at h
      have hi : i ≤ 2 := by omega
      rw [InAddr.putAll, putAll_b3 os _ (i + 1) (by omega)]
      match i, hi with
      | 0, _ => rfl
      | 1, _ => rfl
      | 2, _ => rfl

/-- The text `addr/len` that routes are keyed by. -/
def prefixText (a : InAddr) (len : ℕ) : List Char := inetNtop a ++ '/' :: print len

theorem putAll_octets (a dst : InAddr) :
    dst.putAll 0 [(a.b0 : ℕ), a.b1, a.b2, a.b3] = a := by
  simp [InAddr.putAll, InAddr.put]

theorem readOctets_step {room : ℕ} {o : ℕ} (ho : o ≤ 255) {rest : List Char}
    (h : startsDigit rest = true) (os : List ℕ) :
    readOctets (room + 1) (print o ++ '.' :: rest) os = readOctets room rest (os ++ [o]) := by
  have hr : readUpTo 255 (print o ++ '.' :: rest) 0 = some (o, '.' :: rest) :=
    readUpTo_print ho (by rfl)
  rw [readOctets, hr]
  simp only [h, if_true]

theorem readOctets_last {room : ℕ} {o : ℕ} (ho : o ≤ 255) (rest : List Char) (os : List ℕ) :
    readOctets (room + 1) (print o ++ '/' :: rest) os = (os ++ [o], some ('/' :: rest)) := by
  have hr : readUpTo 255 (print o ++ '/' :: rest) 0 = some (o, '/' :: rest) :=
    readUpTo_print ho (by rfl)
  rw [readOctets, hr]
  rfl

theorem fin256_le (b : Fin 256) : (b : ℕ) ≤ 255 := by omega

theorem readOctets_prefixText (a : InAddr) (len : ℕ) :
    readOctets 4 (prefixText a len) [] =
      ([(a.b0 : ℕ), a.b1, a.b2, a.b3], some ('/' :: print len)) := by
  have assoc : prefixText a len =
      print a.b0 ++ '.' :: (print a.b1 ++ '.' :: (print a.b2 ++ '.' ::
        (print a.b3 ++ '/' :: print len))) := by
    simp [prefixText, inetNtop, List.append_assoc]
  rw [assoc, readOctets_step (fin256_le _) (startsDigit_print _ _),
    readOctets_step (fin256_le _) (startsDigit_print _ _),
    readOctets_step (fin256_le _) (startsDigit_print _ _), readOctets_last (fin256_le _)]
  rfl

theorem readAddr_decimal {cs : List Char} (h : startsDigit cs = true)
    (hx : ∀ c ∈ cs, c ≠ 'x' ∧ c ≠ 'X') : readAddr cs = readOctets 4 cs [] := by
  unfold readAddr
  split
  · next x c cs' =>
    have hxx := hx x (by simp)
    rw [if_neg (fun hh => hh.1.elim hxx.1 hxx.2)]
  · rw [if_pos h]

theorem digit_ne_x {c : Char} (h : c.isDigit) : c ≠ 'x' ∧ c ≠ 'X' := by
  constructor <;> rintro rfl <;> exact absurd h (by decide)

theorem prefixText_ne_x {a : InAddr} {len : ℕ} {c : Char} (h : c ∈ prefixText a len) :
    c ≠ 'x' ∧ c ≠ 'X' := by
  simp only [prefixText, inetNtop, List.mem_append, List.mem_cons] at h
  have dot : '.' ≠ 'x' ∧ '.' ≠ 'X' := by decide
  have slash : '/' ≠ 'x' ∧ '/' ≠ 'X' := by decide
  rcases h with (h | rfl | h | rfl | h | rfl | h) | rfl | h
  · exact digit_ne_x (print_digits h)
  · exact dot
  · exact digit_ne_x (print_digits h)
  · exact dot
  · exact digit_ne_x (print_digits h)
  · exact dot
  · exact digit_ne_x (print_digits h)
  · exact slash
  · exact digit_ne_x (print_digits h)

theorem startsDigit_prefixText (a : InAddr) (len : ℕ) : startsDigit (prefixText a len) = true := by
  rw [prefixText, inetNtop, List.append_assoc]
  exact startsDigit_print _ _

theorem readBits_slash {os : List ℕ} {len : ℕ} (h : len ≤ 32) :
    readBits os ('/' :: print len) = some len := by
  have hs : startsDigit (print len) = true := by
    simpa using startsDigit_print len []
  have hr : readNat (print len) 0 = (len, []) := by
    simpa using @readNat_print len [] rfl
  rw [readBits, if_pos hs, hr]
  exact if_neg (by omega)

/-- The network reader reads `addr/len` back, whatever the destination held. -/
theorem inetNetPton_prefixText (a : InAddr) {len : ℕ} (h : len ≤ 32) (dst : InAddr) :
    inetNetPton (prefixText a len) dst = (some len, a) := by
  have hread : readAddr (prefixText a len) =
      ([(a.b0 : ℕ), a.b1, a.b2, a.b3], some ('/' :: print len)) := by
    rw [readAddr_decimal (startsDigit_prefixText a len) (fun _ hc => prefixText_ne_x hc),
      readOctets_prefixText]
  have hpad : (len + 7) / 8 - 4 = 0 := by omega
  simp only [inetNetPton, hread, Option.bind_some, readBits_slash h, List.length_cons,
    List.length_nil, hpad, List.replicate_zero, List.append_nil, putAll_octets]

end Inet
