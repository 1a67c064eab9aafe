import Mathlib.Algebra.Order.Floor.Div
import Mathlib.Data.List.Basic
import Mathlib.Logic.Function.Basic
import Mathlib.Tactic.IntervalCases

/-! The base64 codec of the scripts.

    The encoder is a machine of three states that carries the last byte, the decoder one of four
    that carries a partly written byte of its output buffer:

        bytes    aaaaaaaa bbbbbbbb cccccccc
        indices  aaaaaa aabbbb bbbbcc cccccc

    Three bytes make four characters and bring both machines back to where they were, so the round
    trip goes by threes; what is left over is one of three endings. -/

namespace Ucentral.Base64

/-! ### The tables -/

/-- `BASE64_PAD`. -/
def pad : UInt8 := '='.toUInt8

/-- `BASE64DE_FIRST`. -/
def deFirst : UInt8 := '+'.toUInt8

/-- `BASE64DE_LAST`. -/
def deLast : UInt8 := 'z'.toUInt8

/-- `base64en`. -/
def base64en : List UInt8 := [
  'A', 'B', 'C', 'D', 'E', 'F', 'G', 'H', 'I', 'J', 'K', 'L', 'M',
  'N', 'O', 'P', 'Q', 'R', 'S', 'T', 'U', 'V', 'W', 'X', 'Y', 'Z',
  'a', 'b', 'c', 'd', 'e', 'f', 'g', 'h', 'i', 'j', 'k', 'l', 'm',
  'n', 'o', 'p', 'q', 'r', 's', 't', 'u', 'v', 'w', 'x', 'y', 'z',
  '0', '1', '2', '3', '4', '5', '6', '7', '8', '9', '+', '/'].map Char.toUInt8

/-- `base64de`: 255 for a character that is not used. -/
def base64de : List UInt8 := [
  255, 255, 255, 255, 255, 255, 255, 255,
  255, 255, 255, 255, 255, 255, 255, 255,
  255, 255, 255, 255, 255, 255, 255, 255,
  255, 255, 255, 255, 255, 255, 255, 255,
  255, 255, 255, 255, 255, 255, 255, 255,
  255, 255, 255, 62, 255, 255, 255, 63,
  52, 53, 54, 55, 56, 57, 58, 59,
  60, 61, 255, 255, 255, 255, 255, 255,
  255, 0, 1, 2, 3, 4, 5, 6,
  7, 8, 9, 10, 11, 12, 13, 14,
  15, 16, 17, 18, 19, 20, 21, 22,
  23, 24, 25, 255, 255, 255, 255, 255,
  255, 26, 27, 28, 29, 30, 31, 32,
  33, 34, 35, 36, 37, 38, 39, 40,
  41, 42, 43, 44, 45, 46, 47, 48,
  49, 50, 51, 255, 255, 255, 255, 255]

/-- `base64en[k]`; every index of the encoder is below 64. -/
def en (k : UInt8) : UInt8 := base64en.getD k.toNat 0

/-- `base64de[ch]`; the decoder looks up nothing beyond `BASE64DE_LAST`. -/
def de (ch : UInt8) : UInt8 := base64de.getD ch.toNat 255

/-- `BASE64_ENCODE_OUT_SIZE`. -/
def encodeOutSize (s : ℕ) : ℕ := (s + 2) / 3 * 4 + 1

/-! ### The encoder -/

/-- The variables of `base64_encode`; `j` is the length of `out`. -/
structure Enc where
  s : Fin 3
  l : UInt8
  out : List UInt8

/-- One turn of the loop. -/
def encodeStep (e : Enc) (c : UInt8) : Enc :=
  match e.s with
  | 0 => ⟨1, c, e.out ++ [en ((c >>> 2) &&& 0x3F)]⟩
  | 1 => ⟨2, c, e.out ++ [en (((e.l &&& 0x3) <<< 4) ||| ((c >>> 4) &&& 0xF))]⟩
  | 2 => ⟨0, c, e.out ++ [en (((e.l &&& 0xF) <<< 2) ||| ((c >>> 6) &&& 0x3)), en (c &&& 0x3F)]⟩

/-- What is written after the loop, the terminating NUL left out. -/
def encodeEnd (e : Enc) : List UInt8 :=
  match e.s with
  | 0 => e.out
  | 1 => e.out ++ [en ((e.l &&& 0x3) <<< 4), pad, pad]
  | 2 => e.out ++ [en ((e.l &&& 0xF) <<< 2), pad]

/-- `base64_encode`: the value it returns, and the bytes it writes. -/
def base64Encode (input : List UInt8) : ℕ × List UInt8 :=
  let out := encodeEnd (input.foldl encodeStep ⟨0, 0, []⟩)
  (out.length, out ++ [0])

/-! ### The decoder -/

/-- The `switch` of `base64_decode`: the new `j`, and the output buffer. -/
def decodePut (i : ℕ) (c : UInt8) (j : ℕ) (out : ℕ → UInt8) : ℕ × (ℕ → UInt8) :=
  match i % 4 with
  | 0 => (j, Function.update out j ((c <<< 2) &&& 0xFF))
  | 1 =>
    let out := Function.update out j (out j ||| ((c >>> 4) &&& 0x3))
    (j + 1, Function.update out (j + 1) ((c &&& 0xF) <<< 4))
  | 2 =>
    let out := Function.update out j (out j ||| ((c >>> 2) &&& 0xF))
    (j + 1, Function.update out (j + 1) ((c &&& 0x3) <<< 6))
  | _ => (j + 1, Function.update out j (out j ||| c))

/-- The loop of `base64_decode`. A character above 127 fails the test for the range whether `char`
    has a sign or not. -/
def decodeLoop : List UInt8 → ℕ → ℕ → (ℕ → UInt8) → ℕ × (ℕ → UInt8)
  | [], _, j, out => (j, out)
  | ch :: rest, i, j, out =>
    if ch = pad then (j, out)
    else if ch < deFirst ∨ deLast < ch then (0, out)
    else if de ch = 255 then (0, out)
    else
      let p := decodePut i (de ch) j out
      decodeLoop rest (i + 1) p.1 p.2

/-- `base64_decode`: the value it returns, and its output buffer, which holds `out` at first. -/
def base64Decode (input : List UInt8) (out : ℕ → UInt8) : ℕ × (ℕ → UInt8) :=
  if input.length % 4 ≠ 0 then (0, out) else decodeLoop input 0 0 out

/-! ### The tables fit together -/

/-- The base64 alphabet. -/
def Alphabet (ch : UInt8) : Prop :=
  'A'.toUInt8 ≤ ch ∧ ch ≤ 'Z'.toUInt8 ∨ 'a'.toUInt8 ≤ ch ∧ ch ≤ 'z'.toUInt8 ∨
    '0'.toUInt8 ≤ ch ∧ ch ≤ '9'.toUInt8 ∨ ch = '+'.toUInt8 ∨ ch = '/'.toUInt8

instance : DecidablePred Alphabet := fun _ => inferInstanceAs (Decidable (_ ∨ _))

theorem en_table : ∀ n < 64, Alphabet (en (UInt8.ofNat n)) ∧ en (UInt8.ofNat n) ≠ pad ∧
    ¬ (en (UInt8.ofNat n) < deFirst ∨ deLast < en (UInt8.ofNat n)) ∧
    de (en (UInt8.ofNat n)) = UInt8.ofNat n := by
  decide +kernel

section Index

variable {k : UInt8} (hk : k < 64)
include hk

theorem en_spec : Alphabet (en k) ∧ en k ≠ pad ∧ ¬ (en k < deFirst ∨ deLast < en k) ∧
    de (en k) = k := by
  have h := en_table k.toNat hk
  rwa [UInt8.ofNat_toNat] at h

/-- A character of the encoder is read back as its index. -/
theorem decodeLoop_en (rest : List UInt8) (i j : ℕ) (out : ℕ → UInt8) :
    decodeLoop (en k :: rest) i j out =
      decodeLoop rest (i + 1) (decodePut i k j out).1 (decodePut i k j out).2 := by
  obtain ⟨-, hpad, hrange, hde⟩ := en_spec hk
  have h255 : ¬ k = 255 := by
    rintro rfl
    exact absurd hk (by decide)
  rw [decodeLoop, if_neg hpad, if_neg hrange, hde, if_neg h255]

end Index

/-! ### Six bits at a time -/

/-- The index of the first character of three bytes. -/
def idx0 (a : UInt8) : UInt8 := (a >>> 2) &&& 0x3F

/-- The index of the second one. -/
def idx1 (a b : UInt8) : UInt8 := ((a &&& 0x3) <<< 4) ||| ((b >>> 4) &&& 0xF)

/-- The index of the third one. -/
def idx2 (b c : UInt8) : UInt8 := ((b &&& 0xF) <<< 2) ||| ((c >>> 6) &&& 0x3)

/-- The index of the last one. -/
def idx3 (c : UInt8) : UInt8 := c &&& 0x3F

theorem eq_of_bits {a b : UInt8} (h : ∀ i (hi : i < 8), a.toBitVec[i] = b.toBitVec[i]) : a = b := by
  apply UInt8.toBitVec_inj.mp
  ext i hi
  exact h i hi

theorem lt_of_and_eq {k : UInt8} (h : k &&& 0x3F = k) : k < 64 := by
  rw [← h, UInt8.lt_iff_toNat_lt, UInt8.toNat_and]
  exact Nat.lt_of_le_of_lt Nat.and_le_right (by decide)

section Bits

variable (a b c : UInt8)

theorem idx0_lt : idx0 a < 64 := by
  refine lt_of_and_eq (eq_of_bits fun i hi => ?_)
  interval_cases i <;> simp [idx0]

theorem idx1_lt : idx1 a b < 64 := by
  refine lt_of_and_eq (eq_of_bits fun i hi => ?_)
  interval_cases i <;> simp [idx1]

theorem idx2_lt : idx2 b c < 64 := by
  refine lt_of_and_eq (eq_of_bits fun i hi => ?_)
  interval_cases i <;> simp [idx2]

theorem idx3_lt : idx3 c < 64 := by
  refine lt_of_and_eq (eq_of_bits fun i hi => ?_)
  interval_cases i <;> simp [idx3]

/-- The bits of the first byte come together again. -/
theorem byte0_eq : ((idx0 a <<< 2) &&& (0xFF : UInt8)) ||| ((idx1 a b >>> 4) &&& 0x3) = a := by
  refine eq_of_bits fun i hi => ?_
  interval_cases i <;> simp [idx0, idx1]

/-- The bits of the second one. -/
theorem byte1_eq : ((idx1 a b &&& 0xF) <<< 4) ||| ((idx2 b c >>> 2) &&& 0xF) = b := by
  refine eq_of_bits fun i hi => ?_
  interval_cases i <;> simp [idx1, idx2]

/-- The bits of the third one. -/
theorem byte2_eq : ((idx2 b c &&& 0x3) <<< 6) ||| idx3 c = c := by
  refine eq_of_bits fun i hi => ?_
  interval_cases i <;> simp [idx2, idx3]

end Bits

/-! ### What the encoder writes -/

/-- The text of a byte string, three bytes at a time. -/
def encodeText : List UInt8 → List UInt8
  | [] => []
  | [a] => [en (idx0 a), en (idx1 a 0), pad, pad]
  | [a, b] => [en (idx0 a), en (idx1 a b), en (idx2 b 0), pad]
  | a :: b :: c :: rest =>
    en (idx0 a) :: en (idx1 a b) :: en (idx2 b c) :: en (idx3 c) :: encodeText rest

/-- In its first state the encoder writes the text of what is left, whatever byte it carries. -/
theorem encodeEnd_foldl : ∀ (x : List UInt8) (l : UInt8) (out : List UInt8),
    encodeEnd (x.foldl encodeStep ⟨0, l, out⟩) = out ++ encodeText x
  | [], _, out => (List.append_nil out).symm
  | [a], _, out => by simp [encodeStep, encodeEnd, encodeText, idx0, idx1]
  | [a, b], _, out => by simp [encodeStep, encodeEnd, encodeText, idx0, idx1, idx2]
  | a :: b :: c :: rest, _, out => by
      simp only [List.foldl_cons, encodeStep]
      rw [encodeEnd_foldl rest c]
      simp [encodeText, idx0, idx1, idx2, idx3]

theorem base64Encode_eq (x : List UInt8) :
    base64Encode x = ((encodeText x).length, encodeText x ++ [0]) := by
  have h := encodeEnd_foldl x 0 []
  rw [List.nil_append] at h
  simp only [base64Encode, h]

theorem length_encodeText : ∀ x : List UInt8, (encodeText x).length = 4 * ((x.length + 2) / 3)
  | [] => rfl
  | [a] => by simp [encodeText]
  | [a, b] => by simp [encodeText]
  | a :: b :: c :: rest => by
      simp only [encodeText, List.length_cons, length_encodeText rest]
      omega

/-- The text is characters of the alphabet, and at most two pads after them. -/
theorem encodeText_alphabet : ∀ x : List UInt8, ∃ body, ∃ n ≤ 2,
    encodeText x = body ++ List.replicate n pad ∧ ∀ ch ∈ body, Alphabet ch
  | [] => ⟨[], 0, by simp [encodeText]⟩
  | [a] => by
      refine ⟨[en (idx0 a), en (idx1 a 0)], 2, le_refl 2, rfl, ?_⟩
      simp only [List.mem_cons, List.not_mem_nil, or_false]
      rintro ch (rfl | rfl)
      · exact (en_spec (idx0_lt a)).1
      · exact (en_spec (idx1_lt a 0)).1
  | [a, b] => by
      refine ⟨[en (idx0 a), en (idx1 a b), en (idx2 b 0)], 1, by simp, rfl, ?_⟩
      simp only [List.mem_cons, List.not_mem_nil, or_false]
      rintro ch (rfl | rfl | rfl)
      · exact (en_spec (idx0_lt a)).1
      · exact (en_spec (idx1_lt a b)).1
      · exact (en_spec (idx2_lt b 0)).1
  | a :: b :: c :: rest => by
      obtain ⟨body, n, hn, htext, hbody⟩ := encodeText_alphabet rest
      refine ⟨en (idx0 a) :: en (idx1 a b) :: en (idx2 b c) :: en (idx3 c) :: body, n, hn, ?_, ?_⟩
      · rw [encodeText, htext]
        rfl
      · simp only [List.mem_cons]
        rintro ch (rfl | rfl | rfl | rfl | hch)
        · exact (en_spec (idx0_lt a)).1
        · exact (en_spec (idx1_lt a b)).1
        · exact (en_spec (idx2_lt b c)).1
        · exact (en_spec (idx3_lt c)).1
        · exact hbody ch hch

/-! ### The round trip -/

/-- The buffer holds `x` from `j` on, and before `j` what it held. -/
def Holds (out out' : ℕ → UInt8) (j : ℕ) (x : List UInt8) : Prop :=
  (∀ i < j, out' i = out i) ∧ ∀ i (hi : i < x.length), out' (j + i) = x[i]

theorem Holds.nil (out : ℕ → UInt8) (j : ℕ) : Holds out out j [] :=
  ⟨fun _ _ => rfl, fun _ hi => absurd hi (Nat.not_lt_zero _)⟩

/-- If the byte at `j` is written and what follows it then put after it, the whole is there. -/
theorem Holds.cons {out mid out' : ℕ → UInt8} {j : ℕ} {a : UInt8} {x : List UInt8}
    (hkept : ∀ i < j, mid i = out i) (ha : mid j = a) (h : Holds mid out' (j + 1) x) :
    Holds out out' j (a :: x) := by
  refine ⟨fun i hi => (h.1 i (by omega)).trans (hkept i hi), fun i hi => ?_⟩
  cases i with
  | zero => exact (h.1 j (Nat.lt_succ_self j)).trans ha
  | succ i =>
    have hx := h.2 i (by simpa using hi)
    rwa [Nat.add_assoc, Nat.add_comm 1 i] at hx

section Quanta

variable (rest : List UInt8) {i : ℕ} (j : ℕ) (out : ℕ → UInt8)

theorem decodeLoop_pad : decodeLoop (pad :: rest) i j out = (j, out) := by
  rw [decodeLoop, if_pos rfl]

/-- Two characters at the start of a quantum give its first byte, and the high bits of the second. -/
theorem decodeLoop_first (a b : UInt8) (hi : i % 4 = 0) : ∃ mid : ℕ → UInt8,
    decodeLoop (en (idx0 a) :: en (idx1 a b) :: rest) i j out =
      decodeLoop rest (i + 2) (j + 1) mid ∧
    (∀ k < j, mid k = out k) ∧ mid j = a ∧ mid (j + 1) = (idx1 a b &&& 0xF) <<< 4 := by
  have h1 : (i + 1) % 4 = 1 := by omega
  let mid := Function.update out j ((idx0 a <<< 2) &&& 0xFF)
  refine ⟨Function.update (Function.update mid j (mid j ||| ((idx1 a b >>> 4) &&& 0x3))) (j + 1)
    ((idx1 a b &&& 0xF) <<< 4), ?_, fun k hk => ?_, ?_, Function.update_self ..⟩
  · rw [decodeLoop_en (idx0_lt a), decodeLoop_en (idx1_lt a b)]
    simp only [decodePut, hi, h1]
    rfl
  · rw [Function.update_of_ne (by omega), Function.update_of_ne (by omega)]
    exact Function.update_of_ne (by omega) ..
  · rw [Function.update_of_ne (by omega), Function.update_self]
    simp only [mid, Function.update_self]
    exact byte0_eq a b

/-- The third character completes the second byte, and gives the high bits of the third. -/
theorem decodeLoop_second {a b : UInt8} (c : UInt8) (hi : i % 4 = 2)
    (hj : out j = (idx1 a b &&& 0xF) <<< 4) : ∃ mid : ℕ → UInt8,
    decodeLoop (en (idx2 b c) :: rest) i j out = decodeLoop rest (i + 1) (j + 1) mid ∧
    (∀ k < j, mid k = out k) ∧ mid j = b ∧ mid (j + 1) = (idx2 b c &&& 0x3) <<< 6 := by
  refine ⟨Function.update (Function.update out j (out j ||| ((idx2 b c >>> 2) &&& 0xF))) (j + 1)
    ((idx2 b c &&& 0x3) <<< 6), ?_, fun k hk => ?_, ?_, Function.update_self ..⟩
  · rw [decodeLoop_en (idx2_lt b c)]
    simp only [decodePut, hi]
  · rw [Function.update_of_ne (by omega), Function.update_of_ne (by omega)]
  · rw [Function.update_of_ne (by omega), Function.update_self, hj]
    exact byte1_eq a b c

/-- The last character completes the third byte. -/
theorem decodeLoop_third {b c : UInt8} (hi : i % 4 = 3) (hj : out j = (idx2 b c &&& 0x3) <<< 6) :
    ∃ mid : ℕ → UInt8, decodeLoop (en (idx3 c) :: rest) i j out =
      decodeLoop rest (i + 1) (j + 1) mid ∧ (∀ k < j, mid k = out k) ∧ mid j = c := by
  refine ⟨Function.update out j (out j ||| idx3 c), ?_, fun k hk => ?_, ?_⟩
  · rw [decodeLoop_en (idx3_lt c)]
    simp only [decodePut, hi]
  · exact Function.update_of_ne (by omega) ..
  · rw [Function.update_self, hj]
    exact byte2_eq b c

end Quanta

/-- At the start of a quantum the decoder reads a text back. -/
theorem decodeLoop_encodeText : ∀ (x : List UInt8) {i : ℕ} (j : ℕ) (out : ℕ → UInt8), i % 4 = 0 →
    ∃ out', decodeLoop (encodeText x) i j out = (j + x.length, out') ∧ Holds out out' j x
  | [], i, j, out, _ => ⟨out, rfl, Holds.nil out j⟩
  | [a], i, j, out, hi => by
      obtain ⟨m, hm, hkept, ha, -⟩ := decodeLoop_first [pad, pad] j out a 0 hi
      refine ⟨m, ?_, Holds.cons hkept ha (Holds.nil m (j + 1))⟩
      rw [encodeText, hm, decodeLoop_pad]
      rfl
  | [a, b], i, j, out, hi => by
      obtain ⟨m, hm, hkept, ha, hb⟩ := decodeLoop_first [en (idx2 b 0), pad] j out a b hi
      obtain ⟨m', hm', hkept', hb', -⟩ := decodeLoop_second [pad] (i := i + 2) (j + 1) m 0 (by omega) hb
      refine ⟨m', ?_, Holds.cons hkept ha (Holds.cons hkept' hb' (Holds.nil m' _))⟩
      rw [encodeText, hm, hm', decodeLoop_pad]
      rfl
  | a :: b :: c :: rest, i, j, out, hi => by
      obtain ⟨m, hm, hkept, ha, hb⟩ := decodeLoop_first
        (en (idx2 b c) :: en (idx3 c) :: encodeText rest) j out a b hi
      obtain ⟨m', hm', hkept', hb', hc⟩ := decodeLoop_second
        (en (idx3 c) :: encodeText rest) (i := i + 2) (j + 1) m c (by omega) hb
      obtain ⟨m'', hm'', hkept'', hc'⟩ := decodeLoop_third
        (encodeText rest) (i := i + 2 + 1) (j + 1 + 1) m' (by omega) hc
      obtain ⟨out', hout, hrest⟩ := decodeLoop_encodeText rest (i := i + 2 + 1 + 1) (j + 1 + 1 + 1) m''
        (by omega)
      refine ⟨out', ?_, Holds.cons hkept ha (Holds.cons hkept' hb' (Holds.cons hkept'' hc' hrest))⟩
      rw [encodeText, hm, hm', hm'', hout]
      simp only [List.length_cons]
      congr 1
      omega

/-- Decoding what was encoded gives the bytes back; the text has four characters of the alphabet for
    every three bytes begun, pads only at its end, and with its NUL it fits the size that the callers
    allocate. -/
theorem base64Decode_base64Encode (x : List UInt8) (out : ℕ → UInt8) :
    let text := (base64Encode x).2.take (base64Encode x).1
    (base64Decode text out).1 = x.length ∧
      (∀ i (hi : i < x.length), (base64Decode text out).2 i = x[i]) ∧
      (base64Encode x).1 = 4 * (x.length ⌈/⌉ 3) ∧
      (∃ body, ∃ n ≤ 2, text = body ++ List.replicate n pad ∧ ∀ ch ∈ body, Alphabet ch) ∧
      (base64Encode x).2 = text ++ [0] ∧
      (base64Encode x).2.length ≤ encodeOutSize x.length := by
  have htext : (base64Encode x).2.take (base64Encode x).1 = encodeText x := by
    rw [base64Encode_eq]
    exact List.take_left
  have hlen := length_encodeText x
  obtain ⟨out', hout, -, hx⟩ := decodeLoop_encodeText x (i := 0) 0 out rfl
  have hdecode : base64Decode (encodeText x) out = (x.length, out') := by
    rw [base64Decode, if_neg (by omega), hout, Nat.zero_add]
  simp only [htext, hdecode]
  refine ⟨trivial, fun i hi => ?_, ?_, encodeText_alphabet x, ?_, ?_⟩
  · simpa using hx i hi
  · rw [base64Encode_eq, hlen, Nat.ceilDiv_eq_add_pred_div]
    rfl
  · rw [base64Encode_eq]
  · rw [base64Encode_eq, List.length_append, hlen, encodeOutSize]
    simp only [List.length_cons, List.length_nil]
    omega

end Ucentral.Base64
