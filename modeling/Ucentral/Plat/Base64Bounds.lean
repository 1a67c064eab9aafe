import Ucentral.Lib.Block
import Ucentral.Plat.ScriptText

/-! The memory that `base64_decode` reads and writes.

    After `m` characters some bytes are complete, and one more may be begun:

        characters   0  1  2  3  4  5  6  7  8
        complete     0  0  1  2  3  3  4  5  6
        begun        0  1  2  3  3  4  5  6  6

    The bytes that are begun have all been written. A text has four characters for every three bytes that
    there is room for, so there is room for what is begun wherever the decoder stops. -/

namespace Ucentral.Base64
open Plat.Script

/-! ### The decoder, access by access -/

/-- `in[i]` as an `int`; whether a `char` has a sign is up to the machine. -/
def charVal (signed : Bool) (ch : UInt8) : ℤ :=
  if signed ∧ 128 ≤ ch then (ch.toNat : ℤ) - 256 else ch.toNat

/-- The `switch` of `base64_decode`. -/
def putBlock (i : ℕ) (c : UInt8) (j : ℕ) (out : Block UInt8) : Option (ℕ × Block UInt8) :=
  match i % 4 with
  | 0 => do
    let out ← out.store j ((c <<< 2) &&& 0xFF)
    return (j, out)
  | 1 => do
    let b ← out.load j
    let out ← out.store j (b ||| ((c >>> 4) &&& 0x3))
    let out ← out.store (j + 1) ((c &&& 0xF) <<< 4)
    return (j + 1, out)
  | 2 => do
    let b ← out.load j
    let out ← out.store j (b ||| ((c >>> 2) &&& 0xF))
    let out ← out.store (j + 1) ((c &&& 0x3) <<< 6)
    return (j + 1, out)
  | _ => do
    let b ← out.load j
    let out ← out.store j (b ||| c)
    return (j + 1, out)

/-- The loop of `base64_decode`; `base64de` is a block as well. -/
def loopBlock (signed : Bool) : List UInt8 → ℕ → ℕ → Block UInt8 → Option (ℕ × Block UInt8)
  | [], _, j, out => some (j, out)
  | ch :: rest, i, j, out =>
    if charVal signed ch = charVal signed pad then some (j, out)
    else if charVal signed ch < charVal signed deFirst ∨ charVal signed deLast < charVal signed ch then
      some (0, out)
    else do
      let c ← (Block.holding base64de).load ch.toNat
      if c = 255 then return (0, out)
      let p ← putBlock i c j out
      loopBlock signed rest (i + 1) p.1 p.2

/-- `base64_decode`, where every access may fail. -/
def decodeBlock (signed : Bool) (text : List UInt8) (out : Block UInt8) : Option (ℕ × Block UInt8) :=
  if text.length % 4 ≠ 0 then some (0, out) else loopBlock signed text 0 0 out

/-- What `plat_run_script` makes of the text of a script. -/
def decodeScript (signed : Bool) (p : RunScript) : Option (ℕ × Block UInt8) :=
  decodeBlock signed p.scriptBase64
    (Block.holding (List.replicate (decodeOutSize p.scriptBase64.length + 1) 0))

/-! ### The tests on a character -/

theorem charVal_table : ∀ signed, ∀ n < 256,
    (charVal signed (UInt8.ofNat n) = charVal signed pad ↔ UInt8.ofNat n = pad) ∧
    (charVal signed (UInt8.ofNat n) < charVal signed deFirst ∨
        charVal signed deLast < charVal signed (UInt8.ofNat n) ↔
      UInt8.ofNat n < deFirst ∨ deLast < UInt8.ofNat n) := by
  decide +kernel

/-- With a sign or without, the tests of the decoder have the same outcome. -/
theorem charVal_tests (signed : Bool) (ch : UInt8) :
    (charVal signed ch = charVal signed pad ↔ ch = pad) ∧
    (charVal signed ch < charVal signed deFirst ∨ charVal signed deLast < charVal signed ch ↔
      ch < deFirst ∨ deLast < ch) := by
  have h := charVal_table signed ch.toNat ch.toNat_lt
  rwa [UInt8.ofNat_toNat] at h

theorem length_base64de : base64de.length = 128 := by decide +kernel

/-- A character that is in the range has an entry in the table. -/
theorem load_base64de {ch : UInt8} (h : ¬ (ch < deFirst ∨ deLast < ch)) :
    (Block.holding base64de).load ch.toNat = some (de ch) := by
  have hle : ch.toNat ≤ deLast.toNat := UInt8.le_iff_toNat_le.mp (UInt8.not_lt.mp (not_or.mp h).2)
  have hlt : ch.toNat < base64de.length := by
    rw [length_base64de]
    exact Nat.lt_of_le_of_lt hle (by decide)
  rw [Block.load_holding, de, List.getD_eq_getElem?_getD, List.getElem?_eq_getElem hlt]
  rfl

/-! ### The bytes that are begun -/

/-- The bytes of which something is written after `m` characters. -/
def begun (m : ℕ) : ℕ := m - m / 4

/-- The first `n` bytes are written, as are those that were before, what is in the block is what the array
    has, and nothing has changed behind the first `size` bytes. -/
structure Progress (size : ℕ) (first : Block UInt8) (n : ℕ) (out : Block UInt8) (arr : ℕ → UInt8) :
    Prop where
  length : out.length = first.length
  written : ∀ k, k < n ∨ (∃ b, first.load k = some b) → ∃ b, out.load k = some b
  agrees : ∀ k b, out.load k = some b → arr k = b
  beyond : ∀ k, size ≤ k → out.load k = first.load k

namespace Progress

variable {size n : ℕ} {first out : Block UInt8} {arr : ℕ → UInt8}

/-- A store to the bytes that are written, or to the next one. -/
theorem store (h : Progress size first n out arr) (hroom : size ≤ first.length) {j : ℕ} (hj : j ≤ n)
    (hsize : j < size) (b : UInt8) : ∃ out', out.store j b = some out' ∧
      Progress size first (max n (j + 1)) out' (Function.update arr j b) := by
  have hlt : j < out.length := by
    rw [h.length]
    exact Nat.lt_of_lt_of_le hsize hroom
  refine ⟨_, Block.store_eq hlt b, ?_, fun k hk => ?_, fun k c hc => ?_, fun k hk => ?_⟩
  · rw [List.length_set, h.length]
  · by_cases hkj : j = k
    · subst hkj
      exact ⟨b, Block.load_set_self hlt b⟩
    · rw [Block.load_set_ne hkj]
      refine h.written k (hk.imp_left fun hlt => ?_)
      omega
  · by_cases hkj : j = k
    · subst hkj
      rw [Block.load_set_self hlt b] at hc
      rw [Function.update_self]
      exact Option.some.inj hc
    · rw [Block.load_set_ne hkj] at hc
      rw [Function.update_of_ne (Ne.symm hkj)]
      exact h.agrees k c hc
  · rw [Block.load_set_ne (by omega)]
    exact h.beyond k hk

theorem load (h : Progress size first n out arr) {j : ℕ} (hj : j < n) :
    out.load j = some (arr j) := by
  obtain ⟨b, hb⟩ := h.written j (Or.inl hj)
  rw [h.agrees j b hb, hb]

end Progress

section Decode

variable {len : ℕ} {first : Block UInt8} (hroom : decodeOutSize len ≤ first.length)
include hroom

/-- A byte is completed and the next one begun. -/
theorem Progress.store_both {j : ℕ} {out : Block UInt8} {arr : ℕ → UInt8}
    (h : Progress (decodeOutSize len) first (j + 1) out arr) (hsize : j + 1 < decodeOutSize len)
    (x y : UInt8) : ∃ mid out', out.store j x = some mid ∧ mid.store (j + 1) y = some out' ∧
      Progress (decodeOutSize len) first (j + 2) out'
        (Function.update (Function.update arr j x) (j + 1) y) := by
  obtain ⟨mid, hmid, hfirst⟩ := h.store hroom (Nat.le_succ j) (by omega) x
  rw [Nat.max_self] at hfirst
  obtain ⟨out', hout, hboth⟩ := hfirst.store hroom (Nat.le_refl _) hsize y
  rw [Nat.max_eq_right (Nat.le_succ _)] at hboth
  exact ⟨mid, out', hmid, hout, hboth⟩

variable (h4 : len % 4 = 0)
include h4

/-- A turn in the middle of four characters completes the byte that is begun, and begins the next one. -/
theorem Progress.middle {i : ℕ} (hi : i < len) (hmod : i % 4 = 1 ∨ i % 4 = 2) {out : Block UInt8}
    {arr : ℕ → UInt8} (h : Progress (decodeOutSize len) first (begun i) out arr) (x y : UInt8) :
    full (i + 1) = full i + 1 ∧ out.load (full i) = some (arr (full i)) ∧
    ∃ mid out', out.store (full i) (arr (full i) ||| x) = some mid ∧
      mid.store (full i + 1) y = some out' ∧
      Progress (decodeOutSize len) first (begun (i + 1)) out'
        (Function.update (Function.update arr (full i) (arr (full i) ||| x)) (full i + 1) y) := by
  have hj : begun i = full i + 1 := by unfold full begun; omega
  have hnext : begun (i + 1) = full i + 2 := by unfold full begun; omega
  have hsize : full i + 1 < decodeOutSize len := by unfold full decodeOutSize; omega
  have hfull := full_succ i
  rw [if_neg (by omega)] at hfull
  rw [hj] at h
  rw [hnext]
  exact ⟨hfull, h.load (Nat.lt_succ_self _), h.store_both hroom hsize (arr (full i) ||| x) y⟩

/-- One turn stays inside, only reads a byte that is begun, and stores what `decodePut` does. -/
theorem putBlock_progress {i : ℕ} (hi : i < len) {out : Block UInt8} {arr : ℕ → UInt8}
    (h : Progress (decodeOutSize len) first (begun i) out arr) (c : UInt8) :
    ∃ out', putBlock i c (full i) out = some (full (i + 1), out') ∧
      Progress (decodeOutSize len) first (begun (i + 1)) out' (decodePut i c (full i) arr).2 := by
  have hmod : i % 4 = 0 ∨ i % 4 = 1 ∨ i % 4 = 2 ∨ i % 4 = 3 := by omega
  rcases hmod with h0 | h1 | h2 | h3
  · have hj : full i = begun i := by unfold full begun; omega
    have hnext : begun (i + 1) = full i + 1 := by unfold full begun; omega
    have hsize : full i < decodeOutSize len := by unfold full decodeOutSize; omega
    have hfull := full_succ i
    obtain ⟨out', hout, hput⟩ := h.store hroom (Nat.le_of_eq hj) hsize ((c <<< 2) &&& 0xFF)
    rw [← hj, Nat.max_eq_right (Nat.le_succ _)] at hput
    rw [if_pos h0] at hfull
    refine ⟨out', ?_, ?_⟩
    · simp [putBlock, h0, hout, hfull]
    · simpa only [decodePut, h0, hnext] using hput
  · obtain ⟨hfull, hload, mid, out', hmid, hout, hput⟩ :=
      h.middle hroom h4 hi (Or.inl h1) ((c >>> 4) &&& 0x3) ((c &&& 0xF) <<< 4)
    refine ⟨out', ?_, ?_⟩
    · simp [putBlock, h1, hload, hmid, hout, hfull]
    · simpa only [decodePut, h1] using hput
  · obtain ⟨hfull, hload, mid, out', hmid, hout, hput⟩ :=
      h.middle hroom h4 hi (Or.inr h2) ((c >>> 2) &&& 0xF) ((c &&& 0x3) <<< 6)
    refine ⟨out', ?_, ?_⟩
    · simp [putBlock, h2, hload, hmid, hout, hfull]
    · simpa only [decodePut, h2] using hput
  · have hj : begun i = full i + 1 := by unfold full begun; omega
    have hnext : begun (i + 1) = full i + 1 := by unfold full begun; omega
    have hsize : full i < decodeOutSize len := by unfold full decodeOutSize; omega
    have hfull := full_succ i
    rw [hj] at h
    have hload := h.load (Nat.lt_succ_self _)
    obtain ⟨out', hout, hput⟩ := h.store hroom (Nat.le_succ _) hsize (arr (full i) ||| c)
    rw [Nat.max_self] at hput
    rw [if_neg (by omega)] at hfull
    refine ⟨out', ?_, ?_⟩
    · simp [putBlock, h3, hload, hout, hfull]
    · simpa only [decodePut, h3, hnext] using hput

/-- Wherever the loop stops, it returns no more than what is begun, and that is there is room for. -/
theorem loopBlock_progress (signed : Bool) : ∀ (rest : List UInt8) (i : ℕ) (out : Block UInt8)
    (arr : ℕ → UInt8), i + rest.length = len →
    Progress (decodeOutSize len) first (begun i) out arr →
    ∃ out' n, loopBlock signed rest i (full i) out =
        some ((decodeLoop rest i (full i) arr).1, out') ∧
      (decodeLoop rest i (full i) arr).1 ≤ n ∧ n ≤ decodeOutSize len ∧
      Progress (decodeOutSize len) first n out' (decodeLoop rest i (full i) arr).2
  | [], i, out, arr, hlen, h => by
      have hi : i = len := hlen
      refine ⟨out, begun i, rfl, ?_, ?_, h⟩
      · unfold full begun decodeLoop
        dsimp only
        omega
      · unfold begun decodeOutSize
        omega
  | ch :: rest, i, out, arr, hlen, h => by
      have hi : i < len := by
        rw [← hlen, List.length_cons]
        omega
      have hbegun : full i ≤ begun i ∧ begun i ≤ decodeOutSize len := by
        unfold full begun decodeOutSize
        omega
      obtain ⟨hpad, hrange⟩ := charVal_tests signed ch
      unfold loopBlock decodeLoop
      by_cases hc : ch = pad
      · rw [if_pos hc, if_pos (hpad.mpr hc)]
        exact ⟨out, begun i, rfl, hbegun.1, hbegun.2, h⟩
      rw [if_neg hc, if_neg (mt hpad.mp hc)]
      by_cases hr : ch < deFirst ∨ deLast < ch
      · rw [if_pos hr, if_pos (hrange.mpr hr)]
        exact ⟨out, begun i, rfl, Nat.zero_le _, hbegun.2, h⟩
      rw [if_neg hr, if_neg (mt hrange.mp hr), load_base64de hr]
      by_cases hde : de ch = 255
      · rw [if_pos hde]
        refine ⟨out, begun i, ?_, Nat.zero_le _, hbegun.2, h⟩
        simp [hde]
      rw [if_neg hde]
      obtain ⟨mid, hmid, hnext⟩ := putBlock_progress hroom h4 hi h (de ch)
      have hrest := loopBlock_progress signed rest (i + 1) mid _
        (by rw [← hlen, List.length_cons]; omega) hnext
      dsimp only
      rw [decodePut_fst]
      simpa [hde, hmid] using hrest

end Decode

/-- The decoder of a block that has room does what that of an array does, and stays in the block. -/
theorem decodeBlock_progress (signed : Bool) (text : List UInt8) (first : Block UInt8)
    (hroom : decodeOutSize text.length ≤ first.length) (arr : ℕ → UInt8)
    (harr : ∀ k b, first.load k = some b → arr k = b) :
    ∃ out n, decodeBlock signed text first = some ((base64Decode text arr).1, out) ∧
      (base64Decode text arr).1 ≤ n ∧ n ≤ decodeOutSize text.length ∧
      Progress (decodeOutSize text.length) first n out (base64Decode text arr).2 := by
  have hstart : Progress (decodeOutSize text.length) first (begun 0) first arr :=
    ⟨rfl, fun k hk => hk.resolve_left (Nat.not_lt_zero k), harr, fun _ _ => rfl⟩
  unfold decodeBlock base64Decode
  by_cases h4 : text.length % 4 = 0
  · rw [if_neg (not_not_intro h4), if_neg (not_not_intro h4)]
    exact loopBlock_progress hroom h4 signed text 0 first arr (Nat.zero_add _) hstart
  · rw [if_pos h4, if_pos h4]
    exact ⟨first, 0, rfl, Nat.le_refl 0, Nat.zero_le _, hstart⟩

/-- A buffer of the size that is asked for suffices, whatever the text: no byte outside of it is written
    or read, no byte is read before it is written, no entry is looked up that the table does not have,
    and the bytes that are returned have all been written. The buffer of a script has one byte more, and
    keeps the NUL there. -/
theorem decodeBlock_in_bounds (signed : Bool) (text : List UInt8) (p : RunScript) :
    (∃ n out, decodeBlock signed text (Block.uninit (decodeOutSize text.length)) = some (n, out) ∧
      n = (base64Decode text fun _ => 0).1 ∧ n ≤ decodeOutSize text.length ∧
      ∀ i < n, ∃ b, out.load i = some b) ∧
    ∃ n out, decodeScript signed p = some (n, out) ∧
      n = (base64Decode p.scriptBase64 fun _ => 0).1 ∧ n ≤ decodeOutSize p.scriptBase64.length ∧
      (∀ i ≤ decodeOutSize p.scriptBase64.length, out.load i = some (scriptBuf p i)) ∧
      out.load (decodeOutSize p.scriptBase64.length) = some 0 := by
  constructor
  · obtain ⟨out, n, hout, hle, hroom, hprog⟩ := decodeBlock_progress signed text
      (Block.uninit (decodeOutSize text.length)) (Nat.le_of_eq (Block.length_uninit _).symm)
      (fun _ => 0) fun k b hb => by rw [Block.load_uninit] at hb; cases hb
    exact ⟨_, out, hout, rfl, Nat.le_trans hle hroom,
      fun i hi => hprog.written i (Or.inl (Nat.lt_of_lt_of_le hi hle))⟩
  · obtain ⟨out, n, hout, hle, hroom, hprog⟩ := decodeBlock_progress signed p.scriptBase64
      (Block.holding (List.replicate (decodeOutSize p.scriptBase64.length + 1) 0)) (by simp)
      (fun _ => 0) fun k b hb => by
        rw [Block.load_holding] at hb
        exact (List.eq_of_mem_replicate (List.mem_of_getElem? hb)).symm
    refine ⟨_, out, hout, rfl, Nat.le_trans hle hroom, fun i hi => ?_, ?_⟩
    · have hzero : (Block.holding (List.replicate (decodeOutSize p.scriptBase64.length + 1)
          (0 : UInt8))).load i = some 0 := by
        rw [Block.load_holding]
        exact List.getElem?_replicate_of_lt (Nat.lt_succ_of_le hi)
      obtain ⟨b, hb⟩ := hprog.written i (Or.inr ⟨0, hzero⟩)
      rw [hb, scriptBuf, hprog.agrees i b hb]
    · rw [hprog.beyond _ (Nat.le_refl _), Block.load_holding]
      exact List.getElem?_replicate_of_lt (Nat.lt_succ_self _)

end Ucentral.Base64
