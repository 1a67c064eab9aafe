import Ucentral.Plat.ScriptLock

/-! Which base64 texts are taken for a script, and what the script is then.

    `base64_decode` reads up to the first pad, and does not look at what is there. Bits that do not
    fill a byte are left in the byte behind the last one:

        QUJD=x=y     ABC, although the text goes on behind the pad
        QUJ=         AB, and behind it the byte 01000000

    `script_runner` reads the buffer up to the first NUL. -/

namespace Ucentral.Base64

/-! ### Which texts are accepted -/

/-- Characters of the alphabet, then at most two pads, four to a group. -/
def WellFormed (text : List UInt8) : Prop :=
  text.length % 4 = 0 ∧ ∃ body, ∃ n ≤ 2, text = body ++ List.replicate n pad ∧ ∀ ch ∈ body, Alphabet ch

/-- There is text after padding, padding in the first two positions of a group, or more than two
    pads. -/
def BadPadding (text : List UInt8) : Prop :=
  (∃ (i j : ℕ) (ch : UInt8), i < j ∧ text[i]? = some pad ∧ text[j]? = some ch ∧ ch ≠ pad) ∨
    (∃ i : ℕ, i % 4 < 2 ∧ text[i]? = some pad) ∨ 3 ≤ text.count pad

/-- The text up to the first pad. -/
def body (text : List UInt8) : List UInt8 := text.takeWhile (· ≠ pad)

/-- The text from the first pad on. -/
def padding (text : List UInt8) : List UInt8 := text.dropWhile (· ≠ pad)

/-- Nothing is accepted, or from the first pad on there are only pads, at most two. -/
def PaddedOrRefused (text : List UInt8) : Prop :=
  text.length % 4 ≠ 0 ∨ (body text).length < 2 ∨ (∃ ch ∈ body text, ¬ Alphabet ch) ∨
    padding text = List.replicate (padding text).length pad ∧ (padding text).length ≤ 2

/-- The bytes that are complete after `m` characters. -/
def full (m : ℕ) : ℕ := m - (m + 3) / 4

theorem alphabet_table : ∀ n < 256, Alphabet (UInt8.ofNat n) ↔
    ¬ (UInt8.ofNat n < deFirst ∨ deLast < UInt8.ofNat n) ∧ de (UInt8.ofNat n) ≠ 255 := by
  decide +kernel

theorem alphabet_iff (ch : UInt8) :
    Alphabet ch ↔ ¬ (ch < deFirst ∨ deLast < ch) ∧ de ch ≠ 255 := by
  have h := alphabet_table ch.toNat ch.toNat_lt
  rwa [UInt8.ofNat_toNat] at h

theorem not_alphabet_pad : ¬ Alphabet pad := by decide

theorem decodeLoop_alphabet {ch : UInt8} (h : Alphabet ch) (rest : List UInt8) (i j : ℕ)
    (out : ℕ → UInt8) : decodeLoop (ch :: rest) i j out =
      decodeLoop rest (i + 1) (decodePut i (de ch) j out).1 (decodePut i (de ch) j out).2 := by
  have hpad : ch ≠ pad := fun hc => not_alphabet_pad (hc ▸ h)
  obtain ⟨hrange, hde⟩ := (alphabet_iff ch).mp h
  rw [decodeLoop, if_neg hpad, if_neg hrange, if_neg hde]

theorem decodeLoop_refused {ch : UInt8} (h : ¬ Alphabet ch) (hpad : ch ≠ pad) (rest : List UInt8)
    (i j : ℕ) (out : ℕ → UInt8) : decodeLoop (ch :: rest) i j out = (0, out) := by
  rw [decodeLoop, if_neg hpad]
  split
  · rfl
  · next hrange =>
    rw [if_pos]
    by_contra hde
    exact h ((alphabet_iff ch).mpr ⟨hrange, hde⟩)

theorem full_succ (i : ℕ) : full (i + 1) = if i % 4 = 0 then full i else full i + 1 := by
  unfold full
  split <;> omega

theorem decodePut_fst (i : ℕ) (c : UInt8) (out : ℕ → UInt8) :
    (decodePut i c (full i) out).1 = full (i + 1) := by
  rw [full_succ]
  unfold decodePut
  split
  · next h => rw [if_pos h]
  · next h => rw [if_neg (by omega)]
  · next h => rw [if_neg (by omega)]
  · next h _ _ => rw [if_neg h]

theorem body_cons {ch : UInt8} (hpad : ch ≠ pad) (rest : List UInt8) :
    body (ch :: rest) = ch :: body rest := List.takeWhile_cons_of_pos (decide_eq_true hpad)

/-- What the loop returns only depends on the text up to the first pad. -/
theorem decodeLoop_fst : ∀ (text : List UInt8) (i : ℕ) (out : ℕ → UInt8),
    (∀ ch ∈ body text, Alphabet ch) →
    (decodeLoop text i (full i) out).1 = full (i + (body text).length)
  | [], _, _, _ => rfl
  | ch :: rest, i, out, halph => by
      by_cases hpad : ch = pad
      · rw [hpad, decodeLoop_pad]
        rfl
      · rw [body_cons hpad] at halph ⊢
        rw [List.forall_mem_cons] at halph
        rw [decodeLoop_alphabet halph.1, decodePut_fst, decodeLoop_fst rest (i + 1) _ halph.2,
          List.length_cons, Nat.add_assoc, Nat.add_comm 1]

theorem decodeLoop_fst_refused : ∀ (text : List UInt8) (i j : ℕ) (out : ℕ → UInt8),
    (¬ ∀ ch ∈ body text, Alphabet ch) → (decodeLoop text i j out).1 = 0
  | [], _, _, _, hno => absurd (List.forall_mem_nil _) hno
  | ch :: rest, i, j, out, hno => by
      by_cases hpad : ch = pad
      · rw [hpad] at hno
        exact absurd (List.forall_mem_nil _) hno
      · rw [body_cons hpad, List.forall_mem_cons] at hno
        by_cases hch : Alphabet ch
        · rw [decodeLoop_alphabet hch]
          exact decodeLoop_fst_refused rest _ _ _ fun hrest => hno ⟨hch, hrest⟩
        · rw [decodeLoop_refused hch hpad]

theorem base64Decode_fst {text : List UInt8} (hlen : text.length % 4 = 0)
    (halph : ∀ ch ∈ body text, Alphabet ch) (out : ℕ → UInt8) :
    (base64Decode text out).1 = full (body text).length := by
  have hloop := decodeLoop_fst text 0 out halph
  rw [Nat.zero_add] at hloop
  rw [base64Decode, if_neg (not_not_intro hlen)]
  exact hloop

theorem base64Decode_fst_refused {text : List UInt8}
    (hno : ¬ (text.length % 4 = 0 ∧ ∀ ch ∈ body text, Alphabet ch)) (out : ℕ → UInt8) :
    (base64Decode text out).1 = 0 := by
  unfold base64Decode
  by_cases hlen : text.length % 4 = 0
  · rw [if_neg (not_not_intro hlen)]
    exact decodeLoop_fst_refused text 0 0 out fun halph => hno ⟨hlen, halph⟩
  · rw [if_pos hlen]

theorem base64Decode_pos_iff (text : List UInt8) (out : ℕ → UInt8) :
    0 < (base64Decode text out).1 ↔
      text.length % 4 = 0 ∧ (∀ ch ∈ body text, Alphabet ch) ∧ 2 ≤ (body text).length := by
  by_cases h : text.length % 4 = 0 ∧ ∀ ch ∈ body text, Alphabet ch
  · rw [base64Decode_fst h.1 h.2]
    have hfull : 0 < full (body text).length ↔ 2 ≤ (body text).length := by
      unfold full
      omega
    rw [hfull]
    exact ⟨fun hpos => ⟨h.1, h.2, hpos⟩, fun hall => hall.2.2⟩
  · rw [base64Decode_fst_refused h]
    exact iff_of_false (Nat.lt_irrefl 0) fun hall => h ⟨hall.1, hall.2.1⟩

/-! ### Well-formed texts -/

theorem body_append_padding (text : List UInt8) : body text ++ padding text = text :=
  List.takeWhile_append_dropWhile ..

theorem body_padding_of_append {xs : List UInt8} (hxs : ∀ ch ∈ xs, Alphabet ch) (n : ℕ) :
    body (xs ++ List.replicate n pad) = xs ∧
      padding (xs ++ List.replicate n pad) = List.replicate n pad := by
  have hne : ∀ ch ∈ xs, (decide (ch ≠ pad)) = true := fun ch hch =>
    decide_eq_true fun hc => not_alphabet_pad (hc ▸ hxs ch hch)
  unfold body padding
  rw [List.takeWhile_append_of_pos hne, List.dropWhile_append_of_pos hne]
  cases n with
  | zero => exact ⟨List.append_nil xs, rfl⟩
  | succ n => exact ⟨List.append_nil xs, rfl⟩

theorem wellFormed_iff (text : List UInt8) : WellFormed text ↔
    text.length % 4 = 0 ∧ (∀ ch ∈ body text, Alphabet ch) ∧
      padding text = List.replicate (padding text).length pad ∧ (padding text).length ≤ 2 := by
  constructor
  · rintro ⟨hlen, xs, n, hn, rfl, hxs⟩
    obtain ⟨hbody, hpadding⟩ := body_padding_of_append hxs n
    rw [hbody, hpadding, List.length_replicate]
    exact ⟨hlen, hxs, rfl, hn⟩
  · rintro ⟨hlen, hbody, hpads, hn⟩
    refine ⟨hlen, body text, _, hn, ?_, hbody⟩
    rw [← hpads, body_append_padding]

theorem not_badPadding {text : List UInt8} (h : WellFormed text) : ¬ BadPadding text := by
  obtain ⟨hlen, xs, n, hn, rfl, hxs⟩ := h
  have hin : ∀ i, (xs ++ List.replicate n pad)[i]? = some pad → xs.length ≤ i := by
    intro i hi
    by_contra hlt
    rw [List.getElem?_append_left (Nat.not_le.mp hlt)] at hi
    exact not_alphabet_pad (hxs pad (List.mem_of_getElem? hi))
  rw [List.length_append, List.length_replicate] at hlen
  rintro (⟨i, j, ch, hij, hi, hj, hch⟩ | ⟨i, hi4, hi⟩ | hcount)
  · rw [List.getElem?_append_right (by have := hin i hi; omega)] at hj
    exact hch (List.eq_of_mem_replicate (List.mem_of_getElem? hj))
  · have hle := hin i hi
    obtain ⟨hlt, -⟩ := List.getElem?_eq_some_iff.mp hi
    rw [List.length_append, List.length_replicate] at hlt
    omega
  · have hzero : xs.count pad = 0 :=
      List.count_eq_zero_of_not_mem fun hmem => not_alphabet_pad (hxs pad hmem)
    rw [List.count_append, hzero, List.count_replicate_self] at hcount
    omega

/-- Only well-formed texts are accepted, and none with bad padding, exactly if the text is refused for
    another reason or has nothing but one or two pads from the first pad on. -/
theorem base64Decode_accepts_iff (text : List UInt8) (out : ℕ → UInt8) :
    ((0 < (base64Decode text out).1 → WellFormed text) ∧
      (BadPadding text → (base64Decode text out).1 = 0)) ↔ PaddedOrRefused text := by
  have hpos := base64Decode_pos_iff text out
  constructor
  · rintro ⟨hwf, -⟩
    by_cases h : text.length % 4 = 0 ∧ (∀ ch ∈ body text, Alphabet ch) ∧ 2 ≤ (body text).length
    · exact Or.inr (Or.inr (Or.inr ((wellFormed_iff text).mp (hwf (hpos.mpr h))).2.2))
    · simp only [not_and_or, not_forall, Nat.not_le] at h
      rcases h with hlen | ⟨ch, hch, hno⟩ | hshort
      · exact Or.inl hlen
      · exact Or.inr (Or.inr (Or.inl ⟨ch, hch, hno⟩))
      · exact Or.inr (Or.inl hshort)
  · intro h
    have hwf : 0 < (base64Decode text out).1 → WellFormed text := by
      intro hret
      obtain ⟨hlen, hbody, hlong⟩ := hpos.mp hret
      rcases h with hmod | hshort | ⟨ch, hch, hno⟩ | hpads
      · exact absurd hlen hmod
      · omega
      · exact absurd (hbody ch hch) hno
      · exact (wellFormed_iff text).mpr ⟨hlen, hbody, hpads⟩
    refine ⟨hwf, fun hbad => ?_⟩
    by_contra hret
    exact not_badPadding (hwf (Nat.pos_of_ne_zero hret)) hbad

/-- A text that goes on behind a pad is decoded up to the pad. -/
theorem accepts_text_after_pad : ¬ ∀ (text : List UInt8) (out : ℕ → UInt8),
    0 < (base64Decode text out).1 → WellFormed text := by
  intro h
  have hwf := h ("QUJD=x=y".toList.map Char.toUInt8) (fun _ => 0) (by decide)
  have hpad : ("QUJD=x=y".toList.map Char.toUInt8)[4]? = some pad := by decide
  exact not_badPadding hwf (Or.inr (Or.inl ⟨4, by decide, hpad⟩))

/-! ### Bits that fill no byte -/

/-- The bits of the last of `m` characters that are not in a complete byte. -/
def spill (m : ℕ) (ch : UInt8) : UInt8 :=
  match m % 4 with
  | 1 => (de ch <<< 2) &&& 0xFF
  | 2 => (de ch &&& 0xF) <<< 4
  | 3 => (de ch &&& 0x3) <<< 6
  | _ => 0

/-- Those of the last character before the first pad. -/
def spilled (text : List UInt8) : UInt8 := spill (body text).length ((body text).getLastD 0)

/-- After `m` characters, the last of which is `ch`, what is behind the complete bytes is clear but for
    the bits of `ch`. -/
structure Clear (m : ℕ) (ch : UInt8) (out : ℕ → UInt8) : Prop where
  last : out (full m) = spill m ch
  rest : ∀ k, full m < k → out k = 0

/-- The last byte is completed, and the bits left over are in the one behind it. -/
theorem clear_update {m j : ℕ} {ch x y : UInt8} {out : ℕ → UInt8} (hfull : full m = j + 1)
    (hrest : ∀ k, j < k → out k = 0) (hy : spill m ch = y) :
    Clear m ch (Function.update (Function.update out j x) (j + 1) y) := by
  refine ⟨?_, fun k hk => ?_⟩
  · rw [hfull, Function.update_self, hy]
  · rw [hfull] at hk
    rw [Function.update_of_ne (by omega), Function.update_of_ne (by omega)]
    exact hrest k (by omega)

theorem Clear.put {i : ℕ} {ch : UInt8} {out : ℕ → UInt8} (h : Clear i ch out) (next : UInt8) :
    Clear (i + 1) next (decodePut i (de next) (full i) out).2 := by
  have hfull := full_succ i
  unfold decodePut
  split
  · next hi =>
    rw [if_pos hi] at hfull
    have hmod : (i + 1) % 4 = 1 := by omega
    dsimp only
    refine ⟨?_, fun k hk => ?_⟩
    · rw [hfull, Function.update_self, spill, hmod]
      rfl
    · rw [hfull] at hk
      rw [Function.update_of_ne (by omega)]
      exact h.rest k hk
  · next hi =>
    rw [if_neg (by omega)] at hfull
    have hmod : (i + 1) % 4 = 2 := by omega
    have hspill : spill (i + 1) next = (de next &&& 0xF) <<< 4 := by
      rw [spill, hmod]
      rfl
    exact clear_update hfull h.rest hspill
  · next hi =>
    rw [if_neg (by omega)] at hfull
    have hmod : (i + 1) % 4 = 3 := by omega
    have hspill : spill (i + 1) next = (de next &&& 0x3) <<< 6 := by
      rw [spill, hmod]
      rfl
    exact clear_update hfull h.rest hspill
  · next h0 h1 h2 =>
    rw [if_neg h0] at hfull
    have hmod : (i + 1) % 4 = 0 := by
      have h0 : i % 4 ≠ 0 := h0
      have h1 : i % 4 ≠ 1 := h1
      have h2 : i % 4 ≠ 2 := h2
      omega
    dsimp only
    refine ⟨?_, fun k hk => ?_⟩
    · rw [hfull, Function.update_of_ne (Nat.succ_ne_self _), h.rest _ (Nat.lt_succ_self _), spill,
        hmod]
      rfl
    · rw [hfull] at hk
      rw [Function.update_of_ne (by omega)]
      exact h.rest k (by omega)

theorem decodeLoop_clear : ∀ (text : List UInt8) {i : ℕ} {last : UInt8} {out : ℕ → UInt8},
    Clear i last out → (∀ ch ∈ body text, Alphabet ch) →
    Clear (i + (body text).length) ((body text).getLastD last) (decodeLoop text i (full i) out).2
  | [], _, _, _, h, _ => h
  | ch :: rest, i, last, out, h, halph => by
      by_cases hpad : ch = pad
      · rw [hpad, decodeLoop_pad]
        exact h
      · rw [body_cons hpad] at halph ⊢
        rw [List.forall_mem_cons] at halph
        rw [decodeLoop_alphabet halph.1, decodePut_fst, List.length_cons, List.getLastD_cons,
          Nat.add_comm _ 1, ← Nat.add_assoc]
        exact decodeLoop_clear rest (h.put ch) halph.2

/-- The byte behind the decoded ones. -/
theorem base64Decode_spilled {text : List UInt8} (h : 0 < (base64Decode text fun _ => 0).1) :
    (base64Decode text fun _ => 0).2 (base64Decode text fun _ => 0).1 = spilled text := by
  obtain ⟨hlen, halph, -⟩ := (base64Decode_pos_iff text _).mp h
  have hzero : Clear 0 0 fun _ => 0 := ⟨rfl, fun _ _ => rfl⟩
  have hclear := decodeLoop_clear text hzero halph
  rw [base64Decode_fst hlen halph, base64Decode, if_neg (not_not_intro hlen)]
  rw [Nat.zero_add] at hclear
  exact hclear.last

end Ucentral.Base64

namespace Ucentral.Plat.Script
open Base64

/-! ### The text of a script -/

/-- `BASE64_DECODE_OUT_SIZE`. -/
def decodeOutSize (s : ℕ) : ℕ := s / 4 * 3

/-- `script_ctx.script_buf`, from `calloc`. -/
def scriptBuf (p : RunScript) : ℕ → UInt8 := (base64Decode p.scriptBase64 fun _ => 0).2

/-- What `script_runner` reads. -/
def scriptText (p : RunScript) : List UInt8 :=
  ((List.range (decodeOutSize p.scriptBase64.length + 1)).map (scriptBuf p)).takeWhile (· ≠ 0)

theorem fillCtx_shell {p : RunScript} (hshell : p.type = .shell) (haccept : (fillCtx p).2 = true) :
    (fillCtx p).1.scriptBufsz = (base64Decode p.scriptBase64 fun _ => 0).1 ∧
      0 < (base64Decode p.scriptBase64 fun _ => 0).1 := by
  unfold fillCtx at haccept ⊢
  rw [hshell] at haccept ⊢
  dsimp only at haccept ⊢
  split at haccept
  · cases haccept
  · next hcalloc =>
    rw [if_neg hcalloc]
    split at haccept
    · cases haccept
    · next hsz =>
      rw [if_neg hsz]
      split at haccept
      · cases haccept
      · next hmalloc =>
        rw [if_neg hmalloc]
        exact ⟨rfl, Nat.pos_of_ne_zero hsz⟩

/-- The bytes up to the first NUL, where none of the first `n` is one. -/
theorem takeWhile_range {buf : ℕ → UInt8} {n size : ℕ} (hn : n < size) (hnul : ∀ i < n, buf i ≠ 0) :
    ((List.range size).map buf).takeWhile (· ≠ 0) = (List.range n).map buf ↔ buf n = 0 := by
  obtain ⟨m, rfl⟩ := Nat.exists_eq_add_of_lt hn
  have hsplit : (List.range (n + m + 1)).map buf =
      (List.range n).map buf ++ buf n :: (List.range m).map fun i => buf (n + (i + 1)) := by
    rw [Nat.add_assoc, List.range_add, List.map_append, List.range_succ_eq_map]
    simp [Function.comp_def]
  have hpos : ∀ b ∈ (List.range n).map buf, decide (b ≠ 0) = true := by
    intro b hb
    obtain ⟨i, hi, rfl⟩ := List.mem_map.mp hb
    exact decide_eq_true (hnul i (List.mem_range.mp hi))
  rw [hsplit, List.takeWhile_append_of_pos hpos, List.append_right_eq_self]
  by_cases h : buf n = 0
  · exact iff_of_true (List.takeWhile_cons_of_neg (by simpa using h)) h
  · rw [List.takeWhile_cons_of_pos (by simpa using h)]
    exact iff_of_false (List.cons_ne_nil _ _) h

/-- The script that is read is what was decoded and nothing else exactly if the last character before the
    padding spills no bits. -/
theorem scriptText_eq_iff {p : RunScript} (hshell : p.type = .shell)
    (haccept : (fillCtx p).2 = true)
    (hnul : ∀ i < (fillCtx p).1.scriptBufsz, scriptBuf p i ≠ 0) :
    scriptText p = (List.range (fillCtx p).1.scriptBufsz).map (scriptBuf p) ↔
      spilled p.scriptBase64 = 0 := by
  obtain ⟨hsz, hpos⟩ := fillCtx_shell hshell haccept
  have hroom : (base64Decode p.scriptBase64 fun _ => 0).1 <
      decodeOutSize p.scriptBase64.length + 1 := by
    obtain ⟨hlen, halph, -⟩ := (base64Decode_pos_iff p.scriptBase64 _).mp hpos
    have hbody : (body p.scriptBase64).length ≤ p.scriptBase64.length :=
      (List.takeWhile_prefix _).length_le
    rw [base64Decode_fst hlen halph, full, decodeOutSize]
    omega
  rw [hsz] at hnul ⊢
  rw [← base64Decode_spilled hpos]
  exact takeWhile_range hroom hnul

/-- A shell script with this text; all calls made for it succeed. -/
def scriptOf (text : String) : RunScript where
  type := .shell
  timeout := 1
  scriptBase64 := text.toList.map Char.toUInt8
  calloc := true
  malloc := true
  create := true

theorem scriptText_eq_iff_AB : scriptText (scriptOf "QUI=") =
    (List.range (fillCtx (scriptOf "QUI=")).1.scriptBufsz).map (scriptBuf (scriptOf "QUI=")) ↔
      spilled (scriptOf "QUI=").scriptBase64 = 0 :=
  scriptText_eq_iff rfl (by decide) (by decide)

/-- The bits of a last character that fill no byte are read as one more. -/
theorem script_has_spilled_byte : ¬ ∀ p : RunScript, p.type = .shell → (fillCtx p).2 = true →
    (∀ i < (fillCtx p).1.scriptBufsz, scriptBuf p i ≠ 0) →
    scriptText p = (List.range (fillCtx p).1.scriptBufsz).map (scriptBuf p) := fun h =>
  absurd (h (scriptOf "QUJ=") rfl (by decide) (by decide)) (by decide)

end Ucentral.Plat.Script
