import Ucentral.Client.JsonParser

/-! Bytes into the parser.

    `uc_json_parser_feed` gives lejp one byte after the other. When a byte ends a value that was under
    way by an error, the byte is given to a new parser once more. What keeps the loop from staying on a
    byte is `is_continue`:

        is_continue   lejp_parse   next byte   is_continue
        any           CONTINUE     yes         1
        any           >= 0         yes         0
        0             error        yes         0
        1             error        no          0                 -/

namespace Ucentral.Client.Feed
open Ucentral.Client.Parser

variable {κ : Type}

/-! ### The model -/

/-- lejp, whose contexts are in `κ`. One byte gives the value that `lejp_parse` returns, the next
    context, and the events of the callback, each with what it finds of memory. -/
structure Lejp (κ : Type) where
  parse : κ → Uctx → UInt8 → ℤ × κ × List (Memory × Event)
  construct : κ → κ

/-- `LEJP_CONTINUE`. -/
def lejpContinue : ℤ := -1

/-- `struct uc_json_parser` with its context. -/
structure Ctx (κ : Type) where
  ctx : κ
  uctx : Uctx
  isContinue : Bool

/-- `lejp_parse` on one byte. -/
def lejpParse (L : Lejp κ) (depth : ℕ) (b : UInt8) (s : Ctx κ) : ℤ × Ctx κ :=
  let r := L.parse s.ctx s.uctx b
  (r.1, { s with ctx := r.2.1, uctx := runWith depth s.uctx r.2.2 })

/-- `lejp_destruct` and `lejp_construct`. -/
def renew (L : Lejp κ) (depth : ℕ) (s : Ctx κ) : Ctx κ :=
  { s with
    ctx := L.construct s.ctx
    uctx := runWith depth s.uctx [(.enough, .destructed), (.enough, .constructed)] }

/-- A turn of the loop on the byte `b`: whether the next byte is due, and the new state. -/
def feedTurn (L : Lejp κ) (depth : ℕ) (b : UInt8) (s : Ctx κ) : Bool × Ctx κ :=
  let r := lejpParse L depth b s
  if r.1 = lejpContinue then (true, { r.2 with isContinue := true })
  else
    let s' := renew L depth r.2
    (decide (0 ≤ r.1) || !s'.isContinue, { s' with isContinue := false })

/-- The loop from the index `i` on: the state after it, and the indices of the bytes that were given
    to `lejp_parse`, in this order. -/
def feedLoop (L : Lejp κ) (depth : ℕ) (input : List UInt8) :
    ℕ → ℕ → Ctx κ → Option (Ctx κ × List ℕ)
  | 0, _, _ => none
  | fuel + 1, i, s =>
    match input[i]? with
    | none => some (s, [])
    | some b =>
      let t := feedTurn L depth b s
      (feedLoop L depth input fuel (if t.1 then i + 1 else i) t.2).map fun r => (r.1, i :: r.2)

/-- `uc_json_parser_feed`; that the turns are enough is part of what is proved. -/
def ucJsonParserFeed (L : Lejp κ) (depth : ℕ) (input : List UInt8) (s : Ctx κ) : Option (Ctx κ) :=
  (feedLoop L depth input (2 * input.length + 1) 0 s).map Prod.fst

/-! ### One byte -/

variable {L : Lejp κ} {depth : ℕ}

theorem feedTurn_continue {b : UInt8} {s : Ctx κ}
    (h : (lejpParse L depth b s).1 = lejpContinue) :
    feedTurn L depth b s = (true, { (lejpParse L depth b s).2 with isContinue := true }) :=
  if_pos h

theorem feedTurn_end {b : UInt8} {s : Ctx κ} (h : (lejpParse L depth b s).1 ≠ lejpContinue) :
    feedTurn L depth b s = (decide (0 ≤ (lejpParse L depth b s).1) || !s.isContinue,
      { renew L depth (lejpParse L depth b s).2 with isContinue := false }) :=
  if_neg h

/-- The loop leaves a byte unless something was under way before. -/
theorem feedTurn_fst {b : UInt8} {s : Ctx κ} (h : s.isContinue = false) :
    (feedTurn L depth b s).1 = true := by
  by_cases hrc : (lejpParse L depth b s).1 = lejpContinue
  · rw [feedTurn_continue hrc]
  · rw [feedTurn_end hrc, h, Bool.not_false, Bool.or_true]

/-- A byte that is to be given once more finds nothing under way. -/
theorem feedTurn_again {b : UInt8} {s : Ctx κ} (h : (feedTurn L depth b s).1 = false) :
    (feedTurn L depth b s).2.isContinue = false := by
  by_cases hrc : (lejpParse L depth b s).1 = lejpContinue
  · rw [feedTurn_continue hrc] at h
    cases h
  · rw [feedTurn_end hrc]

/-- What the loop makes of one byte. -/
def feedByte (L : Lejp κ) (depth : ℕ) (s : Ctx κ) (b : UInt8) : Ctx κ :=
  let t := feedTurn L depth b s
  if t.1 then t.2 else (feedTurn L depth b t.2).2

/-- The turns on the byte at `i`. -/
def turnsAt (L : Lejp κ) (depth : ℕ) (s : Ctx κ) (b : UInt8) (i : ℕ) : List ℕ :=
  if (feedTurn L depth b s).1 then [i] else [i, i]

/-- The turns on the bytes from the index `i` on. -/
def turns (L : Lejp κ) (depth : ℕ) : List UInt8 → ℕ → Ctx κ → List ℕ
  | [], _, _ => []
  | b :: bs, i, s => turnsAt L depth s b i ++ turns L depth bs (i + 1) (feedByte L depth s b)

theorem count_turnsAt (L : Lejp κ) (depth : ℕ) (s : Ctx κ) (b : UInt8) (i : ℕ) :
    0 < (turnsAt L depth s b i).count i ∧ (turnsAt L depth s b i).count i ≤ 2 ∧
    ∀ j, j ≠ i → (turnsAt L depth s b i).count j = 0 := by
  have hcount : ∀ is : List ℕ, is = [i] ∨ is = [i, i] →
      0 < is.count i ∧ is.count i ≤ 2 ∧ ∀ j, j ≠ i → is.count j = 0 := by
    rintro is (rfl | rfl)
    · exact ⟨by simp, by simp, fun j hj => by simp [hj.symm]⟩
    · exact ⟨by simp, by simp, fun j hj => by simp [hj.symm]⟩
  refine hcount _ ?_
  unfold turnsAt
  split
  · exact Or.inl rfl
  · exact Or.inr rfl

/-! ### The loop -/

/-- Every byte is given to `lejp_parse`, none more than twice, and no other. -/
theorem count_turns : ∀ (bs : List UInt8) (i : ℕ) (s : Ctx κ) (j : ℕ),
    (turns L depth bs i s).count j ≤ 2 ∧
    (0 < (turns L depth bs i s).count j ↔ i ≤ j ∧ j < i + bs.length)
  | [], i, _, j => by
      rw [turns, List.count_nil, List.length_nil]
      omega
  | b :: bs, i, s, j => by
      obtain ⟨hpos, hle, hother⟩ := count_turnsAt L depth s b i
      obtain ⟨hle', hpos'⟩ := count_turns bs (i + 1) (feedByte L depth s b) j
      rw [turns, List.count_append, List.length_cons]
      by_cases hj : j = i
      · rw [hj] at hle' hpos' ⊢
        omega
      · rw [hother j hj]
        omega

theorem feedLoop_turn (pre : List UInt8) (b : UInt8) (bs : List UInt8) (fuel : ℕ) (s : Ctx κ) :
    feedLoop L depth (pre ++ b :: bs) (fuel + 1) pre.length s =
      (feedLoop L depth (pre ++ b :: bs) fuel
        (if (feedTurn L depth b s).1 then pre.length + 1 else pre.length)
        (feedTurn L depth b s).2).map fun r => (r.1, pre.length :: r.2) := by
  have hb : (pre ++ b :: bs)[pre.length]? = some b := by
    rw [List.getElem?_append_right (Nat.le_refl _), Nat.sub_self, List.getElem?_cons_zero]
  rw [feedLoop, hb]

/-- With two turns for each byte the loop comes to its end. -/
theorem feedLoop_eq : ∀ (bs pre : List UInt8) (s : Ctx κ) (fuel : ℕ), 2 * bs.length + 1 ≤ fuel →
    feedLoop L depth (pre ++ bs) fuel pre.length s =
      some (bs.foldl (feedByte L depth) s, turns L depth bs pre.length s)
  | [], pre, s, fuel + 1, _ => by
      rw [feedLoop, List.append_nil, List.getElem?_eq_none (Nat.le_refl _)]
      rfl
  | b :: bs, pre, s, fuel + 2, hfuel => by
      have hnext : ∀ (s' : Ctx κ) (fuel' : ℕ), 2 * bs.length + 1 ≤ fuel' →
          feedLoop L depth (pre ++ b :: bs) fuel' (pre.length + 1) s' =
            some (bs.foldl (feedByte L depth) s', turns L depth bs (pre.length + 1) s') := by
        intro s' fuel' hfuel'
        have ih := feedLoop_eq bs (pre ++ [b]) s' fuel' hfuel'
        rwa [List.append_assoc, List.length_append] at ih
      rw [List.length_cons] at hfuel
      rw [feedLoop_turn, List.foldl_cons, turns, feedByte, turnsAt]
      cases hfirst : (feedTurn L depth b s).1 with
      | true =>
        simp only [if_true]
        rw [hnext _ _ (by omega)]
        rfl
      | false =>
        -- the second time nothing is under way, so the loop goes on
        have hsecond : (feedTurn L depth b (feedTurn L depth b s).2).1 = true :=
          feedTurn_fst (feedTurn_again hfirst)
        simp only [Bool.false_eq_true, if_false]
        rw [feedLoop_turn, if_pos hsecond, hnext _ _ (by omega)]
        rfl

/-! ### Any number of calls -/

theorem ucJsonParserFeed_eq (input : List UInt8) (s : Ctx κ) :
    ucJsonParserFeed L depth input s = some (input.foldl (feedByte L depth) s) := by
  have hloop : feedLoop L depth input (2 * input.length + 1) 0 s =
      some (input.foldl (feedByte L depth) s, turns L depth input 0 s) :=
    feedLoop_eq input [] s _ (Nat.le_refl _)
  rw [ucJsonParserFeed, hloop]
  rfl

/-- The calls one after the other. -/
def feedAll (L : Lejp κ) (depth : ℕ) (chunks : List (List UInt8)) (s : Ctx κ) : Option (Ctx κ) :=
  chunks.foldlM (fun s input => ucJsonParserFeed L depth input s) s

theorem feedAll_flatten : ∀ (chunks : List (List UInt8)) (s : Ctx κ),
    feedAll L depth chunks s = ucJsonParserFeed L depth chunks.flatten s
  | [], s => by rw [List.flatten_nil, ucJsonParserFeed_eq]; rfl
  | input :: chunks, s => by
      have hfirst : feedAll L depth (input :: chunks) s =
          feedAll L depth chunks (input.foldl (feedByte L depth) s) := by
        rw [feedAll, List.foldlM_cons, ucJsonParserFeed_eq]
        rfl
      rw [hfirst, feedAll_flatten chunks, ucJsonParserFeed_eq, ucJsonParserFeed_eq,
        List.flatten_cons, List.foldl_append]

/-- Whatever the bytes and whatever lejp makes of them, `sp` stays an index of the stack. -/
theorem inStack_ucJsonParserFeed (hd : 0 < depth) (input : List UInt8) {s : Ctx κ}
    (h : InStack depth s.uctx) :
    ∃ s', ucJsonParserFeed L depth input s = some s' ∧ InStack depth s'.uctx := by
  have hturn : ∀ (b : UInt8) (s : Ctx κ), InStack depth s.uctx →
      InStack depth (feedTurn L depth b s).2.uctx := by
    intro b s hs
    have hparse := inStack_runWith hd (L.parse s.ctx s.uctx b).2.2 s.uctx hs
    by_cases hrc : (lejpParse L depth b s).1 = lejpContinue
    · rw [feedTurn_continue hrc]
      exact hparse
    · rw [feedTurn_end hrc]
      exact inStack_runWith hd _ _ hparse
  refine ⟨_, ucJsonParserFeed_eq input s, ?_⟩
  induction input generalizing s with
  | nil => exact h
  | cons b input ih =>
    refine ih ?_
    rw [feedByte]
    cases (feedTurn L depth b s).1 with
    | true => exact hturn b s h
    | false => exact hturn b _ (hturn b s h)

/-- The loop ends, and gives every byte to `lejp_parse` once or twice; and the callbacks called and the
    state in the end do not depend on how the bytes are divided into calls. -/
theorem ucJsonParserFeed_chunks (L : Lejp κ) (depth : ℕ) :
    (∀ (input : List UInt8) (s : Ctx κ), ∃ s' is,
      (∀ fuel, 2 * input.length + 1 ≤ fuel → feedLoop L depth input fuel 0 s = some (s', is)) ∧
      ucJsonParserFeed L depth input s = some s' ∧
      ∀ i, is.count i ≤ 2 ∧ (0 < is.count i ↔ i < input.length)) ∧
    ∀ (chunks : List (List UInt8)) (s : Ctx κ),
      feedAll L depth chunks s = ucJsonParserFeed L depth chunks.flatten s := by
  refine ⟨fun input s => ?_, feedAll_flatten⟩
  refine ⟨_, turns L depth input 0 s, feedLoop_eq input [] s, ucJsonParserFeed_eq input s,
    fun i => ?_⟩
  obtain ⟨hle, hpos⟩ := count_turns input 0 s i
  rw [Nat.zero_add, and_iff_right (Nat.zero_le i)] at hpos
  exact ⟨hle, hpos⟩

end Ucentral.Client.Feed
