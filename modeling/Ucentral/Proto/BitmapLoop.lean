import Mathlib.Data.List.Range
import Ucentral.Lib.Block
import Ucentral.Lib.Loop
import Ucentral.Proto.StpInstances

/-! The loop over the set bits of a bitmap.

    `BITMAP_FOR_EACH_BIT_SET` looks for each next bit from the start of the bitmap again:

        bits   0 1 0 0 1 1 0        visits  1, 4, 5, then the length

    A bitmap is a block of words, so that a bit outside of it cannot be read or written. -/

namespace Ucentral.BitmapLoop
open Proto

/-! ### The macros -/

/-- `BITS_TO_UINT32` -/
def bitsToUint32 (nr : ℕ) : ℕ := (nr + 32 - 1) / 32

/-- `BITMAP_SET_BIT` -/
def setBit (a : Block (BitVec 32)) (k : ℕ) : Option (Block (BitVec 32)) := do
  let w ← a.load (k / 32)
  a.store (k / 32) (w ||| 1#32 <<< (k % 32))

/-- `BITMAP_CLEAR_BIT` -/
def clearBit (a : Block (BitVec 32)) (k : ℕ) : Option (Block (BitVec 32)) := do
  let w ← a.load (k / 32)
  a.store (k / 32) (w &&& ~~~(1#32 <<< (k % 32)))

/-- `BITMAP_TEST_BIT` -/
def testBit (a : Block (BitVec 32)) (k : ℕ) : Option Bool := do
  let w ← a.load (k / 32)
  return w &&& 1#32 <<< (k % 32) != 0#32

/-- `BITMAP_CLEAR`, with its `memset` of so many words. -/
def clear (a : Block (BitVec 32)) (s : ℕ) : Option (Block (BitVec 32)) :=
  if bitsToUint32 s ≤ a.length then
    some (Block.holding (List.replicate (bitsToUint32 s) 0#32) ++ a.drop (bitsToUint32 s))
  else none

/-- A turn of the loops that look for a bit: `if (test) break;`. -/
def findTurn (test : ℕ → Option Bool) (len it : ℕ) : Option (ℕ ⊕ ℕ) :=
  if it < len then do
    let hit ← test it
    return if hit then .inr it else .inl (it + 1)
  else some (.inr it)

/-- `BITMAP_FIND_FIRST_BIT_SET` -/
def findFirstBitSet (turns : ℕ) (a : Block (BitVec 32)) (len : ℕ) : Option ℕ :=
  Loop.run (findTurn (testBit a) len) turns 0

/-- `BITMAP_FIND_NEXT_BIT_SET` -/
def findNextBitSet (turns : ℕ) (a : Block (BitVec 32)) (len bit : ℕ) : Option ℕ :=
  Loop.run (findTurn (fun it => do return (← testBit a it) && decide (bit ≤ it)) len) turns 0

section ForEach

variable {σ : Type}

/-- A turn of `BITMAP_FOR_EACH_BIT_SET`, whose body changes a state of its own. -/
def forEachTurn (turns : ℕ) (a : Block (BitVec 32)) (len : ℕ) (body : ℕ → σ → σ) (s : ℕ × σ) :
    Option ((ℕ × σ) ⊕ (ℕ × σ)) :=
  if s.1 < len then do
    let next ← findNextBitSet turns a len (s.1 + 1)
    return .inl (next, body s.1 s.2)
  else some (.inr s)

/-- `BITMAP_FOR_EACH_BIT_SET`: in the end, `bit` and the state of the body. -/
def forEachBitSet (turns : ℕ) (a : Block (BitVec 32)) (len : ℕ) (body : ℕ → σ → σ) (s : σ) :
    Option (ℕ × σ) := do
  let bit ← findFirstBitSet turns a len
  Loop.run (forEachTurn turns a len body) turns (bit, s)

end ForEach

/-! ### Looking for a bit -/

/-- The first position below `len` that `p` holds at, if there is one; else `len`. -/
structure IsFirst (p : ℕ → Bool) (len r : ℕ) : Prop where
  le : r ≤ len
  hit : r < len → p r = true
  before : ∀ k < r, p k = false

theorem findTurn_first {test : ℕ → Option Bool} {p : ℕ → Bool} {len : ℕ}
    (htest : ∀ k < len, test k = some (p k)) {turns : ℕ} (hturns : len < turns) :
    ∃ r, Loop.run (findTurn test len) turns 0 = some r ∧ IsFirst p len r := by
  refine Loop.run_total (I := fun it => it ≤ len ∧ ∀ k < it, p k = false) (m := fun it => len - it)
    ?_ turns 0 ⟨Nat.zero_le _, fun k hk => absurd hk (Nat.not_lt_zero k)⟩ hturns
  rintro it ⟨hle, hbefore⟩
  unfold Loop.Turns findTurn
  by_cases hlt : it < len
  · rw [if_pos hlt, htest it hlt]
    cases hp : p it with
    | true => exact Or.inr ⟨it, rfl, hle, fun _ => hp, hbefore⟩
    | false =>
      refine Or.inl ⟨it + 1, rfl, ⟨hlt, fun k hk => ?_⟩, Nat.sub_succ_lt_self len it hlt⟩
      rcases Nat.lt_succ_iff_lt_or_eq.mp hk with hk | rfl
      · exact hbefore k hk
      · exact hp
  · rw [if_neg hlt]
    exact Or.inr ⟨it, rfl, hle, fun h => absurd h hlt, hbefore⟩

theorem filter_range_of_none {p : ℕ → Bool} {b : ℕ} : ∀ {r : ℕ}, b ≤ r →
    (∀ k, b ≤ k → k < r → p k = false) → (List.range r).filter p = (List.range b).filter p := by
  intro r hr
  induction r, hr using Nat.le_induction with
  | base => exact fun _ => rfl
  | succ r hr ih =>
    intro hnone
    rw [List.range_succ, List.filter_append, ih fun k hb hk => hnone k hb (Nat.lt_succ_of_lt hk)]
    simp [hnone r hr (Nat.lt_succ_self r)]

/-! ### The visits -/

section Visits

variable {σ : Type} {a : Block (BitVec 32)} {p : ℕ → Bool} {len turns : ℕ}
  (htest : ∀ k < len, testBit a k = some (p k)) (hturns : len < turns)
include htest hturns

theorem findFirstBitSet_first :
    ∃ r, findFirstBitSet turns a len = some r ∧ IsFirst p len r :=
  findTurn_first htest hturns

theorem findNextBitSet_first (bit : ℕ) : ∃ r, findNextBitSet turns a len bit = some r ∧
    IsFirst (fun k => p k && decide (bit ≤ k)) len r := by
  refine findTurn_first (fun k hk => ?_) hturns
  rw [htest k hk]
  rfl

/-- The body is done for the positions below `bit` at which `p` holds, and `bit` is the next one. -/
structure Visiting (p : ℕ → Bool) (len : ℕ) (body : ℕ → σ → σ) (s₀ : σ) (s : ℕ × σ) : Prop where
  le : s.1 ≤ len
  hit : s.1 < len → p s.1 = true
  done : s.2 = ((List.range s.1).filter p).foldl (fun s k => body k s) s₀

omit htest hturns in
/-- From the position the body was done for to the next one nothing is left out. -/
theorem Visiting.next {body : ℕ → σ → σ} {s₀ : σ} {s : ℕ × σ} (h : Visiting p len body s₀ s)
    (hlt : s.1 < len) {r : ℕ} (hr : IsFirst (fun k => p k && decide (s.1 + 1 ≤ k)) len r) :
    Visiting p len body s₀ (r, body s.1 s.2) ∧ s.1 < r := by
  have hbefore : s.1 < r := by
    by_contra hle
    have hrlt : r < len := Nat.lt_of_le_of_lt (Nat.not_lt.mp hle) hlt
    have hhit := (Bool.and_eq_true _ _).mp (hr.hit hrlt)
    have hge : s.1 + 1 ≤ r := of_decide_eq_true hhit.2
    omega
  have hgap : ∀ k, s.1 + 1 ≤ k → k < r → p k = false := by
    intro k hk hkr
    have hno := hr.before k hkr
    simpa [hk] using hno
  refine ⟨⟨hr.le, fun hrlt => ((Bool.and_eq_true _ _).mp (hr.hit hrlt)).1, ?_⟩, hbefore⟩
  rw [filter_range_of_none hbefore hgap, List.range_succ, List.filter_append, List.foldl_append,
    ← h.done]
  simp [h.hit hlt]

/-- The loop ends, and has done its body for the positions at which `p` holds, in order. -/
theorem forEachBitSet_foldl (body : ℕ → σ → σ) (s₀ : σ) :
    forEachBitSet turns a len body s₀ =
      some (len, ((List.range len).filter p).foldl (fun s k => body k s) s₀) := by
  obtain ⟨first, hfirst, hisFirst⟩ := findFirstBitSet_first htest hturns
  have hnone : ∀ k, 0 ≤ k → k < first → p k = false := fun k _ hk => hisFirst.before k hk
  have hstart : Visiting p len body s₀ (first, s₀) := by
    refine ⟨hisFirst.le, hisFirst.hit, ?_⟩
    rw [filter_range_of_none (Nat.zero_le first) hnone]
    rfl
  have hloop : ∃ r, Loop.run (forEachTurn turns a len body) turns (first, s₀) = some r ∧
      r = (len, ((List.range len).filter p).foldl (fun s k => body k s) s₀) := by
    refine Loop.run_total (I := Visiting p len body s₀) (m := fun s => len - s.1) ?_ turns _ hstart
      (by dsimp only; omega)
    intro s hs
    unfold Loop.Turns forEachTurn
    by_cases hlt : s.1 < len
    · obtain ⟨r, hr, hisNext⟩ := findNextBitSet_first htest hturns (s.1 + 1)
      obtain ⟨hnext, hbefore⟩ := hs.next hlt hisNext
      rw [if_pos hlt, hr]
      exact Or.inl ⟨(r, body s.1 s.2), rfl, hnext, by dsimp only; omega⟩
    · have hend : s.1 = len := Nat.le_antisymm hs.le (Nat.not_lt.mp hlt)
      rw [if_neg hlt]
      refine Or.inr ⟨s, rfl, Prod.ext hend ?_⟩
      rw [hs.done, hend]
  obtain ⟨r, hrun, rfl⟩ := hloop
  rw [forEachBitSet, hfirst]
  exact hrun

end Visits

/-! ### The set bits -/

/-- Is the bit set in these words? -/
def isSet (ws : List (BitVec 32)) (k : ℕ) : Bool :=
  StpInstances.bitmapTestBit (fun i => ws.getD i 0#32) k

section Words

variable {ws : List (BitVec 32)} {k : ℕ}

theorem load_word (h : k < 32 * ws.length) :
    (Block.holding ws).load (k / 32) = some (ws.getD (k / 32) 0#32) := by
  have hword : k / 32 < ws.length := by omega
  rw [Block.load_holding, List.getD_eq_getElem?_getD, List.getElem?_eq_getElem hword]
  rfl

theorem testBit_holding (h : k < 32 * ws.length) :
    testBit (Block.holding ws) k = some (isSet ws k) := by
  rw [testBit, load_word h]
  rfl

theorem store_word (h : k < 32 * ws.length) (w : BitVec 32) :
    (Block.holding ws).store (k / 32) w = some (Block.holding (ws.set (k / 32) w)) := by
  have hword : k / 32 < (Block.holding ws).length := by
    rw [Block.length_holding]
    omega
  rw [Block.store_eq hword, Block.holding, Block.holding, List.map_set]

theorem getD_set (h : k < 32 * ws.length) (w : BitVec 32) :
    (fun i => (ws.set (k / 32) w).getD i 0#32) =
      Function.update (fun i => ws.getD i 0#32) (k / 32) w := by
  have hword : k / 32 < ws.length := by omega
  funext i
  rw [List.getD_eq_getElem?_getD]
  by_cases hi : i = k / 32
  · rw [hi, Function.update_self, List.getElem?_set_self hword]
    rfl
  · rw [Function.update_of_ne hi, List.getElem?_set_ne (Ne.symm hi), ← List.getD_eq_getElem?_getD]

theorem setBit_holding (h : k < 32 * ws.length) : ∃ ws', setBit (Block.holding ws) k =
    some (Block.holding ws') ∧ ws'.length = ws.length ∧ ∀ i, isSet ws' i = (i == k || isSet ws i) := by
  refine ⟨ws.set (k / 32) (ws.getD (k / 32) 0#32 ||| 1#32 <<< (k % 32)), ?_, List.length_set,
    fun i => ?_⟩
  · rw [setBit, load_word h]
    exact store_word h _
  · rw [isSet, getD_set h]
    exact congrFun (StpInstances.bitmapTestBit_set (fun i => ws.getD i 0#32) k) i

theorem clearBit_holding (h : k < 32 * ws.length) : ∃ ws', clearBit (Block.holding ws) k =
    some (Block.holding ws') ∧ ws'.length = ws.length ∧ ∀ i, isSet ws' i = (i != k && isSet ws i) := by
  refine ⟨ws.set (k / 32) (ws.getD (k / 32) 0#32 &&& ~~~(1#32 <<< (k % 32))), ?_, List.length_set,
    fun i => ?_⟩
  · rw [clearBit, load_word h]
    exact store_word h _
  · have hlt : k % 32 < 32 := Nat.mod_lt _ (by decide)
    have hilt : i % 32 < 32 := Nat.mod_lt _ (by decide)
    rw [isSet, isSet, getD_set h, StpInstances.bitmapTestBit_eq, StpInstances.bitmapTestBit_eq]
    by_cases hword : i / 32 = k / 32
    · have hsame : (i != k) = !decide (k % 32 = i % 32) := by
        rw [Bool.eq_iff_iff, bne_iff_ne, Bool.not_eq_true', decide_eq_false_iff_not]
        omega
      rw [hword, Function.update_self, BitVec.getLsbD_and, BitVec.getLsbD_not, ← BitVec.twoPow_eq,
        BitVec.getLsbD_twoPow, hsame, Bool.and_comm]
      simp [hlt, hilt]
    · have hne : (i != k) = true := bne_iff_ne.mpr fun h => hword (h ▸ rfl)
      rw [Function.update_of_ne hword, hne, Bool.true_and]

end Words

/-! ### The bits that were set -/

/-- What is done to a bitmap between one `BITMAP_CLEAR` and the next. -/
inductive Op
  | set (k : ℕ)
  | clear (k : ℕ)

def Op.pos : Op → ℕ
  | .set k => k
  | .clear k => k

def Op.apply (a : Block (BitVec 32)) : Op → Option (Block (BitVec 32))
  | .set k => setBit a k
  | .clear k => clearBit a k

def applyAll (a : Block (BitVec 32)) (ops : List Op) : Option (Block (BitVec 32)) :=
  ops.foldlM Op.apply a

/-- The bit is set by one of the operations, and cleared by none after it. -/
def SetBy (ops : List Op) (k : ℕ) : Prop :=
  ∃ pre post, ops = pre ++ .set k :: post ∧ Op.clear k ∉ post

theorem setBy_cons (op : Op) (ops : List Op) (k : ℕ) :
    SetBy (op :: ops) k ↔ (op = .set k ∧ Op.clear k ∉ ops) ∨ SetBy ops k := by
  constructor
  · rintro ⟨pre, post, hops, hpost⟩
    cases pre with
    | nil =>
      obtain ⟨rfl, rfl⟩ := List.cons.inj hops
      exact Or.inl ⟨rfl, hpost⟩
    | cons x pre =>
      obtain ⟨rfl, rfl⟩ := List.cons.inj hops
      exact Or.inr ⟨pre, post, rfl, hpost⟩
  · rintro (⟨rfl, hpost⟩ | ⟨pre, post, rfl, hpost⟩)
    · exact ⟨[], ops, rfl, hpost⟩
    · exact ⟨op :: pre, post, rfl, hpost⟩

theorem Op.apply_holding (op : Op) {ws : List (BitVec 32)} (h : op.pos < 32 * ws.length) :
    ∃ ws', op.apply (Block.holding ws) = some (Block.holding ws') ∧ ws'.length = ws.length ∧
      ∀ k, isSet ws' k = true ↔ op = .set k ∨ (isSet ws k = true ∧ op ≠ .clear k) := by
  cases op with
  | set j =>
    obtain ⟨ws', happly, hlen, hset⟩ := setBit_holding (k := j) h
    refine ⟨ws', happly, hlen, fun k => ?_⟩
    rw [hset, Bool.or_eq_true, beq_iff_eq, Op.set.injEq, eq_comm (a := k)]
    simp
  | clear j =>
    obtain ⟨ws', happly, hlen, hset⟩ := clearBit_holding (k := j) h
    refine ⟨ws', happly, hlen, fun k => ?_⟩
    rw [hset, Bool.and_eq_true, bne_iff_ne, ne_eq, ne_eq, Op.clear.injEq, eq_comm (a := k), and_comm]
    simp

/-- The bits that are set after the operations were set by them, or before and not cleared since. -/
theorem applyAll_holding : ∀ (ops : List Op) (ws : List (BitVec 32)),
    (∀ op ∈ ops, op.pos < 32 * ws.length) →
    ∃ ws', applyAll (Block.holding ws) ops = some (Block.holding ws') ∧ ws'.length = ws.length ∧
      ∀ k, isSet ws' k = true ↔ SetBy ops k ∨ (isSet ws k = true ∧ Op.clear k ∉ ops)
  | [], ws, _ => by
      refine ⟨ws, rfl, rfl, fun k => ?_⟩
      have hno : ¬ SetBy [] k := by
        rintro ⟨pre, post, hops, -⟩
        simp at hops
      simp [hno]
  | op :: ops, ws, hpos => by
      rw [List.forall_mem_cons] at hpos
      obtain ⟨mid, hmid, hlen, hset⟩ := op.apply_holding hpos.1
      obtain ⟨ws', hws, hlen', hset'⟩ := applyAll_holding ops mid
        (by rw [hlen]; exact hpos.2)
      refine ⟨ws', ?_, hlen'.trans hlen, fun k => ?_⟩
      · rw [applyAll, List.foldlM_cons, hmid]
        exact hws
      · rw [hset', hset, setBy_cons, List.mem_cons, not_or, ne_comm (a := op)]
        tauto

theorem isSet_zero (n k : ℕ) : isSet (List.replicate n 0#32) k = false := by
  have hzero : (fun i => (List.replicate n 0#32).getD i 0#32) = StpInstances.bitmapClear := by
    funext i
    rw [List.getD_eq_getElem?_getD, List.getElem?_replicate, StpInstances.bitmapClear]
    split <;> rfl
  rw [isSet, hzero, StpInstances.bitmapTestBit_clear]
  rfl

/-- All the words are cleared, whatever was in them. -/
theorem clear_holding {a : Block (BitVec 32)} {n : ℕ} (h : a.length = bitsToUint32 n) :
    clear a n = some (Block.holding (List.replicate (bitsToUint32 n) 0#32)) := by
  rw [clear, if_pos (Nat.le_of_eq h.symm), List.drop_of_length_le (Nat.le_of_eq h), List.append_nil]

/-! ### The loop over a bitmap -/

/-- However many turns the loops have beyond `len`, the body is done for the positions below `len` that
    `P` holds at, for each once, and in increasing order. -/
def Visits (a : Block (BitVec 32)) (len : ℕ) (P : ℕ → Prop) : Prop :=
  ∀ (σ : Type) (body : ℕ → σ → σ) (s : σ) (turns : ℕ), len < turns → ∃ visits : List ℕ,
    forEachBitSet turns a len body s = some (len, visits.foldl (fun s k => body k s) s) ∧
    visits.Pairwise (· < ·) ∧ ∀ k, k ∈ visits ↔ k < len ∧ P k

theorem visits_holding {ws : List (BitVec 32)} {len : ℕ} (h : len ≤ 32 * ws.length) :
    Visits (Block.holding ws) len fun k => isSet ws k = true := by
  intro σ body s turns hturns
  have htest : ∀ k < len, testBit (Block.holding ws) k = some (isSet ws k) :=
    fun k hk => testBit_holding (Nat.lt_of_lt_of_le hk h)
  refine ⟨_, forEachBitSet_foldl htest hturns body s, List.pairwise_lt_range.filter _, fun k => ?_⟩
  rw [List.mem_filter, List.mem_range]

theorem Visits.congr {a : Block (BitVec 32)} {len : ℕ} {P Q : ℕ → Prop} (h : Visits a len P)
    (hpq : ∀ k, P k ↔ Q k) : Visits a len Q := by
  have hfun : P = Q := funext fun k => propext (hpq k)
  rwa [← hfun]

/-- The loop over a bitmap of any words visits the set bits, and after a `BITMAP_CLEAR` these are the ones
    that were set and not cleared since. -/
theorem forEachBitSet_visits : (∀ (ws : List (BitVec 32)) (len : ℕ), len ≤ 32 * ws.length →
      Visits (Block.holding ws) len fun k => isSet ws k = true) ∧
    ∀ (a : Block (BitVec 32)) (n len : ℕ) (ops : List Op), a.length = bitsToUint32 n →
      len ≤ 32 * a.length → (∀ op ∈ ops, op.pos < 32 * a.length) →
      ∃ b, (do applyAll (← clear a n) ops) = some b ∧ Visits b len (SetBy ops) := by
  refine ⟨fun ws len h => visits_holding h, fun a n len ops ha hlen hops => ?_⟩
  have hwords : (List.replicate (bitsToUint32 n) 0#32).length = a.length := by
    rw [List.length_replicate, ha]
  obtain ⟨ws, hws, hlength, hset⟩ := applyAll_holding ops
    (List.replicate (bitsToUint32 n) 0#32) (by rwa [hwords])
  refine ⟨Block.holding ws, ?_, ?_⟩
  · rw [clear_holding ha]
    exact hws
  · refine (visits_holding (by rwa [hlength, hwords])).congr fun k => ?_
    rw [hset, isSet_zero]
    simp

theorem forEachBitSet_visits_two_words :
    Visits (Block.holding [0x80000001#32]) 32 (fun k => isSet [0x80000001#32] k = true) ∧
    ∃ b, (do applyAll (← clear (Block.uninit 2) 40) [.set 31, .set 39, .clear 31]) = some b ∧
      Visits b 40 (SetBy [.set 31, .set 39, .clear 31]) :=
  ⟨forEachBitSet_visits.1 [0x80000001#32] 32 (by decide),
    forEachBitSet_visits.2 (Block.uninit 2) 40 40 _ (by decide) (by decide) (by decide)⟩

end Ucentral.BitmapLoop
