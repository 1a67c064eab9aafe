import Ucentral.Lib.Fifo
import Ucentral.Lib.Run
import Mathlib.Data.List.TakeWhile
import Mathlib.Logic.Function.Basic

/-! The log of the platform: a ring of messages that the reply to a configure request carries.

    The ring has no count. An empty slot at the read index means that nothing is queued, and the write
    index moves on before a message is stored. So while anything is queued the write index has to be
    at the newest message, and just behind the read index when nothing is. At the start it is not: it
    is at the read index, and the first message goes to a slot that no pop looks at. -/

namespace Ucentral.Plat
open Run

def platLogRingbufSize : ℕ := 64

/-- `plat_log_ringbuf` and its two indices. -/
structure LogRing where
  ringbuf : ℕ → Option String := fun _ => none
  rp : ℕ := 0
  wp : ℕ := 0

/-- `plat_log_pop`. -/
def platLogPop (r : LogRing) : Option String × LogRing :=
  match r.ringbuf r.rp with
  | none => (none, r)
  | some msg =>
    (some msg, { r with
      ringbuf := Function.update r.ringbuf r.rp none
      rp := (r.rp + 1) % platLogRingbufSize })

/-- `for (msg = plat_log_pop(); msg; msg = plat_log_pop())`, for at most `n` messages: what is popped
    and the ring after it. -/
def popAll : ℕ → LogRing → List String × LogRing
  | 0, r => ([], r)
  | n + 1, r =>
    match platLogPop r with
    | (none, r) => ([], r)
    | (some msg, r) => (msg :: (popAll n r).1, (popAll n r).2)

/-- `plat_log_flush`, with the messages it frees. -/
def platLogFlush (r : LogRing) : List String × LogRing := popAll platLogRingbufSize r

/-- The text of messages, each with a line of its own. -/
def concatenate (msgs : List String) : String := msgs.foldl (fun res msg => res ++ msg ++ "\n") ""

/-- `plat_log_pop_concatenate`. -/
def platLogPopConcatenate (r : LogRing) : String × LogRing :=
  (concatenate (popAll platLogRingbufSize r).1, (popAll platLogRingbufSize r).2)

/-- `__plat_log_push`. -/
def platLogPush (r : LogRing) (msg : String) : LogRing :=
  let r := { r with wp := (r.wp + 1) % platLogRingbufSize }
  let r := if r.wp = r.rp then (platLogPop r).2 else r
  { r with ringbuf := Function.update r.ringbuf r.wp (some msg) }

/-! ### The log as a machine -/

inductive LogOp
  | push (msg : String)
  | pop
  | flush
  | popConcatenate
  deriving DecidableEq

/-- What an operation returns, or frees. -/
inductive LogOut
  | pushed
  | popped (msg : Option String)
  | flushed (msgs : List String)
  | text (res : String)
  deriving DecidableEq

def logStep (r : LogRing) : LogOp → LogOut × LogRing
  | .push msg => (.pushed, platLogPush r msg)
  | .pop => (.popped (platLogPop r).1, (platLogPop r).2)
  | .flush => (.flushed (platLogFlush r).1, (platLogFlush r).2)
  | .popConcatenate => (.text (platLogPopConcatenate r).1, (platLogPopConcatenate r).2)

/-- What the log is for: a queue of bounded capacity, here as the list of its messages. -/
def fifoStep (cap : ℕ) (q : List String) : LogOp → LogOut × List String
  | .push msg => (.pushed, Fifo.push cap q msg)
  | .pop => (.popped q.head?, q.tail)
  | .flush => (.flushed q, [])
  | .popConcatenate => (.text (concatenate q), [])

/-! ### The loop ends -/

theorem platLogPop_none {r : LogRing} {j : ℕ} (h : r.ringbuf j = none) :
    (platLogPop r).2.ringbuf j = none := by
  unfold platLogPop
  rcases hm : r.ringbuf r.rp with _ | msg
  · exact h
  · by_cases hj : j = r.rp
    · exact hj ▸ Function.update_self ..
    · exact (Function.update_of_ne hj ..).trans h

theorem popAll_none {j : ℕ} : ∀ (n : ℕ) {r : LogRing}, r.ringbuf j = none →
    (popAll n r).2.ringbuf j = none
  | 0, _, h => h
  | n + 1, r, h => by
      have hpop := platLogPop_none h
      rcases hres : platLogPop r with ⟨_ | msg, r'⟩
      · rw [hres] at hpop
        simpa only [popAll, hres] using hpop
      · rw [hres] at hpop
        simpa only [popAll, hres] using popAll_none n hpop

/-- Either a pop has found nothing, or each of the `n` pops has emptied a slot. -/
theorem popAll_cleared : ∀ (n : ℕ) {r : LogRing}, r.rp < 64 →
    (popAll n r).2.ringbuf (popAll n r).2.rp = none ∨
      (popAll n r).2.rp = (r.rp + n) % 64 ∧
        ∀ i < n, (popAll n r).2.ringbuf ((r.rp + i) % 64) = none
  | 0, r, hrp => Or.inr ⟨by simp only [popAll]; omega, by simp⟩
  | n + 1, r, hrp => by
      rcases hm : r.ringbuf r.rp with _ | msg
      · exact Or.inl (by simp only [popAll, platLogPop, hm])
      · set r' : LogRing := ⟨Function.update r.ringbuf r.rp none, (r.rp + 1) % 64, r.wp⟩ with hr'
        have hall : (popAll (n + 1) r).2 = (popAll n r').2 := by
          simp only [popAll, platLogPop, hm]
          rfl
        have hrp' : r'.rp = (r.rp + 1) % 64 := rfl
        have hgone : (popAll n r').2.ringbuf r.rp = none :=
          popAll_none n (Function.update_self ..)
        rw [hall]
        rcases popAll_cleared n (r := r') (Nat.mod_lt _ (by decide)) with hdone | ⟨hend, hslots⟩
        · exact Or.inl hdone
        · refine Or.inr ⟨by omega, fun i hi => ?_⟩
          rcases i with _ | i
          · rwa [Nat.add_zero, Nat.mod_eq_of_lt hrp]
          · have hidx : (r.rp + (i + 1)) % 64 = (r'.rp + i) % 64 := by omega
            rw [hidx]
            exact hslots i (by omega)

/-! ### A ring in order -/

/-- The slots from the read index on hold the messages of the queue, in order, and nothing else; the
    write index is at the last of them. -/
structure InOrder (r : LogRing) (q : List String) : Prop where
  fits : q.length ≤ 64
  rp_lt : r.rp < 64
  wp_eq : r.wp = (r.rp + q.length + 63) % 64
  slot : ∀ i < 64, r.ringbuf ((r.rp + i) % 64) = q[i]?

theorem InOrder.head {r : LogRing} {q : List String} (h : InOrder r q) :
    r.ringbuf r.rp = q.head? := by
  have hslot := h.slot 0 (by decide)
  rwa [Nat.add_zero, Nat.mod_eq_of_lt h.rp_lt, ← List.head?_eq_getElem?] at hslot

theorem InOrder.pop {r : LogRing} {q : List String} (h : InOrder r q) :
    (platLogPop r).1 = q.head? ∧ InOrder (platLogPop r).2 q.tail := by
  obtain ⟨hfits, hrp, hwp, hslot⟩ := h
  unfold platLogPop
  rw [InOrder.head ⟨hfits, hrp, hwp, hslot⟩]
  cases q with
  | nil => exact ⟨rfl, hfits, hrp, hwp, hslot⟩
  | cons msg q =>
    rw [List.length_cons] at hfits hwp
    refine ⟨rfl, ?_, ?_, ?_, ?_⟩
    · change q.length ≤ 64
      omega
    · exact Nat.mod_lt _ (by decide)
    · change r.wp = ((r.rp + 1) % 64 + q.length + 63) % 64
      omega
    · intro i hi
      change Function.update r.ringbuf r.rp none (((r.rp + 1) % 64 + i) % 64) = q[i]?
      by_cases hlast : i = 63
      · -- the slot that has become the last one is the one just emptied
        have hidx : ((r.rp + 1) % 64 + i) % 64 = r.rp := by omega
        rw [hidx, Function.update_self, List.getElem?_eq_none (by omega)]
      · have hidx : ((r.rp + 1) % 64 + i) % 64 = (r.rp + (i + 1)) % 64 := by omega
        have hne : (r.rp + (i + 1)) % 64 ≠ r.rp := by omega
        rw [hidx, Function.update_of_ne hne, hslot (i + 1) (by omega), List.getElem?_cons_succ]

theorem InOrder.popAll {r : LogRing} : ∀ {q : List String} {n : ℕ}, InOrder r q → q.length ≤ n →
    (popAll n r).1 = q ∧ InOrder (popAll n r).2 [] := by
  intro q n
  induction n generalizing r q with
  | zero =>
    intro h hn
    obtain rfl : q = [] := List.length_eq_zero_iff.mp (by omega)
    exact ⟨rfl, h⟩
  | succ n ih =>
    intro h hn
    obtain ⟨hout, hnext⟩ := h.pop
    rcases hpop : platLogPop r with ⟨_ | msg, r'⟩
    · rw [hpop] at hout hnext
      cases q with
      | nil =>
        simp only [Plat.popAll, hpop]
        exact ⟨trivial, hnext⟩
      | cons _ _ => cases hout
    · rw [hpop] at hout hnext
      cases q with
      | nil => cases hout
      | cons m q =>
        cases hout
        obtain ⟨hrest, hlast⟩ := ih hnext (by simpa using hn)
        simp only [Plat.popAll, hpop]
        exact ⟨congrArg _ hrest, hlast⟩

/-- Storing behind the last message of a queue that is not full. -/
theorem InOrder.store {r : LogRing} {q : List String} (h : InOrder r q) (hlt : q.length < 64)
    (msg : String) :
    InOrder ⟨Function.update r.ringbuf ((r.rp + q.length) % 64) (some msg), r.rp,
      (r.rp + q.length) % 64⟩ (q ++ [msg]) := by
  obtain ⟨hfits, hrp, hwp, hslot⟩ := h
  refine ⟨?_, hrp, ?_, ?_⟩
  · rw [List.length_append, List.length_singleton]
    omega
  · change (r.rp + q.length) % 64 = (r.rp + (q ++ [msg]).length + 63) % 64
    rw [List.length_append, List.length_singleton]
    omega
  · intro i hi
    change Function.update r.ringbuf ((r.rp + q.length) % 64) (some msg) ((r.rp + i) % 64) = _
    by_cases hnew : i = q.length
    · rw [hnew, Function.update_self, List.getElem?_concat_length]
    · have hne : (r.rp + i) % 64 ≠ (r.rp + q.length) % 64 := by omega
      rw [Function.update_of_ne hne, hslot i hi]
      by_cases hold : i < q.length
      · rw [List.getElem?_append_left hold]
      · rw [List.getElem?_eq_none (by omega), List.getElem?_eq_none]
        rw [List.length_append, List.length_singleton]
        omega

theorem InOrder.push {r : LogRing} {q : List String} (h : InOrder r q) (msg : String) :
    InOrder (platLogPush r msg) (Fifo.push 64 q msg) := by
  have hwp := h.wp_eq
  have hrp := h.rp_lt
  have hnext : (r.wp + 1) % platLogRingbufSize = (r.rp + q.length) % 64 := by
    change (r.wp + 1) % 64 = _
    omega
  by_cases hlt : q.length < 64
  · have hstay : platLogPush r msg = ⟨Function.update r.ringbuf ((r.rp + q.length) % 64) (some msg),
        r.rp, (r.rp + q.length) % 64⟩ := by
      unfold platLogPush
      simp only [hnext]
      split
      · -- the write index comes to the read index only if nothing is queued
        next hmeet =>
        have hnil : q = [] := List.length_eq_zero_iff.mp (by omega)
        have hempty : r.ringbuf r.rp = none := by rw [h.head, hnil]; rfl
        simp only [platLogPop, hempty]
      · rfl
    rw [hstay, Fifo.push_of_lt hlt]
    exact h.store hlt msg
  · have hfull : q.length = 64 := Nat.le_antisymm h.fits (by omega)
    cases q with
    | nil => exact absurd hfull (by decide)
    | cons old q =>
      have hmeet : (r.rp + (old :: q).length) % 64 = r.rp := by omega
      have hdrop := h.pop.2
      have hhead : r.ringbuf r.rp = some old := h.head
      rw [Fifo.push_of_full hfull]
      simp only [platLogPop, hhead] at hdrop
      have hpush : platLogPush r msg =
          ⟨Function.update (Function.update r.ringbuf r.rp none) r.rp (some msg),
            (r.rp + 1) % 64, r.rp⟩ := by
        unfold platLogPush
        simp only [hnext, hmeet, if_true, platLogPop, hhead]
        rfl
      rw [List.length_cons] at hfull
      have hq : q.length < 64 := by omega
      have hstore := hdrop.store hq msg
      have hidx : ((r.rp + 1) % 64 + q.length) % 64 = r.rp := by omega
      rw [hpush]
      change InOrder ⟨_, _, ((r.rp + 1) % 64 + q.length) % 64⟩ _ at hstore
      change InOrder ⟨Function.update _ (((r.rp + 1) % 64 + q.length) % 64) _, _, _⟩ _ at hstore
      rwa [hidx] at hstore

theorem InOrder.pushes : ∀ (msgs : List String) {r : LogRing} {q : List String}, InOrder r q →
    InOrder (after logStep r (msgs.map .push)) (msgs.foldl (Fifo.push 64) q)
  | [], _, _, h => h
  | msg :: msgs, _, _, h => InOrder.pushes msgs (h.push msg)

/-- A ring in order answers as the queue does, and stays in order. -/
theorem InOrder.logStep {r : LogRing} {q : List String} (h : InOrder r q) (op : LogOp) :
    (logStep r op).1 = (fifoStep 64 q op).1 ∧ InOrder (logStep r op).2 (fifoStep 64 q op).2 := by
  cases op with
  | push msg => exact ⟨rfl, h.push msg⟩
  | pop => exact ⟨congrArg _ h.pop.1, h.pop.2⟩
  | flush =>
    obtain ⟨hout, hempty⟩ := h.popAll h.fits
    exact ⟨congrArg _ hout, hempty⟩
  | popConcatenate =>
    obtain ⟨hout, hempty⟩ := h.popAll h.fits
    exact ⟨congrArg (fun l => LogOut.text (concatenate l)) hout, hempty⟩

/-- What the reply to a configure request carries: the log is flushed when the request arrives, and
    of the messages since then the last 64 are there. -/
theorem InOrder.text_since_flush {r : LogRing} {q : List String} (h : InOrder r q)
    (msgs : List String) :
    (Plat.logStep (after Plat.logStep r (.flush :: msgs.map .push)) .popConcatenate).1 =
      .text (concatenate (msgs.drop (msgs.length - 64))) := by
  have hflushed : InOrder (Plat.logStep r .flush).2 [] := (h.logStep .flush).2
  have hpushed := InOrder.pushes msgs hflushed
  rw [Fifo.foldl_push] at hpushed
  exact (hpushed.logStep .popConcatenate).1

/-! ### A ring that has just started -/

/-- Where the messages of a first block of pushes are: the first goes to slot 1, the 64th to slot 0,
    and what follows overwrites the slots from 1 on. -/
def fillSlot (msgs : List String) (i : ℕ) : Option String :=
  if i = 0 then msgs[63]? else if 64 + i ≤ msgs.length then msgs[63 + i]? else msgs[i - 1]?

/-- The ring after the messages of a first block of pushes. -/
structure Filling (r : LogRing) (msgs : List String) : Prop where
  rp_eq : r.rp = 0
  wp_eq : r.wp = msgs.length % 64
  slot : ∀ i < 64, r.ringbuf i = fillSlot msgs i

theorem filling_start : Filling {} [] := by
  refine ⟨rfl, rfl, fun i _ => ?_⟩
  unfold fillSlot
  split
  · rfl
  · split <;> rfl

theorem fillSlot_concat {msgs : List String} {msg : String} {i : ℕ} (hi : i < 64)
    (hlen : msgs.length < 127) : fillSlot (msgs ++ [msg]) i =
      if i = (msgs.length + 1) % 64 then some msg else fillSlot msgs i := by
  have hold : ∀ j, j ≠ msgs.length → (msgs ++ [msg])[j]? = msgs[j]? := by
    intro j hj
    by_cases hlt : j < msgs.length
    · exact List.getElem?_append_left hlt
    · have hbeyond : (msgs ++ [msg]).length ≤ j := by
        rw [List.length_append, List.length_singleton]
        omega
      rw [List.getElem?_eq_none hbeyond, List.getElem?_eq_none (by omega)]
  have hnew : ∀ j, j = msgs.length → (msgs ++ [msg])[j]? = some msg := by
    rintro j rfl
    exact List.getElem?_concat_length
  unfold fillSlot
  rw [List.length_append, List.length_singleton]
  by_cases hz : i = 0
  · rw [if_pos hz, if_pos hz]
    split
    · exact hnew 63 (by omega)
    · exact hold 63 (by omega)
  · rw [if_neg hz, if_neg hz]
    by_cases hat : i = (msgs.length + 1) % 64
    · rw [if_pos hat]
      split
      · exact hnew _ (by omega)
      · exact hnew _ (by omega)
    · rw [if_neg hat]
      by_cases hover : 64 + i ≤ msgs.length
      · rw [if_pos (by omega), if_pos hover]
        exact hold _ (by omega)
      · rw [if_neg (by omega), if_neg hover]
        exact hold _ (by omega)

theorem Filling.push {r : LogRing} {msgs : List String} (h : Filling r msgs)
    (hlen : msgs.length < 127) (msg : String) : Filling (platLogPush r msg) (msgs ++ [msg]) := by
  have hnext : (r.wp + 1) % platLogRingbufSize = (msgs.length + 1) % 64 := by
    have hwp := h.wp_eq
    change (r.wp + 1) % 64 = _
    omega
  have hpush : platLogPush r msg =
      ⟨Function.update r.ringbuf ((msgs.length + 1) % 64) (some msg), 0,
        (msgs.length + 1) % 64⟩ := by
    unfold platLogPush
    simp only [hnext, h.rp_eq]
    split
    · -- the 64th message: slot 0 is still empty, and nothing is dropped
      next hmeet =>
      have hempty : r.ringbuf 0 = none := by
        rw [h.slot 0 (by decide)]
        exact List.getElem?_eq_none (by omega)
      simp only [platLogPop, hempty]
    · rfl
  rw [hpush]
  refine ⟨rfl, ?_, fun i hi => ?_⟩
  · rw [List.length_append, List.length_singleton]
  · rw [fillSlot_concat hi hlen]
    change Function.update r.ringbuf _ _ i = _
    split
    · next hat => rw [hat, Function.update_self]
    · next hat => rw [Function.update_of_ne hat, h.slot i hi]

/-- With 127 messages the ring has come into order. -/
theorem Filling.inOrder {r : LogRing} {msgs : List String} (h : Filling r msgs)
    (hlen : msgs.length = 127) : InOrder r (msgs.drop 63) := by
  refine ⟨?_, ?_, ?_, fun i hi => ?_⟩
  · rw [List.length_drop]
    omega
  · rw [h.rp_eq]
    decide
  · rw [h.wp_eq, h.rp_eq, List.length_drop, hlen]
  · rw [h.rp_eq, Nat.zero_add, Nat.mod_eq_of_lt hi, h.slot i hi, List.getElem?_drop]
    unfold fillSlot
    split
    · next hz => rw [hz]
    · rw [if_pos (by omega)]

theorem filling_pushes : ∀ (msgs : List String) {r : LogRing} {old : List String},
    Filling r old → old.length + msgs.length ≤ 127 →
    Filling (after logStep r (msgs.map .push)) (old ++ msgs)
  | [], r, old, h, _ => by rwa [List.append_nil]
  | msg :: msgs, r, old, h, hlen => by
      rw [List.length_cons] at hlen
      have hnext := h.push (by omega) msg
      have hrest := filling_pushes msgs hnext
        (by rw [List.length_append, List.length_singleton]; omega)
      rwa [List.append_assoc] at hrest

theorem fifo_pushes (cap : ℕ) : ∀ (msgs : List String) (q : List String),
    after (fifoStep cap) q (msgs.map .push) = msgs.foldl (Fifo.push cap) q
  | [], _ => rfl
  | msg :: msgs, q => fifo_pushes cap msgs (Fifo.push cap q msg)

/-- Pushes are not answered. -/
theorem outputs_pushes {σ : Type} {step : σ → LogOp → LogOut × σ}
    (hstep : ∀ s msg, (step s (.push msg)).1 = .pushed) :
    ∀ (msgs : List String) (s : σ),
      outputs step s (msgs.map .push) = List.replicate msgs.length .pushed
  | [], _ => rfl
  | msg :: msgs, s => by
      rw [List.map_cons, outputs, hstep, outputs_pushes hstep msgs]
      rfl

/-- As long as nothing is pushed, the ring and the queue are both empty. -/
theorem fresh_step {op : LogOp} (h : ∀ msg, op ≠ .push msg) :
    logStep {} op = ((fifoStep 64 [] op).1, {}) ∧ (fifoStep 64 [] op).2 = [] := by
  cases op with
  | push msg => exact absurd rfl (h msg)
  | pop => exact ⟨rfl, rfl⟩
  | flush => exact ⟨rfl, rfl⟩
  | popConcatenate => exact ⟨rfl, rfl⟩

/-! ### When the log is a queue -/

def LogOp.isPush : LogOp → Bool
  | .push _ => true
  | _ => false

/-- The first block of pushes: nothing is taken out after it, or it has at least 127 messages. -/
def Primed (ops : List LogOp) : Prop :=
  let body := ops.dropWhile (!LogOp.isPush ·)
  body.dropWhile LogOp.isPush = [] ∨ 127 ≤ (body.takeWhile LogOp.isPush).length

/-- An operation without the text of its message. -/
def LogOp.blank : LogOp → LogOp
  | .push _ => .push ""
  | op => op

theorem primed_blank (ops : List LogOp) : Primed (ops.map LogOp.blank) ↔ Primed ops := by
  have hpush : LogOp.isPush ∘ LogOp.blank = LogOp.isPush := by
    funext op
    cases op <;> rfl
  have hother : (!LogOp.isPush ·) ∘ LogOp.blank = (!LogOp.isPush ·) := by
    funext op
    cases op <;> rfl
  simp only [Primed, List.dropWhile_map, List.takeWhile_map, List.length_map, List.map_eq_nil_iff,
    hpush, hother]

theorem isPush_eq_false {op : LogOp} : op.isPush = false ↔ ∀ msg, op ≠ .push msg := by
  cases op <;> simp [LogOp.isPush]

theorem exists_msgs : ∀ {ops : List LogOp}, (∀ op ∈ ops, op.isPush = true) →
    ∃ msgs : List String, ops = msgs.map .push
  | [], _ => ⟨[], rfl⟩
  | op :: ops, h => by
      obtain ⟨msgs, rfl⟩ := exists_msgs (fun o ho => h o (List.mem_cons_of_mem _ ho))
      cases op with
      | push msg => exact ⟨msg :: msgs, rfl⟩
      | _ => exact absurd (h _ List.mem_cons_self) (by simp [LogOp.isPush])

/-- A run up to its first push, the first block of pushes, and the rest. -/
theorem run_parts (ops : List LogOp) : ∃ (pre : List LogOp) (msgs : List String) (rest : List LogOp),
    ops = pre ++ (msgs.map .push ++ rest) ∧ (∀ op ∈ pre, op.isPush = false) ∧
    (∀ op, rest.head? = some op → op.isPush = false ∧ 0 < msgs.length) ∧
    (Primed ops ↔ rest = [] ∨ 127 ≤ msgs.length) := by
  rcases hbody : ops.dropWhile (!LogOp.isPush ·) with _ | ⟨first, body⟩
  · -- no push at all
    refine ⟨ops, [], [], by simp, fun op hop => ?_, by simp, ?_⟩
    · simpa using List.dropWhile_eq_nil_iff.mp hbody op hop
    · simp only [Primed, hbody, List.dropWhile_nil, true_or]
  · have hfirst : first.isPush = true := by
      have hhead := List.head?_dropWhile_not (!LogOp.isPush ·) ops
      rw [hbody] at hhead
      simpa using hhead
    have hall : ∀ op ∈ (first :: body).takeWhile LogOp.isPush, op.isPush = true :=
      fun op hop => List.mem_takeWhile_imp hop
    obtain ⟨msgs, hmsgs⟩ := exists_msgs hall
    have hlen : ((first :: body).takeWhile LogOp.isPush).length = msgs.length := by
      rw [hmsgs, List.length_map]
    refine ⟨ops.takeWhile (!LogOp.isPush ·), msgs, (first :: body).dropWhile LogOp.isPush,
      ?_, fun op hop => ?_, fun op hop => ⟨?_, ?_⟩, ?_⟩
    · rw [← hmsgs, List.takeWhile_append_dropWhile, ← hbody, List.takeWhile_append_dropWhile]
    · simpa using List.mem_takeWhile_imp hop
    · have hhead := List.head?_dropWhile_not LogOp.isPush (first :: body)
      rwa [hop] at hhead
    · rw [← hlen, List.takeWhile_cons_of_pos hfirst, List.length_cons]
      omega
    · simp only [Primed, hbody, hlen]

theorem fresh_run : ∀ {pre : List LogOp}, (∀ op ∈ pre, op.isPush = false) →
    outputs logStep {} pre = outputs (fifoStep 64) [] pre ∧ after logStep {} pre = {} ∧
      after (fifoStep 64) [] pre = []
  | [], _ => ⟨rfl, rfl, rfl⟩
  | op :: pre, h => by
      obtain ⟨hring, hqueue⟩ := fresh_step (isPush_eq_false.mp (h op List.mem_cons_self))
      obtain ⟨hout, hr, hq⟩ := fresh_run (fun o ho => h o (List.mem_cons_of_mem _ ho))
      simp only [outputs, after, List.foldl_cons, hring, hqueue]
      exact ⟨congrArg _ hout, hr, hq⟩

/-- A first block of at least 127 pushes puts the ring in order. -/
theorem inOrder_pushes {msgs : List String} (h : 127 ≤ msgs.length) :
    InOrder (after logStep {} (msgs.map .push)) (after (fifoStep 64) [] (msgs.map .push)) := by
  have hsplit : msgs = msgs.take 127 ++ msgs.drop 127 := (List.take_append_drop 127 msgs).symm
  have hlen : (msgs.take 127).length = 127 := by rw [List.length_take]; omega
  have hfill : Filling (after logStep {} ((msgs.take 127).map .push)) (msgs.take 127) :=
    filling_pushes _ filling_start (by rw [hlen]; decide)
  have hstart : InOrder (after logStep {} ((msgs.take 127).map .push))
      (after (fifoStep 64) [] ((msgs.take 127).map .push)) := by
    rw [fifo_pushes, Fifo.foldl_push, hlen]
    exact hfill.inOrder hlen
  rw [hsplit, List.map_append, after_append, after_append, fifo_pushes]
  exact hstart.pushes _

/-- A primed run is one of a queue. -/
theorem outputs_eq_of_primed {ops : List LogOp} (h : Primed ops) :
    outputs logStep {} ops = outputs (fifoStep 64) [] ops := by
  obtain ⟨pre, msgs, rest, rfl, hpre, -, hprimed⟩ := run_parts ops
  obtain ⟨hout, hr, hq⟩ := fresh_run hpre
  rw [outputs_append logStep pre, outputs_append (fifoStep 64) pre, hout, hr, hq,
    outputs_append, outputs_append, outputs_pushes (fun _ _ => rfl),
    outputs_pushes (fun _ _ => rfl)]
  congr 2
  rcases hprimed.mp h with rfl | hlen
  · rfl
  · exact outputs_eq_of_simulation (R := InOrder) (fun r q op hrq => hrq.logStep op) rest _ _
      (inOrder_pushes hlen)

/-! ### Runs that are not primed -/

theorem head?_popAll (n : ℕ) (r : LogRing) : (popAll (n + 1) r).1.head? = r.ringbuf r.rp := by
  simp only [popAll, platLogPop]
  rcases r.ringbuf r.rp with _ | msg <;> rfl

theorem concatenate_cons (msg : String) (msgs : List String) :
    concatenate (msg :: msgs) = msg ++ "\n" ++ concatenate msgs := by
  have hacc : ∀ (l : List String) (res : String),
      l.foldl (fun res msg => res ++ msg ++ "\n") res = res ++ concatenate l := by
    intro l
    induction l with
    | nil => intro res; simp [concatenate]
    | cons m l ih =>
      intro res
      unfold concatenate
      rw [List.foldl_cons, List.foldl_cons, ih, ih]
      simp [String.append_assoc]
  rw [concatenate, List.foldl_cons, hacc]
  simp

/-- The first character of the concatenated messages tells the first message. -/
theorem head?_concatenate (msgs : List String) : (concatenate msgs).toList.head? =
    msgs.head?.bind fun msg => (msg ++ "\n").toList.head? := by
  cases msgs with
  | nil => rfl
  | cons msg msgs =>
    rw [concatenate_cons, List.head?_cons, Option.bind_some, String.toList_append,
      List.head?_append]
    have hne : (msg ++ "\n").toList ≠ [] := by simp
    obtain ⟨c, cs, hcs⟩ := List.exists_cons_of_ne_nil hne
    rw [hcs]
    rfl

/-- If the ring and the queue give the same answer to anything but a push, they agree about the
    first message, as far as its first character goes. -/
theorem front_of_answer {r : LogRing} {q : List String} {op : LogOp} (hop : op.isPush = false)
    (h : (logStep r op).1 = (fifoStep 64 q op).1) :
    (r.ringbuf r.rp).bind (fun msg => (msg ++ "\n").toList.head?) =
      q.head?.bind fun msg => (msg ++ "\n").toList.head? := by
  cases op with
  | push msg => cases hop
  | pop =>
    have hpop : (platLogPop r).1 = q.head? := LogOut.popped.inj h
    have hfront : (platLogPop r).1 = r.ringbuf r.rp := by
      unfold platLogPop
      rcases r.ringbuf r.rp with _ | msg <;> rfl
    rw [← hfront, hpop]
  | flush =>
    have hlist : (popAll 64 r).1 = q := LogOut.flushed.inj h
    rw [← hlist, head?_popAll]
  | popConcatenate =>
    have htext : concatenate (popAll 64 r).1 = concatenate q := LogOut.text.inj h
    rw [← head?_concatenate q, ← htext, head?_concatenate, head?_popAll]

/-- Messages of which the 64th differs from the others. -/
def markedMsgs (n : ℕ) : List String := (List.range n).map fun i => if i = 63 then "b" else "a"

theorem getElem?_markedMsgs {n i : ℕ} (h : i < n) :
    (markedMsgs n)[i]? = some (if i = 63 then "b" else "a") := by
  simp [markedMsgs, h]

/-- After a first block that is too short, the ring and the queue have different first messages. -/
theorem front_differs {n : ℕ} (hpos : 0 < n) (hlt : n < 127) {op : LogOp} (hop : op.isPush = false) :
    (logStep (after logStep {} ((markedMsgs n).map .push)) op).1 ≠
      (fifoStep 64 (after (fifoStep 64) [] ((markedMsgs n).map .push)) op).1 := by
  intro h
  have hlen : (markedMsgs n).length = n := by simp [markedMsgs]
  have hfill : Filling (after logStep {} ((markedMsgs n).map .push)) (markedMsgs n) :=
    filling_pushes _ filling_start (by rw [hlen, List.length_nil]; omega)
  have hqueue : (after (fifoStep 64) [] ((markedMsgs n).map .push)).head? = some "a" := by
    rw [fifo_pushes, Fifo.foldl_push, List.head?_drop, hlen, getElem?_markedMsgs (by omega),
      if_neg (by omega)]
  have hfront := front_of_answer hop h
  rw [hqueue, hfill.rp_eq, hfill.slot 0 (by decide)] at hfront
  change ((markedMsgs n)[63]?).bind _ = _ at hfront
  by_cases hshort : n ≤ 63
  · rw [List.getElem?_eq_none (by omega)] at hfront
    exact absurd hfront (by decide)
  · rw [getElem?_markedMsgs (by omega), if_pos rfl] at hfront
    exact absurd hfront (by decide)

/-- Whatever the texts of its messages are, a run is answered as by a queue of 64 messages, exactly
    if it is primed. -/
theorem log_fifo_iff (ops : List LogOp) :
    (∀ ops' : List LogOp, ops'.map LogOp.blank = ops.map LogOp.blank →
      outputs logStep {} ops' = outputs (fifoStep 64) [] ops') ↔ Primed ops := by
  constructor
  · intro h
    obtain ⟨pre, msgs, rest, rfl, hpre, hrest, hprimed⟩ := run_parts ops
    rw [hprimed]
    by_contra hnot
    rcases not_or.mp hnot with ⟨hne, hshort⟩
    obtain ⟨op, rest, rfl⟩ := List.exists_cons_of_ne_nil hne
    obtain ⟨hop, hpos⟩ := hrest op rfl
    -- the same run with other texts
    have hblank : (pre ++ ((markedMsgs msgs.length).map LogOp.push ++ op :: rest)).map LogOp.blank =
        (pre ++ (msgs.map LogOp.push ++ op :: rest)).map LogOp.blank := by
      have hpush : ∀ l : List String,
          (l.map LogOp.push).map LogOp.blank = List.replicate l.length (.push "") := by
        intro l
        rw [List.map_map, ← List.map_const']
        rfl
      have hlen : (markedMsgs msgs.length).length = msgs.length := by simp [markedMsgs]
      simp only [List.map_append, hpush, hlen]
    have hrun := h _ hblank
    rw [← List.append_assoc] at hrun
    obtain ⟨-, hr, hq⟩ := fresh_run hpre
    have hat := outputs_eq_at hrun
    rw [after_append, after_append, hr, hq] at hat
    exact front_differs hpos (by omega) hop hat
  · intro h ops' hshape
    refine outputs_eq_of_primed ?_
    rw [← primed_blank, hshape, primed_blank]
    exact h

/-- A run that is not primed: whatever its capacity is, a queue returns the message. -/
theorem log_no_fifo :
    outputs logStep {} [.push "a", .pop] = [.pushed, .popped none] ∧
    outputs logStep {} [.flush, .push "a", .popConcatenate] = [.flushed [], .pushed, .text ""] ∧
    ¬ ∃ cap, 0 < cap ∧ ∀ ops, outputs logStep {} ops = outputs (fifoStep cap) [] ops := by
  refine ⟨by decide, by decide, ?_⟩
  rintro ⟨cap, hcap, h⟩
  have hrun := h [.push "a", .pop]
  simp only [outputs, List.cons.injEq] at hrun
  have hpop : LogOut.popped none = .popped (Fifo.push cap [] "a").head? := hrun.2.1
  rw [Fifo.push_of_lt hcap] at hpop
  exact absurd hpop (by decide)

end Ucentral.Plat
