import Mathlib.Data.Int.Notation
import Mathlib.Tactic.Common

/-! Programs that issue fallible calls and report failure by a C return code.

    A program runs over a state paired with the trace of the calls it has issued. It ends in a
    value (the C function returned 0) or in an error code. The rules below follow one property
    through such programs: `Reports ok x` says that whenever `x` ends in a value, every call it
    added to the trace is `ok`. A program whose failures are swallowed by its caller has to be
    `Quiet`: all its calls are `ok` whatever it returns. -/

namespace Effect

variable {σ ε κ α β : Type}

/-- A state and the calls issued so far, oldest first. -/
structure Traced (σ ε : Type) where
  state : σ
  log : List ε

/-- A program: from a traced state to a value or an error code, and the traced state after it. -/
def Prog (σ ε α : Type) := Traced σ ε → Except ℤ α × Traced σ ε

namespace Prog

protected def pure (a : α) : Prog σ ε α := fun s => (.ok a, s)

protected def bind (x : Prog σ ε α) (f : α → Prog σ ε β) : Prog σ ε β := fun s =>
  match x s with
  | (.ok a, t) => f a t
  | (.error c, t) => (.error c, t)

instance : Monad (Prog σ ε) where
  pure := Prog.pure
  bind := Prog.bind

instance : LawfulMonad (Prog σ ε) := by
  refine LawfulMonad.mk' (Prog σ ε) (fun x => ?_) (fun _ _ => rfl) (fun x f g => ?_)
  · funext s
    change Prog.bind x (fun a => Prog.pure a) s = x s
    unfold Prog.bind
    rcases x s with ⟨_ | _, _⟩ <;> rfl
  · funext s
    change Prog.bind (Prog.bind x f) g s = Prog.bind x (fun a => Prog.bind (f a) g) s
    unfold Prog.bind
    rcases x s with ⟨_ | _, _⟩ <;> rfl

/-- `return c;` with a non-zero code. -/
def fail (c : ℤ) : Prog σ ε α := fun s => (.error c, s)

def getState : Prog σ ε σ := fun s => (.ok s.state, s)

def modifyState (f : σ → σ) : Prog σ ε Unit := fun s => (.ok (), { s with state := f s.state })

/-- A query of the state that leaves no trace, such as reading back from a device. -/
def query (f : σ → α × σ) : Prog σ ε α := fun s =>
  (.ok (f s.state).1, { s with state := (f s.state).2 })

/-- Issue a call: run it on the state and record it with its outcome. -/
def call (k : κ) (f : σ → Bool × σ) : Prog σ (κ × Bool) Bool := fun s =>
  (.ok (f s.state).1, ⟨(f s.state).2, s.log ++ [(k, (f s.state).1)]⟩)

/-- A step of the program itself that is put on record. -/
def record (e : ε) (f : σ → σ) : Prog σ ε Unit := fun s => (.ok (), ⟨f s.state, s.log ++ [e]⟩)

/-- `f(...);` : the return code is dropped. -/
def ignore (x : Prog σ ε α) : Prog σ ε Unit := fun s => (.ok (), (x s).2)

/-- `if (f(...)) return c;` -/
def orFail (c : ℤ) (x : Prog σ ε α) : Prog σ ε α := fun s =>
  match x s with
  | (.ok a, t) => (.ok a, t)
  | (.error _, t) => (.error c, t)

/-- `if (f(...)) g(...);` : the second runs if the first fails. -/
def orElse (x y : Prog σ ε Unit) : Prog σ ε Unit := fun s =>
  match x s with
  | (.ok _, t) => (.ok (), t)
  | (.error _, t) => y t

/-- `if (b) f(...);` with the code of `f` passed on. -/
def when (b : Bool) (x : Prog σ ε Unit) : Prog σ ε Unit := if b then x else pure ()

/-- The C return code: 0, or the code the program failed with. -/
def retCode (r : Except ℤ α) : ℤ :=
  match r with
  | .ok _ => 0
  | .error c => c

/-! ### Running the pieces -/

@[simp] theorem pure_run (a : α) (s : Traced σ ε) : (pure a : Prog σ ε α) s = (.ok a, s) := rfl

theorem bind_run (x : Prog σ ε α) (f : α → Prog σ ε β) (s : Traced σ ε) :
    (x >>= f) s = match x s with
      | (.ok a, t) => f a t
      | (.error c, t) => (.error c, t) := rfl

theorem bind_run_ok {x : Prog σ ε α} {s t : Traced σ ε} {a : α} (h : x s = (.ok a, t))
    (f : α → Prog σ ε β) : (x >>= f) s = f a t := by
  rw [bind_run, h]

theorem bind_run_error {x : Prog σ ε α} {s t : Traced σ ε} {c : ℤ} (h : x s = (.error c, t))
    (f : α → Prog σ ε β) : (x >>= f) s = (.error c, t) := by
  rw [bind_run, h]

@[simp] theorem fail_run (c : ℤ) (s : Traced σ ε) : (fail c : Prog σ ε α) s = (.error c, s) := rfl

@[simp] theorem getState_run (s : Traced σ ε) :
    (getState : Prog σ ε σ) s = (.ok s.state, s) := rfl

@[simp] theorem modifyState_run (f : σ → σ) (s : Traced σ ε) :
    (modifyState f : Prog σ ε Unit) s = (.ok (), { s with state := f s.state }) := rfl

@[simp] theorem call_run (k : κ) (f : σ → Bool × σ) (s : Traced σ (κ × Bool)) :
    call k f s = (.ok (f s.state).1, ⟨(f s.state).2, s.log ++ [(k, (f s.state).1)]⟩) := rfl

@[simp] theorem ignore_run (x : Prog σ ε α) (s : Traced σ ε) :
    ignore x s = (.ok (), (x s).2) := rfl

end Prog

open Prog

/-! ### Every unreported failure is excluded -/

variable (ok : ε → Prop)

/-- The trace only grows, and all that `x` adds to it is `ok`. -/
def Quiet (x : Prog σ ε α) : Prop :=
  ∀ s, ∃ l, (x s).2.log = s.log ++ l ∧ ∀ e ∈ l, ok e

/-- The trace only grows; if `x` ends in a value all that it adds is `ok`, and if it fails, it
    fails with a non-zero code. -/
def Reports (x : Prog σ ε α) : Prop :=
  ∀ s, ∃ l, (x s).2.log = s.log ++ l ∧
    match (x s).1 with
    | .ok _ => ∀ e ∈ l, ok e
    | .error c => c ≠ 0

variable {ok}

/-- A reported failure has a non-zero code. -/
theorem Reports.retCode_ne_zero {x : Prog σ ε α} (h : Reports ok x) {s t : Traced σ ε} {c : ℤ}
    (hrun : x s = (.error c, t)) : retCode (x s).1 ≠ 0 := by
  obtain ⟨l, -, hc⟩ := h s
  rw [hrun] at hc ⊢
  exact hc

theorem reports_pure (a : α) : Reports ok (pure a : Prog σ ε α) :=
  fun _ => ⟨[], by simp, by simp⟩

theorem reports_fail {c : ℤ} (hc : c ≠ 0) : Reports ok (fail c : Prog σ ε α) :=
  fun _ => ⟨[], by simp, by simpa using hc⟩

theorem reports_getState : Reports ok (getState : Prog σ ε σ) :=
  fun _ => ⟨[], by simp, by simp⟩

theorem reports_modifyState (f : σ → σ) : Reports ok (modifyState f : Prog σ ε Unit) :=
  fun _ => ⟨[], by simp, by simp⟩

theorem reports_query (f : σ → α × σ) : Reports ok (query f : Prog σ ε α) :=
  fun _ => ⟨[], by simp [query], by simp [query]⟩

theorem reports_bind {x : Prog σ ε α} {f : α → Prog σ ε β} (hx : Reports ok x)
    (hf : ∀ a, Reports ok (f a)) : Reports ok (x >>= f) := by
  intro s
  obtain ⟨l, hl, hr⟩ := hx s
  rcases hxs : x s with ⟨_ | a, t⟩
  · rw [hxs] at hl hr
    rw [bind_run_error hxs]
    exact ⟨l, hl, hr⟩
  · rw [hxs] at hl hr
    obtain ⟨l', hl', hr'⟩ := hf a t
    rw [bind_run_ok hxs]
    refine ⟨l ++ l', by rw [hl', hl, List.append_assoc], ?_⟩
    rcases hft : (f a t).1 with c | b
    · rw [hft] at hr'; exact hr'
    · rw [hft] at hr'
      intro e he
      rcases List.mem_append.mp he with h | h
      · exact hr e h
      · exact hr' e h

/-- What has been recorded stays recorded. -/
theorem mem_log_bind {x : Prog σ ε α} {f : α → Prog σ ε β} (hf : ∀ a, Reports ok (f a))
    {s : Traced σ ε} {e : ε} (he : e ∈ (x s).2.log) : e ∈ ((x >>= f) s).2.log := by
  rcases hxs : x s with ⟨_ | a, t⟩
  · rw [bind_run_error hxs]
    rwa [hxs] at he
  · obtain ⟨l, hl, -⟩ := hf a t
    rw [hxs] at he
    rw [bind_run_ok hxs, hl]
    exact List.mem_append_left l he

theorem reports_ite {p : Prop} [Decidable p] {x y : Prog σ ε α} (hx : p → Reports ok x)
    (hy : ¬ p → Reports ok y) : Reports ok (if p then x else y) := by
  by_cases h : p
  · rw [if_pos h]; exact hx h
  · rw [if_neg h]; exact hy h

theorem reports_when {b : Bool} {x : Prog σ ε Unit} (hx : b = true → Reports ok x) :
    Reports ok (when b x) :=
  reports_ite hx (fun _ => reports_pure ())

theorem reports_orFail {c : ℤ} (hc : c ≠ 0) {x : Prog σ ε α} (hx : Reports ok x) :
    Reports ok (orFail c x) := by
  intro s
  obtain ⟨l, hl, hr⟩ := hx s
  refine ⟨l, ?_, ?_⟩ <;> unfold orFail <;> rcases hxs : x s with ⟨_ | a, t⟩ <;>
    rw [hxs] at hl hr
  · exact hl
  · exact hl
  · exact hc
  · exact hr

/-- The usual code is -1. -/
theorem reports_fail_neg_one : Reports ok (fail (-1) : Prog σ ε α) := reports_fail (by decide)

theorem reports_orFail_neg_one {x : Prog σ ε α} (hx : Reports ok x) :
    Reports ok (orFail (-1) x) :=
  reports_orFail (by decide) hx

theorem reports_ignore {x : Prog σ ε α} (hx : Quiet ok x) : Reports ok (ignore x) := by
  intro s
  obtain ⟨l, hl, hr⟩ := hx s
  exact ⟨l, hl, hr⟩

/-- The loop rule: a body that reports each failure makes a loop that does. -/
theorem reports_forM {f : β → Prog σ ε Unit} :
    ∀ (xs : List β), (∀ x ∈ xs, Reports ok (f x)) → Reports ok (forM xs f)
  | [], _ => reports_pure ()
  | x :: xs, h => by
      rw [List.forM_cons]
      refine reports_bind (h x (List.mem_cons_self ..)) (fun _ => ?_)
      exact reports_forM xs (fun y hy => h y (List.mem_cons_of_mem _ hy))

theorem quiet_pure (a : α) : Quiet ok (pure a : Prog σ ε α) := fun _ => ⟨[], by simp, by simp⟩

theorem quiet_fail (c : ℤ) : Quiet ok (fail c : Prog σ ε α) := fun _ => ⟨[], by simp, by simp⟩

theorem quiet_modifyState (f : σ → σ) : Quiet ok (modifyState f : Prog σ ε Unit) :=
  fun _ => ⟨[], by simp, by simp⟩

theorem quiet_query (f : σ → α × σ) : Quiet ok (query f : Prog σ ε α) :=
  fun _ => ⟨[], by simp [query], by simp⟩

theorem quiet_bind {x : Prog σ ε α} {f : α → Prog σ ε β} (hx : Quiet ok x)
    (hf : ∀ a, Quiet ok (f a)) : Quiet ok (x >>= f) := by
  intro s
  obtain ⟨l, hl, hr⟩ := hx s
  rcases hxs : x s with ⟨_ | a, t⟩
  · rw [hxs] at hl
    rw [bind_run_error hxs]
    exact ⟨l, hl, hr⟩
  · rw [hxs] at hl
    obtain ⟨l', hl', hr'⟩ := hf a t
    rw [bind_run_ok hxs]
    refine ⟨l ++ l', by rw [hl', hl, List.append_assoc], fun e he => ?_⟩
    exact (List.mem_append.mp he).elim (hr e) (hr' e)

theorem quiet_record {e : ε} (f : σ → σ) (h : ok e) : Quiet ok (record e f : Prog σ ε Unit) :=
  fun _ => ⟨[e], rfl, by simpa using h⟩

theorem quiet_orElse {x y : Prog σ ε Unit} (hx : Quiet ok x) (hy : Quiet ok y) :
    Quiet ok (orElse x y) := by
  intro s
  obtain ⟨l, hl, hr⟩ := hx s
  unfold orElse
  rcases hxs : x s with ⟨c | a, t⟩
  · rw [hxs] at hl
    obtain ⟨l', hl', hr'⟩ := hy t
    refine ⟨l ++ l', by rw [hl', hl, List.append_assoc], fun e he => ?_⟩
    exact (List.mem_append.mp he).elim (hr e) (hr' e)
  · rw [hxs] at hl
    exact ⟨l, hl, hr⟩

theorem quiet_ite {p : Prop} [Decidable p] {x y : Prog σ ε α} (hx : p → Quiet ok x)
    (hy : ¬ p → Quiet ok y) : Quiet ok (if p then x else y) := by
  by_cases h : p
  · rw [if_pos h]; exact hx h
  · rw [if_neg h]; exact hy h

theorem quiet_forM {f : β → Prog σ ε Unit} :
    ∀ (xs : List β), (∀ x ∈ xs, Quiet ok (f x)) → Quiet ok (forM xs f)
  | [], _ => quiet_pure ()
  | x :: xs, h => by
      rw [List.forM_cons]
      refine quiet_bind (h x (List.mem_cons_self ..)) (fun _ => ?_)
      exact quiet_forM xs (fun y hy => h y (List.mem_cons_of_mem _ hy))

end Effect
