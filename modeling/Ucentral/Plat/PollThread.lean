import Mathlib.Tactic.Common

/-! The life of a thread of the periodic reports.

    A poll is started by destroying the thread there is and creating another one; both share
    `struct periodic`, with its mutex and its condition variable, and the context of the callback is
    static. The thread and its caller go on in any order. What either of them does between two accesses
    to what they share is one step. -/

namespace Ucentral.Plat.PollThread

/-! ### The thread and the caller -/

/-- What `rc` is in `periodic_thread`. -/
inductive Rc
  | zero | timedOut | error
  deriving DecidableEq, Repr

/-- Where the thread is: at `pthread_mutex_lock`; at the condition of the inner loop, with the mutex; in
    `pthread_cond_timedwait`, asleep or about to take the mutex again; behind `pthread_mutex_unlock`, with
    its copy of `stop`; in the callback. -/
inductive Pc
  | locking
  | testing (rc : Rc)
  | sleeping
  | waking (rc : Rc)
  | unlocked (stop : Bool) (rc : Rc)
  | calling
  | exited
  deriving DecidableEq, Repr

inductive Owner
  | thread | caller
  deriving DecidableEq, Repr

/-- `struct periodic`, with what is shared in it. -/
structure Periodic where
  mutex : Option Owner := none
  stop : Bool := false
  deriving DecidableEq, Repr

variable {κ : Type}

/-- Where the caller is: not in a call; in `periodic_destroy`, at the lock, behind it, at the broadcast
    and at the join; at `periodic_create`. It starts the callback `next` afterwards, if there is one. -/
inductive Caller (κ : Type)
  | idle
  | locking (next : Option κ)
  | setting (next : Option κ)
  | broadcasting (next : Option κ)
  | joining (next : Option κ)
  | creating (cb : κ)
  deriving DecidableEq, Repr

structure World (κ : Type) where
  /-- What `health_periodic`, or one of the others, points to. -/
  periodic : Option Periodic := none
  /-- The thread, by the callback that it has been created for. -/
  thread : Option (κ × Pc) := none
  /-- `cb` of the static context. -/
  ctx : Option κ := none
  caller : Caller κ := .idle
  /-- The callbacks that have been called, each with the one that the thread has been created for. -/
  calls : List (κ × Option κ) := []
  /-- How many of them since `stop` has been set. -/
  late : ℕ := 0
  /-- Memory has been used that is not there, a mutex destroyed that is held, or a second thread
      created. -/
  fault : Bool := false

/-- The caller behind `periodic_destroy`. -/
def Caller.after : Option κ → Caller κ
  | none => idle
  | some cb => creating cb

/-- A call of `plat_health_poll` or `plat_health_poll_stop`, or of those of the other reports. -/
def request (next : Option κ) (w : World κ) : World κ :=
  if w.caller matches .idle then
    { w with caller := if w.periodic.isSome then .locking next else .after next }
  else w

/-- `periodic_create`. -/
def create (cb : κ) (w : World κ) : World κ :=
  { w with
    periodic := some {}
    thread := some (cb, .locking)
    caller := .idle
    late := 0
    fault := w.fault || w.thread.isSome }

/-- A step of the caller. -/
def callerStep (created : Bool) (w : World κ) : World κ :=
  match w.caller, w.periodic with
  | .idle, _ => w
  | .creating cb, _ =>
    if created then create cb { w with ctx := some cb } else { w with ctx := some cb, caller := .idle }
  | _, none => { w with fault := true }
  | .locking next, some p =>
    if p.mutex = none then
      { w with periodic := some { p with mutex := some .caller }, caller := .setting next }
    else w
  | .setting next, some _ =>
    { w with periodic := some { mutex := none, stop := true }, caller := .broadcasting next }
  | .broadcasting next, some _ =>
    { w with
      thread := w.thread.map fun (cb, pc) => (cb, if pc = .sleeping then .waking .zero else pc)
      caller := .joining next }
  | .joining next, some p =>
    if w.thread.all (·.2 = .exited) then
      { w with
        periodic := none
        thread := none
        caller := .after next
        fault := w.fault || p.mutex.isSome }
    else w

/-- A step of the thread that has the memory `p`; the callback returns 0 if it wants to go on. -/
def threadRun (again : Bool) (cb : κ) (pc : Pc) (p : Periodic) (w : World κ) : World κ :=
  match pc with
  | .locking =>
    if p.mutex = none then
      { w with periodic := some { p with mutex := some .thread }, thread := some (cb, .testing .zero) }
    else w
  | .testing rc =>
    if !p.stop && rc = .zero then
      { w with periodic := some { p with mutex := none }, thread := some (cb, .sleeping) }
    else { w with periodic := some { p with mutex := none }, thread := some (cb, .unlocked p.stop rc) }
  | .sleeping => w
  | .waking rc =>
    if p.mutex = none then
      { w with periodic := some { p with mutex := some .thread }, thread := some (cb, .testing rc) }
    else w
  | .unlocked stop rc =>
    if stop then { w with thread := some (cb, .exited) }
    else if rc = .timedOut then
      { w with
        thread := some (cb, .calling)
        calls := w.calls ++ [(cb, w.ctx)]
        late := if p.stop then w.late + 1 else w.late }
    else { w with thread := some (cb, .exited) }
  | .calling => { w with thread := some (cb, if again then .locking else .exited) }
  | .exited => w

/-- A step of the thread, if there is one. -/
def threadStep (again : Bool) (w : World κ) : World κ :=
  match w.thread, w.periodic with
  | none, _ | some (_, .exited), _ => w
  | some _, none => { w with fault := true }
  | some (cb, pc), some p => threadRun again cb pc p w

/-- The wait ends, by itself or at the time that is up. -/
def wake (rc : Rc) (w : World κ) : World κ :=
  { w with thread := w.thread.map fun (cb, pc) => (cb, if pc = .sleeping then .waking rc else pc) }

inductive Act (κ : Type)
  | request (next : Option κ)
  | caller (created : Bool)
  | thread (again : Bool)
  | wake (rc : Rc)

def step (w : World κ) : Act κ → World κ
  | .request next => request next w
  | .caller created => callerStep created w
  | .thread again => threadStep again w
  | .wake rc => wake rc w

def run (w : World κ) (acts : List (Act κ)) : World κ := acts.foldl step w

/-! ### The invariant -/

def Pc.holds : Pc → Bool
  | testing _ => true
  | _ => false

/-- A call is due. -/
def Pc.due : Pc → ℕ
  | unlocked false .timedOut => 1
  | _ => 0

def Caller.holds : Caller κ → Bool
  | setting _ => true
  | _ => false

/-- `stop` is set. -/
def Caller.stopping : Caller κ → Bool
  | broadcasting _ | joining _ => true
  | _ => false

def Caller.isJoining : Caller κ → Bool
  | joining _ => true
  | _ => false

def Caller.isCreating : Caller κ → Bool
  | creating _ => true
  | _ => false

/-- A thread, the memory it shares, and the caller. -/
structure Pair (p : Periodic) (pc : Pc) (caller : Caller κ) (n : ℕ) : Prop where
  byThread : p.mutex = some .thread ↔ pc.holds = true
  byCaller : p.mutex = some .caller ↔ caller.holds = true
  stop : p.stop = caller.stopping
  there : caller.isCreating = false
  awake : caller.isJoining = true → pc ≠ .sleeping
  saw : ∀ rc, pc = .unlocked true rc → p.stop = true
  late : n + pc.due ≤ 1
  early : p.stop = false → n = 0

/-- There is no thread and no memory, or there are both. -/
inductive Alive (w : World κ) : Prop
  | none (hper : w.periodic = none) (hthread : w.thread = none)
      (hcaller : w.caller = .idle ∨ w.caller.isCreating = true) (hlate : w.late ≤ 1)
  | some {p : Periodic} {cb : κ} {pc : Pc} (hper : w.periodic = some p)
      (hthread : w.thread = some (cb, pc)) (hctx : w.ctx = some cb)
      (hpair : Pair p pc w.caller w.late)

structure Inv (w : World κ) : Prop where
  fault : w.fault = false
  calls : ∀ c ∈ w.calls, c.2 = some c.1
  alive : Alive w

/-! ### Each act keeps it -/

namespace Pair

variable {p : Periodic} {pc : Pc} {caller : Caller κ} {n : ℕ}

theorem not_caller (h : Pair p pc caller n) (hm : p.mutex ≠ some .caller) : ¬ caller.holds = true :=
  fun hc => hm (h.byCaller.mpr hc)

theorem not_thread (h : Pair p pc caller n) (hm : p.mutex ≠ some .thread) : ¬ pc.holds = true :=
  fun hc => hm (h.byThread.mpr hc)

/-- The thread takes the mutex. -/
theorem lock (h : Pair p pc caller n) (hfree : p.mutex = none) (rc : Rc) :
    Pair { p with mutex := some .thread } (.testing rc) caller n where
  byThread := iff_of_true rfl rfl
  byCaller := iff_of_false nofun (h.not_caller (by rw [hfree]; nofun))
  stop := h.stop
  there := h.there
  awake := fun _ => nofun
  saw := nofun
  late := Nat.le_trans (Nat.le_add_right _ _) h.late
  early := h.early

/-- The thread has found `stop` unset, and waits. -/
theorem sleep {rc : Rc} (h : Pair p (.testing rc) caller n) (hstop : p.stop = false) :
    Pair { p with mutex := none } .sleeping caller n where
  byThread := iff_of_false nofun nofun
  byCaller := iff_of_false nofun (h.not_caller (by rw [h.byThread.mpr rfl]; decide))
  stop := h.stop
  there := h.there
  awake := by
    intro hjoin
    have hstopping : caller.stopping = true := by
      cases caller <;> first | rfl | cases hjoin
    rw [← h.stop, hstop] at hstopping
    cases hstopping
  saw := nofun
  late := h.late
  early := h.early

/-- The thread leaves the inner loop. -/
theorem unlock {rc : Rc} (h : Pair p (.testing rc) caller n) :
    Pair { p with mutex := none } (.unlocked p.stop rc) caller n where
  byThread := iff_of_false nofun nofun
  byCaller := iff_of_false nofun (h.not_caller (by rw [h.byThread.mpr rfl]; decide))
  stop := h.stop
  there := h.there
  awake := fun _ => nofun
  saw := by
    intro _ heq
    injection heq
  late := by
    cases hstop : p.stop with
    | true => exact h.late
    | false =>
      rw [h.early hstop, Nat.zero_add]
      cases rc <;> decide
  early := h.early

/-- The thread goes on without the mutex, and nothing is due. -/
theorem goOn (h : Pair p pc caller n) {pc' : Pc} (hmutex : pc.holds = false) (hholds : pc'.holds = false)
    (hawake : pc' ≠ .sleeping) (hsaw : ∀ rc, pc' ≠ .unlocked true rc) (hdue : pc'.due = 0) :
    Pair p pc' caller n where
  byThread := iff_of_false (fun hm => by rw [h.byThread.mp hm] at hmutex; cases hmutex)
    (by rw [hholds]; decide)
  byCaller := h.byCaller
  stop := h.stop
  there := h.there
  awake := fun _ => hawake
  saw := fun rc heq => absurd heq (hsaw rc)
  late := by
    rw [hdue]
    exact Nat.le_trans (Nat.le_add_right _ _) h.late
  early := h.early

/-- The callback that was due is called. -/
theorem call (h : Pair p (.unlocked false .timedOut) caller n) :
    Pair p .calling caller (if p.stop then n + 1 else n) where
  byThread := h.byThread
  byCaller := h.byCaller
  stop := h.stop
  there := h.there
  awake := fun _ => nofun
  saw := nofun
  late := by
    have hone : n + 1 ≤ 1 := h.late
    split
    · exact hone
    · exact Nat.le_trans (Nat.le_succ n) hone
  early := by
    intro hstop
    rw [if_neg (by rw [hstop]; decide)]
    exact h.early hstop

end Pair

/-- A step of the thread keeps what it shares with the caller in order. -/
theorem pair_thread {p : Periodic} {pc : Pc} {cb : κ} {w : World κ} (again : Bool)
    (h : Pair p pc w.caller w.late) (hper : w.periodic = some p) (hthread : w.thread = some (cb, pc)) :
    ∃ p' pc', (threadRun again cb pc p w).periodic = some p' ∧
      (threadRun again cb pc p w).thread = some (cb, pc') ∧
      Pair p' pc' w.caller (threadRun again cb pc p w).late := by
  cases pc with
  | locking =>
    unfold threadRun
    dsimp only
    by_cases hfree : p.mutex = none
    · rw [if_pos hfree]
      exact ⟨_, _, rfl, rfl, h.lock hfree .zero⟩
    · rw [if_neg hfree]
      exact ⟨_, _, hper, hthread, h⟩
  | testing rc =>
    unfold threadRun
    dsimp only
    split
    · next hwait =>
      have hstop : p.stop = false := by
        rw [Bool.and_eq_true, Bool.not_eq_true'] at hwait
        exact hwait.1
      exact ⟨_, _, rfl, rfl, h.sleep hstop⟩
    · exact ⟨_, _, rfl, rfl, h.unlock⟩
  | sleeping => exact ⟨_, _, hper, hthread, h⟩
  | waking rc =>
    unfold threadRun
    dsimp only
    by_cases hfree : p.mutex = none
    · rw [if_pos hfree]
      exact ⟨_, _, rfl, rfl, h.lock hfree rc⟩
    · rw [if_neg hfree]
      exact ⟨_, _, hper, hthread, h⟩
  | unlocked stop rc =>
    have hexit : Pair p .exited w.caller w.late := h.goOn rfl rfl nofun nofun rfl
    cases stop with
    | true => exact ⟨_, _, hper, rfl, hexit⟩
    | false =>
      cases rc with
      | zero => exact ⟨_, _, hper, rfl, hexit⟩
      | timedOut => exact ⟨_, _, hper, rfl, h.call⟩
      | error => exact ⟨_, _, hper, rfl, hexit⟩
  | calling =>
    cases again with
    | true => exact ⟨_, _, hper, rfl, h.goOn rfl rfl nofun nofun rfl⟩
    | false => exact ⟨_, _, hper, rfl, h.goOn rfl rfl nofun nofun rfl⟩
  | exited => exact ⟨_, _, hper, hthread, h⟩

/-- What a step of the thread leaves as it is. -/
theorem threadRun_frame (again : Bool) (cb : κ) (pc : Pc) (p : Periodic) (w : World κ) :
    (threadRun again cb pc p w).ctx = w.ctx ∧ (threadRun again cb pc p w).caller = w.caller ∧
      (threadRun again cb pc p w).fault = w.fault := by
  cases pc <;> unfold threadRun <;> dsimp only <;> (repeat' split) <;> exact ⟨rfl, rfl, rfl⟩

/-- A step of the thread calls the callback of the context, if any. -/
theorem threadRun_calls (again : Bool) (cb : κ) (pc : Pc) (p : Periodic) (w : World κ) :
    (threadRun again cb pc p w).calls = w.calls ∨
      (threadRun again cb pc p w).calls = w.calls ++ [(cb, w.ctx)] := by
  cases pc <;> unfold threadRun <;> dsimp only <;> (repeat' split) <;>
    first | exact Or.inl rfl | exact Or.inr rfl

theorem threadStep_eq {again : Bool} {w : World κ} {p : Periodic} {cb : κ} {pc : Pc}
    (hper : w.periodic = some p) (hthread : w.thread = some (cb, pc)) :
    threadStep again w = threadRun again cb pc p w := by
  unfold threadStep
  rw [hper, hthread]
  cases pc <;> rfl

theorem inv_thread {w : World κ} (h : Inv w) (again : Bool) : Inv (threadStep again w) := by
  cases h.alive with
  | none _ hthread =>
    have hsame : threadStep again w = w := by
      unfold threadStep
      rw [hthread]
    rw [hsame]
    exact h
  | @some p cb pc hper hthread hctx hpair =>
    rw [threadStep_eq hper hthread]
    obtain ⟨hctx', hcaller', hfault'⟩ := threadRun_frame again cb pc p w
    obtain ⟨p', pc', hper', hthread', hpair'⟩ := pair_thread again hpair hper hthread
    refine ⟨hfault'.trans h.fault, ?_, .some hper' hthread' (hctx'.trans hctx) (hcaller' ▸ hpair')⟩
    intro c hc
    rcases threadRun_calls again cb pc p w with hcalls | hcalls
    · rw [hcalls] at hc
      exact h.calls c hc
    · rw [hcalls] at hc
      rcases List.mem_append.mp hc with hc | hc
      · exact h.calls c hc
      · rw [List.mem_singleton.mp hc]
        exact hctx

/-- The thread is woken, if it is asleep. -/
theorem Pair.woken {p : Periodic} {pc : Pc} {caller : Caller κ} {n : ℕ} (h : Pair p pc caller n)
    (rc : Rc) : Pair p (if pc = .sleeping then .waking rc else pc) caller n := by
  by_cases hsleeping : pc = .sleeping
  · rw [if_pos hsleeping]
    exact h.goOn (by rw [hsleeping]; rfl) rfl nofun nofun rfl
  · rw [if_neg hsleeping]
    exact h

theorem inv_wake {w : World κ} (h : Inv w) (rc : Rc) : Inv (wake rc w) := by
  refine ⟨h.fault, h.calls, ?_⟩
  cases h.alive with
  | none hper hthread hcaller hlate =>
    refine .none hper ?_ hcaller hlate
    unfold wake
    rw [hthread]
    rfl
  | @some p cb pc hper hthread hctx hpair =>
    refine .some hper ?_ hctx (hpair.woken rc)
    unfold wake
    rw [hthread]
    rfl

/-- The caller goes on, and neither takes nor gives anything. -/
theorem Pair.proceed {p : Periodic} {pc : Pc} {caller caller' : Caller κ} {n : ℕ}
    (h : Pair p pc caller n) (hholds : caller'.holds = caller.holds)
    (hstopping : caller'.stopping = caller.stopping) (hthere : caller'.isCreating = false)
    (hawake : caller'.isJoining = true → pc ≠ .sleeping) : Pair p pc caller' n where
  byThread := h.byThread
  byCaller := by rw [hholds]; exact h.byCaller
  stop := by rw [hstopping]; exact h.stop
  there := hthere
  awake := hawake
  saw := h.saw
  late := h.late
  early := h.early

/-- Behind `periodic_destroy` there is either another thread to create, or nothing to do. -/
theorem after_cases (next : Option κ) :
    Caller.after next = .idle ∨ (Caller.after next).isCreating = true := by
  cases next with
  | none => exact Or.inl rfl
  | some cb => exact Or.inr rfl

theorem inv_request {w : World κ} (h : Inv w) (next : Option κ) : Inv (request next w) := by
  unfold request
  split
  · next hidle =>
    have hcaller : w.caller = .idle := by
      cases hc : w.caller <;> first | rfl | (rw [hc] at hidle; cases hidle)
    refine ⟨h.fault, h.calls, ?_⟩
    cases h.alive with
    | none hper hthread _ hlate =>
      refine .none hper hthread ?_ hlate
      have hafter : (if w.periodic.isSome then Caller.locking next else .after next) = .after next := by
        rw [hper]
        rfl
      show (if w.periodic.isSome then Caller.locking next else .after next) = .idle ∨
        (if w.periodic.isSome then Caller.locking next else .after next).isCreating = true
      rw [hafter]
      exact after_cases next
    | @some p cb pc hper hthread hctx hpair =>
      refine .some hper hthread hctx ?_
      show Pair p pc (if w.periodic.isSome then Caller.locking next else .after next) w.late
      rw [hper]
      rw [hcaller] at hpair
      exact hpair.proceed rfl rfl rfl nofun
  · exact h

/-- The caller has the mutex. -/
theorem Pair.seize {p : Periodic} {pc : Pc} {next : Option κ} {n : ℕ}
    (h : Pair p pc (.locking next) n) (hfree : p.mutex = none) :
    Pair { p with mutex := some .caller } pc (.setting next) n where
  byThread := iff_of_false nofun (h.not_thread (by rw [hfree]; nofun))
  byCaller := iff_of_true rfl rfl
  stop := h.stop
  there := rfl
  awake := nofun
  saw := h.saw
  late := h.late
  early := h.early

/-- The caller has set `stop`, and given the mutex back. -/
theorem Pair.set {p : Periodic} {pc : Pc} {next : Option κ} {n : ℕ} (h : Pair p pc (.setting next) n) :
    Pair { mutex := none, stop := true } pc (.broadcasting next) n where
  byThread := iff_of_false nofun (h.not_thread (by rw [h.byCaller.mpr rfl]; decide))
  byCaller := iff_of_false nofun nofun
  stop := rfl
  there := rfl
  awake := nofun
  saw := fun _ _ => rfl
  late := h.late
  early := nofun

theorem inv_create {w : World κ} (h : Inv w) (hthread : w.thread = none) (cb : κ) :
    Inv (create cb { w with ctx := some cb }) := by
  refine ⟨?_, h.calls, .some rfl rfl rfl ?_⟩
  · show (w.fault || w.thread.isSome) = false
    rw [h.fault, hthread]
    rfl
  · exact ⟨iff_of_false nofun nofun, iff_of_false nofun nofun, rfl, rfl, nofun, nofun,
      Nat.zero_le 1, fun _ => rfl⟩

/-- The thread has been joined: nobody has the mutex. -/
theorem Pair.joined {p : Periodic} {next : Option κ} {n : ℕ} (h : Pair p .exited (.joining next) n) :
    p.mutex = none := by
  cases hm : p.mutex with
  | none => rfl
  | some owner =>
    cases owner with
    | thread => cases h.byThread.mp hm
    | caller => cases h.byCaller.mp hm

theorem inv_caller {w : World κ} (h : Inv w) (created : Bool) : Inv (callerStep created w) := by
  unfold callerStep
  cases h.alive with
  | none hper hthread hcaller hlate =>
    rcases hcaller with hidle | hcreating
    · rw [hidle]
      exact h
    · cases hc : w.caller <;> rw [hc] at hcreating <;> cases hcreating
      rename_i cb
      dsimp only
      cases created with
      | true => exact inv_create h hthread cb
      | false => exact ⟨h.fault, h.calls, .none hper hthread (Or.inl rfl) hlate⟩
  | @some p cb pc hper hthread hctx hpair =>
    rw [hper]
    cases hc : w.caller with
    | idle => exact h
    | creating cb' =>
      rw [hc] at hpair
      exact nomatch hpair.there
    | locking next =>
      rw [hc] at hpair
      dsimp only
      by_cases hfree : p.mutex = none
      · rw [if_pos hfree]
        exact ⟨h.fault, h.calls, .some rfl hthread hctx (hpair.seize hfree)⟩
      · rw [if_neg hfree]
        exact h
    | setting next =>
      rw [hc] at hpair
      exact ⟨h.fault, h.calls, .some rfl hthread hctx hpair.set⟩
    | broadcasting next =>
      rw [hc] at hpair
      have hwoken := hpair.woken .zero
      dsimp only
      refine ⟨h.fault, h.calls, .some rfl ?_ hctx (hwoken.proceed rfl rfl rfl ?_)⟩
      · show w.thread.map _ = _
        rw [hthread]
        rfl
      · intro _
        split
        · nofun
        · next hawake => exact hawake
    | joining next =>
      rw [hc] at hpair
      dsimp only
      by_cases hexited : pc = .exited
      · subst hexited
        have hall : w.thread.all (·.2 = .exited) = true := by
          rw [hthread]
          rfl
        rw [if_pos hall]
        refine ⟨?_, h.calls, .none rfl rfl (after_cases next) hpair.late⟩
        show (w.fault || p.mutex.isSome) = false
        rw [h.fault, hpair.joined]
        rfl
      · have hall : ¬ w.thread.all (·.2 = .exited) = true := by
          rw [hthread]
          simpa using hexited
        rw [if_neg hall]
        exact h

theorem inv_step {w : World κ} (h : Inv w) (a : Act κ) : Inv (step w a) := by
  cases a with
  | request next => exact inv_request h next
  | caller created => exact inv_caller h created
  | thread again => exact inv_thread h again
  | wake rc => exact inv_wake h rc

theorem inv_run : ∀ (acts : List (Act κ)) {w : World κ}, Inv w → Inv (run w acts)
  | [], _, h => h
  | a :: acts, _, h => inv_run acts (inv_step h a)

theorem inv_start : Inv ({} : World κ) := ⟨rfl, nofun, .none rfl rfl (Or.inl rfl) (Nat.zero_le 1)⟩

/-- Whatever the order of the steps, no memory is used that has been freed, and no second thread runs
    beside another; each call is of the callback that its thread has been created for, though the
    context is shared by all of them; and at most one call begins after `stop` has been set. -/
theorem run_safe (acts : List (Act κ)) :
    (run {} acts).fault = false ∧ (∀ c ∈ (run {} acts).calls, c.2 = some c.1) ∧
      (run {} acts).late ≤ 1 := by
  have h := inv_run acts (inv_start (κ := κ))
  refine ⟨h.fault, h.calls, ?_⟩
  cases h.alive with
  | none _ _ _ hlate => exact hlate
  | some _ _ _ hpair => exact Nat.le_trans (Nat.le_add_right _ _) hpair.late

/-! ### After a stop -/

/-- Nothing is left of the thread, and there is no call to create another one. -/
structure Stopped (w : World κ) : Prop where
  periodic : w.periodic = none
  thread : w.thread = none
  caller : w.caller = .idle

/-- The act asks for a poll. -/
def Act.polls : Act κ → Bool
  | request (some _) => true
  | _ => false

theorem Stopped.step {w : World κ} (h : Stopped w) {a : Act κ} (ha : a.polls = false) :
    Stopped (step w a) ∧ (PollThread.step w a).calls = w.calls ∧
      (PollThread.step w a).late = w.late := by
  obtain ⟨hper, hthread, hcaller⟩ := h
  cases a with
  | request next =>
    cases next with
    | some cb => cases ha
    | none =>
      simp only [PollThread.step, request, hcaller, hper]
      exact ⟨⟨rfl, hthread, rfl⟩, rfl, rfl⟩
  | caller created =>
    simp only [PollThread.step, callerStep, hcaller]
    exact ⟨⟨hper, hthread, hcaller⟩, trivial, trivial⟩
  | thread again =>
    simp only [PollThread.step, threadStep, hthread]
    exact ⟨⟨hper, hthread, hcaller⟩, trivial, trivial⟩
  | wake rc =>
    simp only [PollThread.step, wake, hthread]
    exact ⟨⟨hper, rfl, hcaller⟩, trivial, trivial⟩

theorem Stopped.run : ∀ (acts : List (Act κ)) {w : World κ}, Stopped w →
    (∀ a ∈ acts, a.polls = false) → Stopped (PollThread.run w acts) ∧
      (PollThread.run w acts).calls = w.calls ∧ (PollThread.run w acts).late = w.late
  | [], _, h, _ => ⟨h, rfl, rfl⟩
  | a :: acts, _, h, hacts => by
    obtain ⟨hstopped, hcalls, hlate⟩ := h.step (hacts a List.mem_cons_self)
    obtain ⟨hend, hcalls', hlate'⟩ :=
      Stopped.run acts hstopped fun b hb => hacts b (List.mem_cons_of_mem a hb)
    exact ⟨hend, hcalls'.trans hcalls, hlate'.trans hlate⟩

/-- A call to stop has set `stop`, and is at the broadcast or at the join. -/
def Stopping (w : World κ) : Prop := w.caller = .broadcasting none ∨ w.caller = .joining none

/-- With `stop` set, each call that begins is counted. -/
theorem threadRun_late (again : Bool) (cb : κ) (pc : Pc) {p : Periodic} (hstop : p.stop = true)
    (w : World κ) : ∃ l, (threadRun again cb pc p w).calls = w.calls ++ l ∧
      (threadRun again cb pc p w).late = w.late + l.length := by
  have hquiet : ∃ l, w.calls = w.calls ++ l ∧ w.late = w.late + l.length :=
    ⟨[], (List.append_nil _).symm, rfl⟩
  cases pc with
  | unlocked stop rc =>
    cases stop with
    | true => exact hquiet
    | false =>
      cases rc with
      | timedOut => exact ⟨[(cb, w.ctx)], rfl, by simp [threadRun, hstop]⟩
      | _ => exact hquiet
  | _ =>
    unfold threadRun
    dsimp only
    repeat' split
    all_goals exact hquiet

/-- The stop goes on, or is over; each call that begins meanwhile is counted. -/
theorem Stopping.step {w : World κ} (hinv : Inv w) (h : Stopping w) {a : Act κ} (ha : a.polls = false) :
    (Stopping (PollThread.step w a) ∨ Stopped (PollThread.step w a)) ∧
      ∃ l, (PollThread.step w a).calls = w.calls ++ l ∧
        (PollThread.step w a).late = w.late + l.length := by
  have hbusy : w.caller ≠ .idle ∧ w.caller.isCreating = false ∧ w.caller.stopping = true := by
    rcases h with h | h <;> rw [h] <;> exact ⟨nofun, rfl, rfl⟩
  have hquiet : ∃ l, w.calls = w.calls ++ l ∧ w.late = w.late + l.length :=
    ⟨[], (List.append_nil _).symm, rfl⟩
  cases hinv.alive with
  | none _ _ hcaller =>
    rcases hcaller with hidle | hcreating
    · exact absurd hidle hbusy.1
    · rw [hbusy.2.1] at hcreating
      cases hcreating
  | @some p cb pc hper hthread _ hpair =>
    have hstop : p.stop = true := hpair.stop.trans hbusy.2.2
    cases a with
    | request next =>
      rcases h with h | h <;> simp only [PollThread.step, request, h] <;>
        exact ⟨Or.inl (by simp [Stopping, h]), hquiet⟩
    | caller created =>
      rcases h with h | h
      · simp only [PollThread.step, callerStep, h, hper]
        exact ⟨Or.inl (Or.inr rfl), hquiet⟩
      · simp only [PollThread.step, callerStep, h, hper]
        split
        · exact ⟨Or.inr ⟨rfl, rfl, rfl⟩, hquiet⟩
        · exact ⟨Or.inl (Or.inr h), hquiet⟩
    | thread again =>
      simp only [PollThread.step, threadStep_eq hper hthread]
      obtain ⟨-, hsame, -⟩ := threadRun_frame again cb pc p w
      exact ⟨Or.inl (by unfold Stopping; rwa [hsame]), threadRun_late again cb pc hstop w⟩
    | wake rc => exact ⟨Or.inl h, hquiet⟩

/-- What is called until a poll is asked for again has begun before the stop was over. -/
theorem Stopping.run : ∀ (acts : List (Act κ)) {w : World κ}, Inv w → Stopping w →
    (∀ a ∈ acts, a.polls = false) →
    (Stopping (PollThread.run w acts) ∨ Stopped (PollThread.run w acts)) ∧
      ∃ l, (PollThread.run w acts).calls = w.calls ++ l ∧
        (PollThread.run w acts).late = w.late + l.length
  | [], _, _, h, _ => ⟨Or.inl h, [], (List.append_nil _).symm, rfl⟩
  | a :: acts, w, hinv, h, hacts => by
    obtain ⟨hnext, l, hcalls, hlate⟩ := h.step hinv (hacts a List.mem_cons_self)
    have hrest : ∀ b ∈ acts, b.polls = false := fun b hb => hacts b (List.mem_cons_of_mem a hb)
    rcases hnext with hnext | hnext
    · obtain ⟨hend, l', hcalls', hlate'⟩ := Stopping.run acts (inv_step hinv a) hnext hrest
      refine ⟨hend, l ++ l', ?_, ?_⟩
      · rw [← List.append_assoc, ← hcalls]
        exact hcalls'
      · rw [List.length_append, ← Nat.add_assoc, ← hlate]
        exact hlate'
    · obtain ⟨hend, hcalls', hlate'⟩ := Stopped.run acts hnext hrest
      exact ⟨Or.inr hend, l, hcalls'.trans hcalls, hlate'.trans hlate⟩

/-- While `plat_health_poll_stop`, or one of the others, waits in `periodic_destroy`, at most one callback
    is called, and none once it has returned, until a poll is asked for again. -/
theorem silent_after_stop (acts more : List (Act κ)) (hmore : ∀ a ∈ more, a.polls = false) :
    (Stopping (run {} acts) → ∃ l, l.length ≤ 1 ∧
      (run (run {} acts) more).calls = (run {} acts).calls ++ l) ∧
    ((run {} acts).caller = .idle → (run {} acts).periodic = none →
      (run (run {} acts) more).calls = (run {} acts).calls) := by
  have hinv := inv_run acts (inv_start (κ := κ))
  refine ⟨fun hstopping => ?_, fun hidle hnone => ?_⟩
  · obtain ⟨-, l, hcalls, hlate⟩ := Stopping.run more hinv hstopping hmore
    have hone := (run_safe (acts ++ more)).2.2
    rw [run, List.foldl_append, ← run, ← run, hlate] at hone
    exact ⟨l, by omega, hcalls⟩
  · cases hinv.alive with
    | none _ hthread => exact (Stopped.run more ⟨hnone, hthread, hidle⟩ hmore).2.1
    | some hper =>
      rw [hnone] at hper
      cases hper

/-- A poll that is stopped while its callback is due: the thread has given the mutex back, and `stop` is
    set before it calls. -/
def stoppedWhenDue : List (Act Char) :=
  [.request (some 'a'), .caller true, .thread true, .thread true, .wake .timedOut, .thread true,
    .thread true, .request none, .caller true, .caller true]

/-- The callback is called, the thread ends, and the call to stop returns. -/
def stopReturns : List (Act Char) :=
  [.thread true, .caller true, .thread true, .thread true, .thread true, .thread true, .caller true]

example : (run {} (stoppedWhenDue ++ stopReturns)).calls = [('a', some 'a')] := rfl

theorem silent_after_stop_when_due :
    (∃ l, l.length ≤ 1 ∧ (run (run {} stoppedWhenDue) stopReturns).calls =
      (run {} stoppedWhenDue).calls ++ l) ∧
    (run (run {} (stoppedWhenDue ++ stopReturns))
      [.thread true, .request none, .caller true, .wake .timedOut, .thread true]).calls =
      (run {} (stoppedWhenDue ++ stopReturns)).calls :=
  ⟨(silent_after_stop stoppedWhenDue stopReturns (by decide)).1 (Or.inl rfl),
    (silent_after_stop (stoppedWhenDue ++ stopReturns) _ (by decide)).2 rfl rfl⟩

/-! ### `periodic_destroy` returns -/

/-- How many steps a thread that has been told to stop still takes. -/
def Pc.left : Pc → ℕ
  | exited => 0
  | unlocked true _ => 1
  | unlocked false .timedOut => 5
  | unlocked false _ => 1
  | testing _ => 2
  | locking | waking _ | sleeping => 3
  | calling => 4

/-- Nobody keeps the mutex from a thread that the caller waits for. -/
theorem Pair.free {p : Periodic} {pc : Pc} {next : Option κ} {n : ℕ} (h : Pair p pc (.joining next) n)
    (hpc : pc.holds = false) : p.mutex = none := by
  cases hm : p.mutex with
  | none => rfl
  | some owner =>
    cases owner with
    | thread =>
      rw [h.byThread.mp hm] at hpc
      cases hpc
    | caller => cases h.byCaller.mp hm

/-- A thread that the caller waits for gets on with each of its steps. -/
theorem Pair.gets_on {p : Periodic} {pc : Pc} {next : Option κ} {n : ℕ} (h : Pair p pc (.joining next) n)
    (hpc : pc ≠ .exited) (again : Bool) (cb : κ) (w : World κ) :
    ∃ pc', (threadRun again cb pc p w).thread = some (cb, pc') ∧ pc'.left < pc.left := by
  have hstop : p.stop = true := h.stop
  cases pc with
  | locking =>
    refine ⟨.testing .zero, ?_, by decide⟩
    simp only [threadRun, if_pos (h.free rfl)]
  | testing rc =>
    refine ⟨.unlocked true rc, ?_, Nat.lt_succ_self 1⟩
    simp [threadRun, hstop]
  | sleeping => exact absurd rfl (h.awake rfl)
  | waking rc =>
    refine ⟨.testing rc, ?_, Nat.lt_succ_self 2⟩
    simp only [threadRun, if_pos (h.free rfl)]
  | unlocked stop rc =>
    cases stop with
    | true => exact ⟨.exited, rfl, Nat.zero_lt_one⟩
    | false =>
      cases rc with
      | zero => exact ⟨.exited, rfl, Nat.zero_lt_one⟩
      | timedOut => exact ⟨.calling, rfl, Nat.lt_succ_self 4⟩
      | error => exact ⟨.exited, rfl, Nat.zero_lt_one⟩
  | calling =>
    cases again with
    | true => exact ⟨.locking, rfl, Nat.lt_succ_self 3⟩
    | false => exact ⟨.exited, rfl, Nat.zero_lt_succ 3⟩
  | exited => exact absurd rfl hpc

theorem Pc.left_le (pc : Pc) : pc.left ≤ 5 := by
  cases pc with
  | unlocked stop rc => cases stop <;> cases rc <;> decide
  | testing rc => exact Nat.le_add_right 2 3
  | waking rc => exact Nat.le_add_right 3 2
  | _ => decide

/-- It is the thread that goes on. -/
def Act.ofThread : Act κ → Bool
  | thread _ => true
  | _ => false

/-- While the caller waits, the thread comes nearer to its end by its own steps, and by no other act is
    it set back. -/
theorem joining_step {w : World κ} (h : Inv w) {next : Option κ} (hcaller : w.caller = .joining next)
    {cb : κ} {pc : Pc} (hthread : w.thread = some (cb, pc)) (hpc : pc ≠ .exited) (a : Act κ) :
    (step w a).caller = .joining next ∧ ∃ pc', (step w a).thread = some (cb, pc') ∧
      pc'.left + (if a.ofThread then 1 else 0) ≤ pc.left := by
  cases h.alive with
  | none _ hnone =>
    rw [hnone] at hthread
    cases hthread
  | @some p cb' pc' hper hthread' _ hpair =>
    obtain ⟨rfl, rfl⟩ : cb' = cb ∧ pc' = pc := by
      rw [hthread'] at hthread
      cases hthread
      exact ⟨rfl, rfl⟩
    rw [hcaller] at hpair
    cases a with
    | request next' =>
      simp only [step, request, hcaller]
      exact ⟨hcaller, pc', hthread, Nat.le_refl _⟩
    | caller created =>
      have hall : ¬ w.thread.all (·.2 = .exited) = true := by
        rw [hthread]
        simpa using hpc
      simp only [step, callerStep, hcaller, hper, if_neg hall]
      exact ⟨trivial, pc', hthread, Nat.le_refl _⟩
    | thread again =>
      simp only [step, threadStep_eq hper hthread]
      obtain ⟨_, hsame, _⟩ := threadRun_frame again cb' pc' p w
      obtain ⟨pc'', hthread'', hlt⟩ := hpair.gets_on hpc again cb' w
      exact ⟨hsame.trans hcaller, pc'', hthread'', hlt⟩
    | wake rc =>
      refine ⟨hcaller, pc', ?_, Nat.le_refl _⟩
      simp only [step, wake, hthread, Option.map_some, if_neg (hpair.awake rfl)]

/-- A thread that the caller waits for exits, after so many steps of its own. -/
theorem joining_run {next : Option κ} {cb : κ} : ∀ (acts : List (Act κ)) {w : World κ} {pc : Pc}, Inv w →
    w.caller = .joining next → w.thread = some (cb, pc) → pc.left ≤ acts.countP Act.ofThread →
    ∃ acts₁, acts₁ <+: acts ∧ Inv (run w acts₁) ∧ (run w acts₁).caller = .joining next ∧
      (run w acts₁).thread = some (cb, .exited) := by
  intro acts
  induction acts with
  | nil =>
    intro w pc hinv hcaller hthread hleft
    have hexited : pc = .exited := by
      rw [List.countP_nil, Nat.le_zero] at hleft
      cases pc with
      | unlocked stop rc => cases stop <;> cases rc <;> cases hleft
      | exited => rfl
      | _ => cases hleft
    exact ⟨[], List.prefix_refl [], hinv, hcaller, hexited ▸ hthread⟩
  | cons a acts ih =>
    intro w pc hinv hcaller hthread hleft
    by_cases hpc : pc = .exited
    · exact ⟨[], List.nil_prefix, hinv, hcaller, hpc ▸ hthread⟩
    · obtain ⟨hcaller', pc', hthread', hle⟩ := joining_step hinv hcaller hthread hpc a
      have hleft' : pc'.left ≤ acts.countP Act.ofThread := by
        rw [List.countP_cons] at hleft
        omega
      obtain ⟨acts₁, hpre, hrest⟩ := ih (inv_step hinv a) hcaller' hthread' hleft'
      exact ⟨a :: acts₁, List.cons_prefix_cons.mpr ⟨rfl, hpre⟩, hrest⟩

/-- `periodic_destroy` returns: wherever the thread has been when it was told to stop, five steps of its
    own are enough for the join, whatever else happens between them. -/
theorem destroy_returns (acts : List (Act κ)) (next : Option κ)
    (hjoin : (run {} acts).caller = .joining next) (more : List (Act κ))
    (hmore : 5 ≤ more.countP Act.ofThread) (created : Bool) :
    ∃ more₁, more₁ <+: more ∧
      (callerStep created (run (run {} acts) more₁)).caller = .after next := by
  have hinv := inv_run acts (inv_start (κ := κ))
  cases hinv.alive with
  | none _ _ hcaller =>
    rw [hjoin] at hcaller
    rcases hcaller with hidle | hcreating
    · cases hidle
    · cases hcreating
  | @some p cb pc _ hthread =>
    obtain ⟨more₁, hpre, hinv', hcaller, hexited⟩ :=
      joining_run more hinv hjoin hthread (Nat.le_trans pc.left_le hmore)
    refine ⟨more₁, hpre, ?_⟩
    cases hinv'.alive with
    | none _ hnone =>
      rw [hnone] at hexited
      cases hexited
    | some hper =>
      simp [callerStep, hcaller, hper, hexited]

/-- A report that is stopped while its callback is due: the thread has given the mutex back and calls it. -/
theorem destroy_returns_due :
    ∃ more₁, more₁ <+: List.replicate 5 (Act.thread true) ∧
      (callerStep true (run (run {}
        [.request (some 'a'), .caller true, .thread true, .thread true, .wake .timedOut, .thread true,
          .thread true, .request none, .caller true, .caller true, .caller true]) more₁)).caller =
        .after none :=
  destroy_returns _ none rfl _ (by decide) true

end Ucentral.Plat.PollThread
