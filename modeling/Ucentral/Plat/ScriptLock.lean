import Ucentral.Lib.Run
import Ucentral.Plat.Base64

/-! The lock of the script runner.

    One script runs at a time. `script_count` is taken by the thread that calls `plat_run_script` and
    given back by the thread it creates, or by the call itself when it fails further on:

        call     aquire ── join ── fill ── create ── created ── exit
        runner                               └─ running ── releasing ── returning ── ended

    A run is any sequence of calls and of turns of the threads. -/

namespace Ucentral.Plat.Script
open Base64

/-! ### The model -/

/-- `enum` of the script types. -/
inductive ScriptType
  | shell | diagnostics | other
  deriving DecidableEq

/-- `struct plat_run_script`, and which of the calls made for it succeed. -/
structure RunScript where
  type : ScriptType
  timeout : ℤ
  scriptBase64 : List UInt8
  calloc : Bool
  malloc : Bool
  create : Bool

/-- `INT_MAX`. -/
def intMax : ℤ := 2 ^ 31 - 1

/-- `struct script_ctx`. The two buffers are pointers that are NULL or not; they keep their values when
    what they point to is freed. -/
structure ScriptCtx where
  tid : ℕ := 0
  isTidValid : Bool := false
  t : ℤ := 0
  scriptBuf : Bool := false
  scriptBufsz : ℕ := 0
  outbuf : Bool := false

/-- Where the thread is that calls `plat_run_script`. -/
inductive Pc
  | idle
  | aquire (p : RunScript)
  | join (p : RunScript)
  | fill (p : RunScript)
  | create (p : RunScript)
  | created
  | exit

/-- Where a runner is; `releasing` is after the callback. -/
inductive RunnerPc
  | running | releasing | returning | ended
  deriving DecidableEq

/-- A thread of `script_runner` or `diagnostic_runner`, and how often it has released the lock. -/
structure Runner where
  pc : RunnerPc
  releases : ℕ

structure St where
  scriptCount : ℕ := 0
  ctx : ScriptCtx := {}
  pc : Pc := .idle
  ret : Option ℤ := none
  runners : List Runner := []

/-- `script_lock_release`. -/
def scriptLockRelease (s : St) : St :=
  if s.scriptCount ≠ 0 then { s with scriptCount := s.scriptCount - 1 } else s

/-- `switch(p->type)` on the fresh `script_ctx`: the context, and whether there is a runner for it. -/
def fillCtx (p : RunScript) : ScriptCtx × Bool :=
  let ctx : ScriptCtx := { t := p.timeout }
  match p.type with
  | .shell =>
    if !p.calloc then (ctx, false)
    else
      let sz := (base64Decode p.scriptBase64 fun _ => 0).1
      let ctx := { ctx with scriptBuf := true, scriptBufsz := sz }
      if sz = 0 then (ctx, false)
      else if !p.malloc then (ctx, false)
      else ({ ctx with outbuf := true }, true)
  | .diagnostics => (ctx, true)
  | .other => (ctx, false)

/-- A call: the check of the timeout. -/
def callStep (s : St) (p : RunScript) : St :=
  match s.pc with
  | .idle => if p.timeout > intMax then { s with ret := some (-1) } else { s with pc := .aquire p }
  | _ => s

/-- `pthread_join` comes back once the thread has ended. -/
def hasEnded (s : St) (tid : ℕ) : Bool :=
  match s.runners[tid]? with
  | some r => r.pc == .ended
  | none => false

/-- The next step of the call under way. -/
def protoStep (s : St) : St :=
  match s.pc with
  | .idle => s
  | .aquire p =>
    if s.scriptCount = 0 then { s with scriptCount := s.scriptCount + 1, pc := .join p }
    else { s with pc := .idle, ret := some (-1) }
  | .join p =>
    if s.ctx.isTidValid && !hasEnded s s.ctx.tid then s else { s with pc := .fill p }
  | .fill p =>
    { s with ctx := (fillCtx p).1, pc := if (fillCtx p).2 then .create p else .exit }
  | .create p =>
    if p.create then
      { s with
        ctx := { s.ctx with tid := s.runners.length }
        runners := s.runners ++ [⟨.running, 0⟩]
        pc := .created }
    else { s with pc := .exit }
  | .created => { s with ctx := { s.ctx with isTidValid := true }, pc := .exit }
  | .exit =>
    if s.ctx.isTidValid then { s with pc := .idle, ret := some 0 }
    else { scriptLockRelease s with pc := .idle, ret := some (-1) }

/-- The next step of a runner. -/
def runnerStep (s : St) (k : ℕ) : St :=
  match s.runners[k]? with
  | some r =>
    match r.pc with
    | .running => { s with runners := s.runners.set k { r with pc := .releasing } }
    | .releasing =>
      { scriptLockRelease s with
        runners := s.runners.set k ⟨.returning, r.releases + 1⟩ }
    | .returning => { s with runners := s.runners.set k { r with pc := .ended } }
    | .ended => s
  | none => s

inductive Event
  | call (p : RunScript)
  | proto
  | runner (k : ℕ)

def step (s : St) : Event → St
  | .call p => callStep s p
  | .proto => protoStep s
  | .runner k => runnerStep s k

/-! ### What every step keeps -/

/-- The call under way has taken the lock, and has not failed or handed it over. -/
def St.acquired (s : St) : Bool :=
  match s.pc with
  | .join _ | .fill _ | .create _ => true
  | .exit => !s.ctx.isTidValid
  | .idle | .aquire _ | .created => false

/-- The runner has not released the lock yet. -/
def Runner.holds (r : Runner) : Bool := r.releases == 0

/-- There is a thread that has not been joined. -/
def St.joinable (s : St) : Bool :=
  match s.pc with
  | .created => true
  | _ => s.ctx.isTidValid

structure Inv (s : St) : Prop where
  count : s.scriptCount = s.acquired.toNat + s.runners.countP Runner.holds
  le_one : s.scriptCount ≤ 1
  releases : ∀ r ∈ s.runners, r.releases = if r.pc = .running ∨ r.pc = .releasing then 0 else 1
  last : ∀ k r, s.runners[k]? = some r → r.pc ≠ .ended → k = s.ctx.tid ∧ s.joinable = true
  joined : ∀ p, s.pc = .fill p ∨ s.pc = .create p → ∀ r ∈ s.runners, r.pc = .ended
  fresh : ∀ p, s.pc = .create p → s.ctx.isTidValid = false
  tid : s.joinable = true → ∃ r, s.runners[s.ctx.tid]? = some r

theorem inv_init : Inv {} :=
  ⟨rfl, Nat.zero_le 1, nofun, nofun, nofun, nofun, nofun⟩

variable {s : St}

theorem inv_call (p : RunScript) (h : Inv s) : Inv (callStep s p) := by
  unfold callStep
  split
  · next hpc =>
    split
    · exact ⟨by simpa [St.acquired] using h.count, h.le_one, h.releases, h.last, h.joined, h.fresh,
        h.tid⟩
    · refine ⟨?_, h.le_one, h.releases, ?_, nofun, nofun, ?_⟩
      · simpa [St.acquired, hpc] using h.count
      · simpa [St.joinable, hpc] using h.last
      · simpa [St.joinable, hpc] using h.tid
  · exact h

/-- The `switch` works on a fresh `script_ctx`, whose `is_tid_valid` is not set. -/
theorem fillCtx_isTidValid (p : RunScript) : (fillCtx p).1.isTidValid = false := by
  unfold fillCtx
  cases p.type with
  | shell =>
    dsimp only
    split_ifs <;> rfl
  | diagnostics => rfl
  | other => rfl

section Proto

variable {p : RunScript} (h : Inv s)
include h

theorem inv_aquire (hpc : s.pc = .aquire p) : Inv (protoStep s) := by
  have hcount := h.count
  have hlast := h.last
  have htid := h.tid
  simp only [St.acquired, St.joinable, hpc, Bool.toNat_false, Nat.zero_add] at hcount hlast htid
  simp only [protoStep, hpc]
  split
  · next h0 =>
    refine ⟨?_, ?_, h.releases, hlast, nofun, nofun, htid⟩
    · simp only [St.acquired, Bool.toNat_true]
      omega
    · simp [h0]
  · refine ⟨?_, h.le_one, h.releases, hlast, nofun, nofun, htid⟩
    simpa [St.acquired] using hcount

/-- After the join no thread is left that has not ended. -/
theorem inv_join (hpc : s.pc = .join p) : Inv (protoStep s) := by
  have hcount := h.count
  have hlast := h.last
  have htid := h.tid
  simp only [St.acquired, St.joinable, hpc] at hcount hlast htid
  simp only [protoStep, hpc]
  split
  · exact h
  · next hj =>
    refine ⟨hcount, h.le_one, h.releases, hlast, fun _ _ r hr => ?_, nofun, htid⟩
    by_contra hne
    obtain ⟨k, hk⟩ := List.mem_iff_getElem?.mp hr
    obtain ⟨rfl, hvalid⟩ := hlast k r hk hne
    simp [hvalid, hasEnded, hk, hne] at hj

theorem inv_fill (hpc : s.pc = .fill p) : Inv (protoStep s) := by
  have hall := h.joined p (Or.inl hpc)
  have hcount := h.count
  simp only [St.acquired, hpc] at hcount
  have hvalid := fillCtx_isTidValid p
  simp only [protoStep, hpc]
  split
  · exact ⟨hcount, h.le_one, h.releases, fun k r hk hne => absurd (hall r (List.mem_of_getElem? hk)) hne,
      fun _ _ => hall, fun _ _ => hvalid, fun hj => absurd (hvalid.symm.trans hj) (by decide)⟩
  · refine ⟨?_, h.le_one, h.releases,
      fun k r hk hne => absurd (hall r (List.mem_of_getElem? hk)) hne, nofun, nofun,
      fun hj => absurd (hvalid.symm.trans hj) (by decide)⟩
    simpa [St.acquired, hvalid] using hcount

/-- The lock goes over to the thread that is created, or stays with the call that fails. -/
theorem inv_create (hpc : s.pc = .create p) : Inv (protoStep s) := by
  have hall := h.joined p (Or.inr hpc)
  have hvalid := h.fresh p hpc
  have hcount := h.count
  simp only [St.acquired, hpc, Bool.toNat_true] at hcount
  simp only [protoStep, hpc]
  split
  · refine ⟨?_, h.le_one, ?_, ?_, nofun, nofun, fun _ => ⟨⟨.running, 0⟩, ?_⟩⟩
    · have hone : [(⟨.running, 0⟩ : Runner)].countP Runner.holds = 1 := rfl
      rw [hcount, List.countP_append, hone]
      simp only [St.acquired, Bool.toNat_false]
      omega
    · intro r hr
      rcases List.mem_append.mp hr with hr | hr
      · exact h.releases r hr
      · rw [List.mem_singleton.mp hr]
        rfl
    · intro k r hk hne
      refine ⟨?_, rfl⟩
      simp only [List.getElem?_append] at hk
      split at hk
      · exact absurd (hall r (List.mem_of_getElem? hk)) hne
      · have hlen := (List.getElem?_eq_some_iff.mp hk).1
        have htid : k = s.runners.length := by
          simp only [List.length_singleton] at hlen
          omega
        exact htid
    · exact List.getElem?_concat_length
  · refine ⟨?_, h.le_one, h.releases,
      fun k r hk hne => absurd (hall r (List.mem_of_getElem? hk)) hne, nofun, nofun,
      fun hj => absurd (hvalid.symm.trans hj) (by decide)⟩
    simpa [St.acquired, hvalid] using hcount

theorem inv_created (hpc : s.pc = .created) : Inv (protoStep s) := by
  have hcount := h.count
  have hlast := h.last
  have htid := h.tid
  simp only [St.acquired, St.joinable, hpc] at hcount hlast htid
  simp only [protoStep, hpc]
  exact ⟨hcount, h.le_one, h.releases, fun k r hk hne => ⟨(hlast k r hk hne).1, rfl⟩, nofun, nofun,
    fun _ => htid trivial⟩

/-- A call that fails gives the lock back. -/
theorem inv_exit (hpc : s.pc = .exit) : Inv (protoStep s) := by
  have hcount := h.count
  have hlast := h.last
  have htid := h.tid
  have hle := h.le_one
  simp only [St.acquired, St.joinable, hpc] at hcount hlast htid
  simp only [protoStep, hpc]
  split
  · next hv =>
    refine ⟨?_, hle, h.releases, hlast, nofun, nofun, htid⟩
    simpa [St.acquired, hv] using hcount
  · next hv =>
    have hpos : s.scriptCount ≠ 0 := by
      simp [hv] at hcount
      omega
    simp only [scriptLockRelease, if_pos hpos]
    refine ⟨?_, Nat.le_trans (Nat.sub_le ..) hle, h.releases, hlast, nofun, nofun, htid⟩
    simp only [hv] at hcount
    simp [St.acquired, hcount]

end Proto

theorem inv_proto (h : Inv s) : Inv (protoStep s) := by
  cases hpc : s.pc with
  | idle => simpa only [protoStep, hpc] using h
  | aquire p => exact inv_aquire h hpc
  | join p => exact inv_join h hpc
  | fill p => exact inv_fill h hpc
  | create p => exact inv_create h hpc
  | created => exact inv_created h hpc
  | exit => exact inv_exit h hpc

section Runner

variable {k : ℕ} {r r' : Runner} (h : Inv s) (hk : s.runners[k]? = some r)
include h hk

/-- A thread that takes its turn is the one that has not been joined. -/
theorem set_last (hne : r.pc ≠ .ended) (j : ℕ) (q : Runner) (hj : (s.runners.set k r')[j]? = some q)
    (hq : q.pc ≠ .ended) : j = s.ctx.tid ∧ s.joinable = true := by
  by_cases hjk : k = j
  · rw [← hjk]
    exact h.last k r hk hne
  · rw [List.getElem?_set_ne hjk] at hj
    exact h.last j q hj hq

omit hk in
theorem set_tid (hj : s.joinable = true) : ∃ q, (s.runners.set k r')[s.ctx.tid]? = some q := by
  obtain ⟨q, hq⟩ := h.tid hj
  rw [List.getElem?_set]
  have hlen := (List.getElem?_eq_some_iff.mp hq).1
  split_ifs with hk hlen'
  · exact ⟨r', rfl⟩
  · exact absurd hlen (hk ▸ hlen')
  · exact ⟨q, hq⟩

omit h hk in
theorem set_releases (hr' : r'.releases = if r'.pc = .running ∨ r'.pc = .releasing then 0 else 1)
    (hall : ∀ q ∈ s.runners, q.releases = if q.pc = .running ∨ q.pc = .releasing then 0 else 1) :
    ∀ q ∈ s.runners.set k r',
      q.releases = if q.pc = .running ∨ q.pc = .releasing then 0 else 1 := by
  intro q hq
  rcases List.mem_or_eq_of_mem_set hq with hq | rfl
  · exact hall q hq
  · exact hr'

/-- While a thread has not ended no call is in between its join and the creation of another. -/
theorem not_joined (hne : r.pc ≠ .ended) (p : RunScript) : ¬ (s.pc = .fill p ∨ s.pc = .create p) :=
  fun hp => hne (h.joined p hp r (List.mem_of_getElem? hk))

omit h in
/-- The runners that hold the lock, when one of them goes on. -/
theorem countP_set_add (q : Runner) : (s.runners.set k q).countP Runner.holds + r.holds.toNat =
    s.runners.countP Runner.holds + q.holds.toNat := by
  obtain ⟨hlen, hget⟩ := List.getElem?_eq_some_iff.mp hk
  have hcount := List.countP_set (p := Runner.holds) (a := q) hlen
  rw [hget] at hcount
  rw [hcount]
  cases hr : r.holds with
  | false => cases q.holds <;> simp
  | true =>
    have hpos : 0 < s.runners.countP Runner.holds :=
      List.countP_pos_iff.mpr ⟨r, List.mem_of_getElem? hk, hr⟩
    cases q.holds <;> simp <;> omega

/-- A turn in which the lock is not touched. -/
theorem inv_set (hne : r.pc ≠ .ended) (hholds : r'.holds = r.holds)
    (hr' : r'.releases = if r'.pc = .running ∨ r'.pc = .releasing then 0 else 1) :
    Inv { s with runners := s.runners.set k r' } := by
  refine ⟨?_, h.le_one, set_releases hr' h.releases, set_last h hk hne,
    fun p hp => absurd hp (not_joined h hk hne p), h.fresh, set_tid h⟩
  have hset := countP_set_add hk r'
  rw [hholds, Nat.add_right_cancel_iff] at hset
  exact h.count.trans (by rw [hset]; rfl)

/-- The turn in which the lock is released. -/
theorem inv_release (hpc : r.pc = .releasing) :
    Inv { scriptLockRelease s with runners := s.runners.set k ⟨.returning, r.releases + 1⟩ } := by
  have hne : r.pc ≠ .ended := by rw [hpc]; decide
  have hrel : r.releases = 0 := by
    have := h.releases r (List.mem_of_getElem? hk)
    simpa [hpc] using this
  have hholds : r.holds = true := by rw [Runner.holds, hrel]; rfl
  have hset := countP_set_add hk ⟨.returning, r.releases + 1⟩
  rw [hholds, show Runner.holds ⟨.returning, r.releases + 1⟩ = false from rfl] at hset
  simp only [Bool.toNat_true, Bool.toNat_false, Nat.add_zero] at hset
  have hcount := h.count
  have hpos : s.scriptCount ≠ 0 := by omega
  simp only [scriptLockRelease, if_pos hpos]
  refine ⟨?_, Nat.le_trans (Nat.sub_le ..) h.le_one, set_releases ?_ h.releases,
    set_last h hk hne, fun p hp => absurd hp (not_joined h hk hne p), h.fresh, set_tid h⟩
  · have hacq : s.scriptCount - 1 = s.acquired.toNat +
        (s.runners.set k ⟨.returning, r.releases + 1⟩).countP Runner.holds := by omega
    exact hacq
  · simp [hrel]

end Runner

theorem inv_runner (k : ℕ) (h : Inv s) : Inv (runnerStep s k) := by
  unfold runnerStep
  split
  · next r hk =>
    have hrel := h.releases r (List.mem_of_getElem? hk)
    cases hpc : r.pc with
    | running => exact inv_set h hk (by simp [hpc]) rfl (by simpa [hpc] using hrel)
    | releasing => exact inv_release h hk hpc
    | returning => exact inv_set h hk (by simp [hpc]) rfl (by simpa [hpc] using hrel)
    | ended => exact h
  · exact h

theorem inv_step (e : Event) (h : Inv s) : Inv (step s e) := by
  cases e with
  | call p => exact inv_call p h
  | proto => exact inv_proto h
  | runner k => exact inv_runner k h

theorem inv_run (es : List Event) : Inv (es.foldl step {}) :=
  Run.foldl_of_invariant (P := fun _ _ => True) (fun _ e h _ => inv_step e h) es inv_init
    fun _ _ _ => trivial

/-! ### A runner comes to its end -/

/-- The turns a runner has to go. -/
def RunnerPc.left : RunnerPc → ℕ
  | .running => 3
  | .releasing => 2
  | .returning => 1
  | .ended => 0

/-- A turn of the runner `k`. -/
def Event.turnOf (k : ℕ) : Event → Bool
  | .runner j => j == k
  | _ => false

/-- What the calls do leaves the runners that there are as they are. -/
theorem protoStep_runners {k : ℕ} {r : Runner} (hk : s.runners[k]? = some r) :
    (protoStep s).runners[k]? = some r := by
  have hlen := (List.getElem?_eq_some_iff.mp hk).1
  unfold protoStep
  cases s.pc with
  | idle => exact hk
  | aquire p =>
    dsimp only
    split_ifs <;> exact hk
  | join p =>
    dsimp only
    split_ifs <;> exact hk
  | fill p => exact hk
  | create p =>
    dsimp only
    split_ifs
    · exact (List.getElem?_append_left hlen).trans hk
    · exact hk
  | created => exact hk
  | exit =>
    dsimp only [scriptLockRelease]
    split_ifs <;> exact hk

/-- A turn of another runner leaves this one as it is. -/
theorem runnerStep_other {j k : ℕ} (hjk : j ≠ k) :
    (runnerStep s j).runners[k]? = s.runners[k]? := by
  unfold runnerStep scriptLockRelease
  split
  · split
    · exact List.getElem?_set_ne hjk
    · split_ifs <;> exact List.getElem?_set_ne hjk
    · exact List.getElem?_set_ne hjk
    · rfl
  · rfl

/-- Its own turn brings a runner one place further. -/
theorem runnerStep_self {k : ℕ} {r : Runner} (hk : s.runners[k]? = some r) :
    ∃ q, (runnerStep s k).runners[k]? = some q ∧ q.pc.left = r.pc.left - 1 := by
  have hlen := (List.getElem?_eq_some_iff.mp hk).1
  simp only [runnerStep, hk]
  cases hpc : r.pc with
  | running => exact ⟨_, List.getElem?_set_self hlen, rfl⟩
  | releasing =>
    refine ⟨⟨.returning, r.releases + 1⟩, ?_, rfl⟩
    unfold scriptLockRelease
    split_ifs <;> exact List.getElem?_set_self hlen
  | returning => exact ⟨_, List.getElem?_set_self hlen, rfl⟩
  | ended => exact ⟨r, hk, by rw [hpc]; rfl⟩

theorem step_left (e : Event) {k : ℕ} {r : Runner} (hk : s.runners[k]? = some r) :
    ∃ q, (step s e).runners[k]? = some q ∧ q.pc.left = r.pc.left - (e.turnOf k).toNat := by
  cases e with
  | call p =>
    refine ⟨r, ?_, rfl⟩
    simp only [step, callStep]
    cases s.pc with
    | idle =>
      dsimp only
      split_ifs <;> exact hk
    | aquire _ | join _ | fill _ | create _ | created | exit => exact hk
  | proto => exact ⟨r, protoStep_runners hk, rfl⟩
  | runner j =>
    by_cases hjk : j = k
    · obtain ⟨q, hq, hleft⟩ := runnerStep_self hk
      refine ⟨q, by rw [hjk]; exact hq, ?_⟩
      rw [hleft, Event.turnOf, beq_iff_eq.mpr hjk, Bool.toNat_true]
    · refine ⟨r, (runnerStep_other hjk).trans hk, ?_⟩
      rw [Event.turnOf, beq_false_of_ne hjk, Bool.toNat_false, Nat.sub_zero]

/-- Its own turns bring a runner forward, whatever takes place between them. -/
theorem run_left (es : List Event) : ∀ {s : St} {k : ℕ} {r : Runner}, s.runners[k]? = some r →
    ∃ q, (es.foldl step s).runners[k]? = some q ∧
      q.pc.left = r.pc.left - es.countP (Event.turnOf k) := by
  induction es with
  | nil => exact fun hk => ⟨_, hk, rfl⟩
  | cons e es ih =>
    intro s k r hk
    obtain ⟨q, hq, hleft⟩ := step_left e hk
    obtain ⟨q', hq', hleft'⟩ := ih hq
    refine ⟨q', hq', ?_⟩
    rw [hleft', hleft, List.countP_cons, Nat.sub_sub]
    cases e.turnOf k <;> simp [Nat.add_comm]

/-- Three turns are enough for a runner to release the lock and end. -/
theorem ended_of_turns (h : Inv s) {k : ℕ} {r : Runner} (hk : s.runners[k]? = some r)
    {es : List Event} (hes : 3 ≤ es.countP (Event.turnOf k)) :
    (es.foldl step s).runners[k]? = some ⟨.ended, 1⟩ := by
  obtain ⟨q, hq, hleft⟩ := run_left es hk
  have hinv : Inv (es.foldl step s) :=
    Run.foldl_of_invariant (P := fun _ _ => True) (fun _ e h _ => inv_step e h) es h
      fun _ _ _ => trivial
  have hle : r.pc.left ≤ 3 := by cases r.pc <;> decide
  have hpc : q.pc = .ended := by
    have h0 : q.pc.left = 0 := by omega
    revert h0
    cases q.pc <;> simp [RunnerPc.left]
  have hrel := hinv.releases q (List.mem_of_getElem? hq)
  rw [hpc] at hrel
  rw [hq]
  exact congrArg some (by cases q; simp_all)

/-! ### What the callers see -/

/-- The lock in any state of a run. -/
structure Disciplined (s : St) : Prop where
  /-- `script_count` is 0 or 1. -/
  count : s.scriptCount = 0 ∨ s.scriptCount = 1
  /-- It is 1 while a call has the lock or a runner has not released it. -/
  held : s.scriptCount = 1 ↔ s.acquired = true ∨ ∃ r ∈ s.runners, r.releases = 0
  /-- No two threads have not ended. -/
  one : ∀ (j k : ℕ) (q r : Runner), s.runners[j]? = some q → s.runners[k]? = some r →
    q.pc ≠ .ended → r.pc ≠ .ended → j = k
  /-- A runner releases the lock once, and has done so when it ends. -/
  once : ∀ r ∈ s.runners, r.releases ≤ 1 ∧ (r.pc = .ended → r.releases = 1)
  /-- After three turns of its own it has ended, whatever else goes on in between. -/
  ends : ∀ (k : ℕ) (es : List Event), k < s.runners.length → 3 ≤ es.countP (Event.turnOf k) →
    (es.foldl step s).runners[k]? = some ⟨.ended, 1⟩
  /-- A call that fails with the lock leaves it free. -/
  failed : s.acquired = true → (protoStep s).pc = .idle →
    (protoStep s).ret = some (-1) ∧ (protoStep s).scriptCount = 0
  /-- Once every runner has released the lock, a call gets it. -/
  free : ∀ p, (∀ r ∈ s.runners, r.releases = 1) → s.pc = .aquire p → (protoStep s).pc = .join p
  /-- The next call gets it once the runners that there are have had their turns. -/
  next : ∀ (p : RunScript) (es : List Event), s.pc = .idle → p.timeout ≤ intMax →
    (∀ e ∈ es, ∃ k, e = .runner k) → (∀ k < s.runners.length, 3 ≤ es.countP (Event.turnOf k)) →
    ((es ++ [Event.call p, Event.proto]).foldl step s).pc = .join p
  /-- The call that has it waits for one more step of the last runner at most. -/
  joins : ∀ p, s.pc = .join p → (protoStep (runnerStep s s.ctx.tid)).pc = .fill p

/-- The lock is held by the call, or else by the runners that have not released it. -/
theorem holder (h : Inv s) : s.scriptCount = 1 ↔
    s.acquired = true ∨ ∃ r ∈ s.runners, r.releases = 0 := by
  have hcount := h.count
  have hle := h.le_one
  have hpos : (∃ r ∈ s.runners, r.releases = 0) ↔ 0 < s.runners.countP Runner.holds := by
    simp [List.countP_pos_iff, Runner.holds]
  rw [hpos]
  cases hacq : s.acquired with
  | false =>
    simp only [hacq, Bool.toNat_false] at hcount
    refine ⟨fun _ => Or.inr (by omega), ?_⟩
    rintro (hf | hpos)
    · cases hf
    · omega
  | true =>
    simp only [hacq, Bool.toNat_true] at hcount
    exact iff_of_true (by omega) (Or.inl rfl)

/-- When a call has the lock, every runner has released it. -/
theorem released_of_acquired (h : Inv s) (hacq : s.acquired = true) :
    s.runners.countP Runner.holds = 0 := by
  have hcount := h.count
  have hle := h.le_one
  simp only [hacq, Bool.toNat_true] at hcount
  omega

@[simp] theorem runnerStep_pc (k : ℕ) : (runnerStep s k).pc = s.pc := by
  unfold runnerStep scriptLockRelease
  split
  · split
    · rfl
    · split <;> rfl
    · rfl
    · rfl
  · rfl

@[simp] theorem runnerStep_ctx (k : ℕ) : (runnerStep s k).ctx = s.ctx := by
  unfold runnerStep scriptLockRelease
  split
  · split
    · rfl
    · split <;> rfl
    · rfl
    · rfl
  · rfl

/-- A runner that has released the lock has one step to go at most. -/
theorem hasEnded_runnerStep {k : ℕ} {r : Runner} (h : Inv s) (hk : s.runners[k]? = some r)
    (hr : r.releases = 1) : hasEnded (runnerStep s k) k = true := by
  obtain ⟨hlen, -⟩ := List.getElem?_eq_some_iff.mp hk
  have hrel := h.releases r (List.mem_of_getElem? hk)
  rw [hr] at hrel
  cases hpc : r.pc with
  | running => simp [hpc] at hrel
  | releasing => simp [hpc] at hrel
  | returning =>
    simp only [runnerStep, hk, hpc, hasEnded, List.getElem?_set_self hlen]
    rfl
  | ended =>
    simp only [runnerStep, hk, hpc, hasEnded]
    rfl

theorem joins_of_inv (h : Inv s) {p : RunScript} (hpc : s.pc = .join p) :
    (protoStep (runnerStep s s.ctx.tid)).pc = .fill p := by
  have hacq : s.acquired = true := by rw [St.acquired, hpc]
  simp only [protoStep, runnerStep_pc, hpc, runnerStep_ctx]
  rw [if_neg]
  cases hv : s.ctx.isTidValid with
  | false => simp
  | true =>
    obtain ⟨r, hr⟩ := h.tid (by simp only [St.joinable, hpc, hv])
    have hne := List.countP_eq_zero.mp (released_of_acquired h hacq) r (List.mem_of_getElem? hr)
    have hrel := h.releases r (List.mem_of_getElem? hr)
    have hone : r.releases = 1 := by
      simp only [Runner.holds, beq_iff_eq] at hne
      split_ifs at hrel <;> omega
    rw [hasEnded_runnerStep h hr hone]
    simp

/-- A call that comes for the lock when every runner has released it gets it. -/
theorem join_of_released (h : Inv s) (hall : ∀ r ∈ s.runners, r.releases = 1) {p : RunScript}
    (hpc : s.pc = .aquire p) : (protoStep s).pc = .join p := by
  have hnone : s.runners.countP Runner.holds = 0 := by
    rw [List.countP_eq_zero]
    intro r hr
    simp [Runner.holds, hall r hr]
  have h0 : s.scriptCount = 0 := by
    rw [h.count, hnone]
    simp [St.acquired, hpc]
  simp only [protoStep, hpc, if_pos h0]

/-- Turns of the runners leave the calling thread where it is, and start no runner. -/
theorem runners_only : ∀ (es : List Event) (s : St), (∀ e ∈ es, ∃ k, e = .runner k) →
    (es.foldl step s).pc = s.pc ∧ (es.foldl step s).runners.length = s.runners.length
  | [], _, _ => ⟨rfl, rfl⟩
  | e :: es, s, hes => by
      obtain ⟨k, rfl⟩ := hes _ List.mem_cons_self
      have ih := runners_only es (runnerStep s k) fun e he => hes e (List.mem_cons_of_mem _ he)
      refine ⟨ih.1.trans (runnerStep_pc k), ih.2.trans ?_⟩
      unfold runnerStep scriptLockRelease
      split
      · split
        · exact List.length_set
        · split_ifs <;> exact List.length_set
        · exact List.length_set
        · rfl
      · rfl

theorem next_of_inv (h : Inv s) {p : RunScript} {es : List Event} (hpc : s.pc = .idle)
    (hp : p.timeout ≤ intMax) (hes : ∀ e ∈ es, ∃ k, e = .runner k)
    (hturns : ∀ k < s.runners.length, 3 ≤ es.countP (Event.turnOf k)) :
    ((es ++ [Event.call p, Event.proto]).foldl step s).pc = .join p := by
  obtain ⟨hidle, hlen⟩ := runners_only es s hes
  rw [hpc] at hidle
  have hinv : Inv (es.foldl step s) :=
    Run.foldl_of_invariant (P := fun _ _ => True) (fun _ e h _ => inv_step e h) es h
      fun _ _ _ => trivial
  have hrel : ∀ r ∈ (es.foldl step s).runners, r.releases = 1 := by
    intro r hr
    obtain ⟨k, hk⟩ := List.mem_iff_getElem?.mp hr
    have hks : k < s.runners.length := hlen ▸ (List.getElem?_eq_some_iff.mp hk).1
    have hend := ended_of_turns h (List.getElem?_eq_getElem hks) (hturns k hks)
    rw [hk] at hend
    rw [Option.some.inj hend]
  have hcall : callStep (es.foldl step s) p = { es.foldl step s with pc := .aquire p } := by
    simp only [callStep, hidle, if_neg (not_lt.mpr hp)]
  rw [List.foldl_append]
  simp only [List.foldl_cons, List.foldl_nil, step]
  refine join_of_released (inv_call p hinv) ?_ ?_
  · rw [hcall]
    exact hrel
  · rw [hcall]

theorem disciplined_of_inv (h : Inv s) : Disciplined s := by
  have hcount := h.count
  have hle := h.le_one
  refine ⟨by omega, holder h, ?_, ?_, ?_, ?_, fun p hall hpc => join_of_released h hall hpc,
    fun p es hpc hp hes hturns => next_of_inv h hpc hp hes hturns, fun p hpc => joins_of_inv h hpc⟩
  · intro j k q r hj hk hq hr
    exact (h.last j q hj hq).1.trans (h.last k r hk hr).1.symm
  · intro r hr
    rw [h.releases r hr]
    split_ifs with hpc
    · refine ⟨Nat.zero_le 1, fun he => ?_⟩
      simp [he] at hpc
    · exact ⟨le_refl 1, fun _ => rfl⟩
  · exact fun k es hk hes => ended_of_turns h (List.getElem?_eq_getElem hk) hes
  · intro hacq hidle
    have hnone := released_of_acquired h hacq
    simp only [hacq, hnone, Bool.toNat_true] at hcount
    cases hpc : s.pc with
    | exit =>
      have hv : s.ctx.isTidValid = false := by simpa [St.acquired, hpc] using hacq
      simp [protoStep, hpc, hv, scriptLockRelease, hcount]
    | join p =>
      simp only [protoStep, hpc] at hidle
      split at hidle <;> simp_all
    | fill p =>
      simp only [protoStep, hpc] at hidle
      split at hidle <;> simp_all
    | create p =>
      simp only [protoStep, hpc] at hidle
      split at hidle <;> simp_all
    | idle => simp [St.acquired, hpc] at hacq
    | aquire p => simp [St.acquired, hpc] at hacq
    | created => simp [St.acquired, hpc] at hacq

/-- Whatever is called and in whatever order the threads take their turns, the lock is taken and
    given back in pairs. -/
theorem script_lock_disciplined (es : List Event) : Disciplined (es.foldl step {}) :=
  disciplined_of_inv (inv_run es)

end Ucentral.Plat.Script
