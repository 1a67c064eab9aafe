import Ucentral.Lib.Run
import Ucentral.Proto.Replies

/-! The two threads that reply to a script.

    `script_plat_handle` hands the context of the script over to the thread that `plat_run_script`
    creates, and then goes on to read it:

        handler   read `c->uri`      send "pending"
        runner    run the script     send the result     free the context

    Nothing orders the one thread against the other. A schedule says whose turn it is; a thread that
    has come to its end lets its turns pass. -/

namespace Ucentral.Proto.Script
open CJson

/-! ### The model -/

/-- `struct proto_script_ctx`. -/
structure Ctx where
  id : ℕ
  uri : Option String
  deriving DecidableEq

/-- A request, `uuid_active` when its two replies are made, and what the calls around it give:
    whether `strdup` finds memory, how the script ends, and what is read of a context that is no
    longer there. -/
structure Request where
  params : Ptr
  id : Double
  uuid : ℤ
  uuidEnd : ℤ
  strdup : Bool
  ended : ScriptEnd
  garbage : Bool

namespace Request

variable (r : Request)

/-- A script request with a uri. -/
def WithUri : Prop :=
  scriptMembers r.params = true ∧ scriptType r.params = true ∧
    (getItem r.params "uri").isSome = true

/-- The context as `script_plat_handle` fills it in. -/
def ctx : Ctx where
  id := r.id.toUInt 64
  uri := if r.strdup then getStringValue (getItem r.params "uri") else none

/-- The reply of the handler. -/
def pending : Reply := scriptReply r.uuid 0 "pending" (r.id.toUInt 32)

/-- The reply of the runner. -/
def final : Reply := scriptResultCb r.uuidEnd r.ctx.id r.ctx.uri.isSome r.ended

end Request

inductive Thread
  | handler | runner
  deriving DecidableEq

/-- Both threads, from the time `plat_run_script` has created the second one: the steps each has
    taken, the context unless it is freed, what the handler has found `c->uri` to be, whether it has
    read the context too late, and what has been sent, by whom. -/
structure St where
  handler : ℕ
  runner : ℕ
  ctx : Option Ctx
  uri : Bool
  useAfterFree : Bool
  sent : List (Thread × Reply)

def St.init (r : Request) : St := ⟨0, 0, some r.ctx, false, false, []⟩

/-- `script_plat_handle` after `plat_run_script`. -/
def handlerStep (r : Request) (s : St) : St :=
  match s.handler with
  | 0 =>
    match s.ctx with
    | some c => { s with uri := c.uri.isSome }
    | none => { s with uri := r.garbage, useAfterFree := true }
  | 1 => if s.uri then { s with sent := s.sent ++ [(.handler, r.pending)] } else s
  | _ => s

/-- The runner: the script itself, and the two ends of `script_result_cb`. -/
def runnerStep (r : Request) (s : St) : St :=
  match s.runner with
  | 1 =>
    match s.ctx with
    | some c =>
      { s with
        sent := s.sent ++ [(.runner, scriptResultCb r.uuidEnd c.id c.uri.isSome r.ended)] }
    | none => s
  | 2 => { s with ctx := none }
  | _ => s

def step (r : Request) (s : St) : Thread → St
  | .handler => { handlerStep r s with handler := s.handler + 1 }
  | .runner => { runnerStep r s with runner := s.runner + 1 }

/-- What a schedule leads to. -/
def run (r : Request) (sched : List Thread) : St := sched.foldl (step r) (St.init r)

/-- Both threads have come to their end. -/
def Complete (sched : List Thread) : Prop := 2 ≤ sched.count .handler ∧ 3 ≤ sched.count .runner

/-- The pending reply and then the final one were sent and nothing else, and no context was read
    after it had been freed. -/
def InOrder (r : Request) (s : St) : Prop :=
  s.sent = [(.handler, r.pending), (.runner, r.final)] ∧ s.useAfterFree = false

/-- By the second turn of the runner the handler has had both of its own. -/
def HandlerFirst (sched : List Thread) : Prop :=
  ∀ pre, pre <+: sched → 2 ≤ pre.count .runner → 2 ≤ pre.count .handler

theorem handlerFirst_concat (sched : List Thread) (t : Thread) :
    HandlerFirst (sched ++ [t]) ↔ HandlerFirst sched ∧
      (2 ≤ (sched ++ [t]).count .runner → 2 ≤ (sched ++ [t]).count .handler) := by
  constructor
  · intro h
    exact ⟨fun pre hp => h pre (hp.trans (List.prefix_append ..)), h _ (List.prefix_refl _)⟩
  · rintro ⟨h, hlast⟩ pre hp
    rcases List.prefix_concat_iff.mp hp with rfl | hp
    · exact hlast
    · exact h pre hp

/-! ### What holds after every schedule -/

section Steps

variable (r : Request) (s : St)

/-- The handler sends in its second step only. Its first step is safe while the context is there, and
    the others do not read it. -/
theorem handlerStep_eq : ∃ uri bad,
    handlerStep r s =
      { s with
        uri := uri
        useAfterFree := bad
        sent := s.sent ++ if s.handler = 1 ∧ s.uri = true then [(.handler, r.pending)] else [] } ∧
    ∀ c, (s.handler = 0 → s.ctx = some c) →
      bad = s.useAfterFree ∧ uri = if s.handler = 0 then c.uri.isSome else s.uri := by
  unfold handlerStep
  split
  · next h0 =>
    cases s.ctx with
    | none =>
      refine ⟨r.garbage, true, by simp [h0], fun c hc => ?_⟩
      cases hc h0
    | some c' =>
      refine ⟨c'.uri.isSome, s.useAfterFree, by simp [h0], fun c hc => ⟨rfl, ?_⟩⟩
      rw [if_pos h0, Option.some.inj (hc h0)]
  · next h1 =>
    refine ⟨s.uri, s.useAfterFree, ?_, fun c _ => ⟨rfl, by simp [h1]⟩⟩
    split
    · next huri => simp [h1, huri]
    · next huri => rw [if_neg fun h => huri h.2, List.append_nil]
  · next h0 h1 =>
    refine ⟨s.uri, s.useAfterFree, ?_, fun c _ => ⟨rfl, (if_neg h0).symm⟩⟩
    rw [if_neg fun h => h1 h.1, List.append_nil]

/-- The runner sends in its second step only, when the context is still there, and frees the context in
    its third. -/
theorem runnerStep_eq (h : s.runner = 1 → s.ctx = some r.ctx) :
    runnerStep r s =
      { s with
        ctx := if s.runner = 2 then none else s.ctx
        sent := s.sent ++ if s.runner = 1 then [(.runner, r.final)] else [] } := by
  unfold runnerStep
  split
  · next h1 => simp [h h1, h1, Request.final]
  · next h2 => simp [h2]
  · next h1 h2 => rw [if_neg h2, if_neg h1, List.append_nil]

end Steps

/-- The replies so far when the handler is ahead. -/
def sentSoFar (r : Request) (sched : List Thread) : List (Thread × Reply) :=
  (if 2 ≤ sched.count .handler ∧ r.ctx.uri.isSome then [(.handler, r.pending)] else []) ++
    if 2 ≤ sched.count .runner then [(.runner, r.final)] else []

/-- What holds after a schedule in which the handler is ahead. -/
structure Early (r : Request) (sched : List Thread) (s : St) : Prop where
  uri : 1 ≤ sched.count .handler → s.uri = r.ctx.uri.isSome
  useAfterFree : s.useAfterFree = false
  sent : s.sent = sentSoFar r sched

/-- What holds after any schedule: how far the threads are, whether the context is still there, and
    which reply came first. -/
structure Inv (r : Request) (sched : List Thread) (s : St) : Prop where
  handler : s.handler = sched.count .handler
  runner : s.runner = sched.count .runner
  ctx : s.ctx = if sched.count .runner < 3 then some r.ctx else none
  early : HandlerFirst sched → Early r sched s
  late : ¬ HandlerFirst sched → s.sent.head? = some (.runner, r.final)

theorem inv_init (r : Request) : Inv r [] (St.init r) := by
  have hfirst : HandlerFirst [] := by
    intro pre hp h
    rw [List.prefix_nil.mp hp] at h
    simp at h
  exact ⟨rfl, rfl, rfl, fun _ => ⟨fun h => absurd h (by simp), rfl, rfl⟩, fun h => absurd hfirst h⟩

variable {r : Request} {s : St} {sched : List Thread}

theorem inv_handler (h : Inv r sched s) : Inv r (sched ++ [.handler]) (step r s .handler) := by
  have hh : (sched ++ [Thread.handler]).count .handler = sched.count .handler + 1 := by simp
  have hr : (sched ++ [Thread.handler]).count .runner = sched.count .runner := by simp
  obtain ⟨uri, bad, hstep, hread⟩ := handlerStep_eq r s
  have hconcat := handlerFirst_concat sched .handler
  rw [hh, hr] at hconcat
  rw [step, hstep]
  refine ⟨?_, ?_, ?_, fun hfirst => ?_, fun hlate => ?_⟩
  · simp [h.handler]
  · simp [h.runner]
  · simp [h.ctx]
  · obtain ⟨hfirst, hlast⟩ := hconcat.mp hfirst
    have hbefore := hfirst sched (List.prefix_refl _)
    obtain ⟨huri, hfree, hs⟩ := h.early hfirst
    -- before the first step of the handler the runner has not come to its second
    obtain ⟨hbad, huri'⟩ := hread r.ctx fun h0 => by
      rw [h.ctx, if_pos]
      rw [h.handler] at h0
      omega
    refine ⟨fun _ => ?_, hbad.trans hfree, ?_⟩
    · rw [h.handler] at huri'
      refine huri'.trans ?_
      split
      · rfl
      · exact huri (by omega)
    · rw [hs, h.handler, sentSoFar, sentSoFar, hh, hr]
      by_cases h1 : sched.count .handler = 1
      · have hn : ¬ 2 ≤ sched.count .runner := fun h2 => by have := hbefore h2; omega
        simp [h1, hn, huri (by omega)]
      · have hiff : 2 ≤ sched.count .handler + 1 ↔ 2 ≤ sched.count .handler := by omega
        simp only [h1, hiff, false_and, if_false, List.append_nil]
  · have hlate' : ¬ HandlerFirst sched := fun hf => hlate (hconcat.mpr ⟨hf, fun h2 => by
      have := hf sched (List.prefix_refl _) h2
      omega⟩)
    rw [List.head?_append, h.late hlate']
    rfl

theorem inv_runner (h : Inv r sched s) : Inv r (sched ++ [.runner]) (step r s .runner) := by
  have hh : (sched ++ [Thread.runner]).count .handler = sched.count .handler := by simp
  have hr : (sched ++ [Thread.runner]).count .runner = sched.count .runner + 1 := by simp
  have hctx : s.runner = 1 → s.ctx = some r.ctx := fun h1 => by
    rw [h.ctx, if_pos]
    rw [h.runner] at h1
    omega
  have hconcat := handlerFirst_concat sched .runner
  rw [hh, hr] at hconcat
  rw [step, runnerStep_eq r s hctx]
  refine ⟨?_, ?_, ?_, fun hfirst => ?_, fun hlate => ?_⟩
  · simp [h.handler]
  · simp [h.runner]
  · rw [h.runner, h.ctx, hr]
    split_ifs <;> first | rfl | omega
  · obtain ⟨hfirst, hlast⟩ := hconcat.mp hfirst
    obtain ⟨huri, hfree, hs⟩ := h.early hfirst
    refine ⟨fun h1 => huri (by omega), hfree, ?_⟩
    · rw [hs, h.runner, sentSoFar, sentSoFar, hh, hr]
      by_cases h1 : sched.count .runner = 1
      · simp [h1]
      · have hiff : 2 ≤ sched.count .runner + 1 ↔ 2 ≤ sched.count .runner := by omega
        simp only [h1, hiff, if_false, List.append_nil]
  · rw [List.head?_append]
    by_cases hf : HandlerFirst sched
    · -- the runner gets its second turn too early, and nothing has been sent yet
      have hturn : ¬ (2 ≤ sched.count .runner + 1 → 2 ≤ sched.count .handler) :=
        fun hlast => hlate (hconcat.mpr ⟨hf, hlast⟩)
      have hbefore := hf sched (List.prefix_refl _)
      have h1 : sched.count .runner = 1 := by omega
      have h2 : ¬ 2 ≤ sched.count .handler := by omega
      rw [(h.early hf).sent, h.runner, sentSoFar, h1]
      simp [h2]
    · rw [h.late hf]
      rfl

theorem inv_run (r : Request) (sched : List Thread) : Inv r sched (run r sched) := by
  refine Run.foldl_of_history (I := Inv r) (fun pre s t h => ?_) sched [] (St.init r) (inv_init r)
  cases t with
  | handler => exact inv_handler h
  | runner => exact inv_runner h

/-- The copy of the uri is there exactly if there was memory for it. -/
theorem ctx_uri (h : r.WithUri) : r.ctx.uri.isSome = r.strdup := by
  obtain ⟨hmembers, -, huri⟩ := h
  simp only [scriptMembers, Bool.and_eq_true] at hmembers
  have hstr := isString_of_optString hmembers.2 huri
  unfold Request.ctx
  cases r.strdup with
  | true => exact hstr
  | false => rfl

/-- A schedule in which the handler is ahead keeps the order. -/
theorem inOrder_run (hr : r.WithUri) (hs : Complete sched) (hcopy : r.strdup = true)
    (hf : HandlerFirst sched) : InOrder r (run r sched) := by
  obtain ⟨-, hfree, hsent⟩ := (inv_run r sched).early hf
  have hrunner : 2 ≤ sched.count .runner := le_trans (by decide) hs.2
  refine ⟨?_, hfree⟩
  rw [hsent, sentSoFar, ctx_uri hr]
  simp [hcopy, hs.1, hrunner]

/-- What is sent is then what a single thread sends that runs the script to its end. -/
theorem sent_eq_scriptReplies (hr : r.WithUri) (hs : Complete sched) (hcopy : r.strdup = true)
    (hf : HandlerFirst sched) : (run r sched).sent.map Prod.snd =
      scriptReplies r.uuid r.params r.id ⟨true, true, true, some (r.uuidEnd, r.ended)⟩ := by
  have huri := ctx_uri hr
  rw [(inOrder_run hr hs hcopy hf).1]
  obtain ⟨hmembers, htype, hsome⟩ := hr
  simp only [scriptReplies, hmembers, htype, hsome, Request.final, huri, hcopy]
  rfl

/-- The two replies are sent once each and in order, and the context is not read after it has been
    freed, exactly if the uri was copied and the handler has had both of its turns when the runner
    gets its second one. -/
theorem inOrder_run_iff (r : Request) (hr : r.WithUri) (sched : List Thread)
    (hs : Complete sched) : InOrder r (run r sched) ↔ r.strdup = true ∧ HandlerFirst sched := by
  constructor
  · rintro ⟨hsent, -⟩
    have h := inv_run r sched
    have hf : HandlerFirst sched := by
      by_contra hf
      have hlate := h.late hf
      rw [hsent] at hlate
      simp at hlate
    refine ⟨?_, hf⟩
    have hearly := (h.early hf).sent
    have hrunner : 2 ≤ sched.count .runner := le_trans (by decide) hs.2
    rw [hsent, sentSoFar, ctx_uri hr] at hearly
    by_contra hcopy
    simp [hcopy, hrunner] at hearly
  · rintro ⟨hcopy, hf⟩
    exact inOrder_run hr hs hcopy hf

/-- A diagnostic script whose output goes to an address. -/
def diagnostic : Request where
  params := getItem (some (diagnosticRequest 1)) "params"
  id := .fin 1
  uuid := 0
  uuidEnd := 0
  strdup := true
  ended := .ended false 0 ""
  garbage := false

theorem diagnostic_withUri : diagnostic.WithUri := ⟨rfl, rfl, rfl⟩

theorem inOrder_run_diagnostic :
    InOrder diagnostic (run diagnostic [.handler, .handler, .runner, .runner, .runner]) ↔
      diagnostic.strdup = true ∧ HandlerFirst [.handler, .handler, .runner, .runner, .runner] :=
  inOrder_run_iff diagnostic ⟨rfl, rfl, rfl⟩ _ ⟨by decide, by decide⟩

/-- A script that ends before the handler goes on: the result is sent first, and the handler then
    reads the context that has been freed. -/
theorem runner_overtakes :
    (run diagnostic [.runner, .runner, .runner, .handler, .handler]).useAfterFree = true ∧
    (run diagnostic [.runner, .runner, .runner, .handler, .handler]).sent =
      [(.runner, diagnostic.final)] ∧
    ¬ ∀ r : Request, r.WithUri → ∀ sched, Complete sched → InOrder r (run r sched) := by
  refine ⟨rfl, rfl, fun h => ?_⟩
  have hbad := (h diagnostic diagnostic_withUri [.runner, .runner, .runner, .handler, .handler]
    ⟨by decide, by decide⟩).2
  have htrue : (run diagnostic [.runner, .runner, .runner, .handler, .handler]).useAfterFree = true :=
    rfl
  rw [htrue] at hbad
  cases hbad

end Ucentral.Proto.Script
