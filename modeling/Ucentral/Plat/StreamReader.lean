import Mathlib.Data.Multiset.Filter
import Ucentral.Lib.Completion

/-! The thread behind a gNMI subscription, `RpcStreamReader`.

    The thread starts one operation of the stream at a time and waits for its event in a completion
    queue. `stop` puts an event of its own into the queue and joins the thread. When a call has ended,
    the thread drains the queue, and then either returns or makes the next call. Operations complete,
    `stop` is called and the thread goes on in any order; each of these is one step. -/

namespace Ucentral.Plat.StreamReader
open Completion

/-! ### The thread -/

inductive Tag
  | ctlShutdown
  | stateChange
  | streamStartCall
  | streamRead
  | streamWrite
  | streamWritesDone
  | streamFinish
  deriving DecidableEq, Repr

/-- `STREAM_TAG_BEGIN < t && t < STREAM_TAG_END` -/
def Tag.ofStream : Tag → Bool
  | ctlShutdown | stateChange => false
  | streamStartCall | streamRead | streamWrite | streamWritesDone | streamFinish => true

/-- `grpc_connectivity_state` -/
inductive ChannelState
  | idle | connecting | ready | transientFailure | shutdown
  deriving DecidableEq, Repr

/-- `::grpc::StatusCode` -/
inductive StatusCode
  | ok | cancelled | unknown | invalidArgument | deadlineExceeded | notFound | alreadyExists
  | permissionDenied | unauthenticated | resourceExhausted | failedPrecondition | aborted | outOfRange
  | unimplemented | internal | unavailable | dataLoss
  deriving DecidableEq, Repr

/-- `RpcGnmiSubscribe::on_finish`: does the subscription end with the call? -/
def onFinish : StatusCode → Bool
  | .unimplemented | .invalidArgument | .unknown | .notFound | .outOfRange | .unauthenticated => true
  | _ => false

/-- What the thread has called, with the response or the status that it passed on. -/
inductive Call (ρ : Type)
  | prepareCall
  | notifyOnStateChange (state : ChannelState)
  | startCall
  | write
  | writesDone
  | read
  | finish
  | onRead (resp : ρ)
  | onFinish (status : StatusCode)
  | shutdown
  | onExit
  deriving DecidableEq, Repr

/-- Where the thread is: in the loop over the events, in the loop that drains the queue, or gone. -/
inductive Phase
  | next | drain | exited
  deriving DecidableEq, Repr

/-- The caller of `stop`: not there yet, in `th.join`, or back. -/
inductive Stopper
  | away | joining | returned
  deriving DecidableEq, Repr

variable {ρ : Type}

/-- The reader, with `stop`, `resp` and `status` of `thread_cb`. -/
structure Reader (ρ : Type) where
  cq : Queue Tag
  phase : Phase
  stop : Bool
  resp : ρ
  status : StatusCode
  stopper : Stopper
  /-- Everything the thread has called so far. -/
  calls : List (Call ρ)
  /-- Every response that the stream has put into `resp` so far. -/
  got : List ρ

/-- An operation of the stream or of the channel. -/
def Reader.start (r : Reader ρ) (t : Tag) (c : Call ρ) : Reader ρ :=
  { r with cq := r.cq.start t, calls := r.calls ++ [c] }

/-- The beginning of a turn of the outer loop. -/
def prepare [Inhabited ρ] (r : Reader ρ) : Reader ρ :=
  Reader.start
    { r with phase := .next, resp := default, status := .ok, calls := r.calls ++ [.prepareCall] }
    .stateChange (.notifyOnStateChange .idle)

/-- The end of the inner loop. -/
def leave (r : Reader ρ) : Reader ρ :=
  { r with phase := .drain, calls := r.calls ++ if r.stop then [.shutdown] else [] }

/-- `rpc.on_read(resp)`, which never cancels the call. -/
def onRead (r : Reader ρ) : Reader ρ := { r with calls := r.calls ++ [.onRead r.resp] }

/-- A turn of the inner loop, with the event that `Next` returns and the state of the channel. -/
def handle (e : Tag × Bool) (state : ChannelState) (r : Reader ρ) : Reader ρ :=
  if e.1 = .ctlShutdown then leave { r with stop := true }
  else if !e.2 && e.1.ofStream then r.start .streamFinish .finish
  else match e.1 with
    | .ctlShutdown => r
    | .streamFinish =>
      leave { r with
        stop := r.stop || onFinish r.status
        calls := r.calls ++ [.onFinish r.status] }
    | .stateChange =>
      match state with
      | .shutdown => leave { r with stop := true }
      | .ready => r.start .streamStartCall .startCall
      | state => r.start .stateChange (.notifyOnStateChange state)
    | .streamStartCall => r.start .streamWrite .write
    | .streamWrite => r.start .streamWritesDone .writesDone
    | .streamWritesDone => r.start .streamRead .read
    | .streamRead => (onRead r).start .streamRead .read

/-- The queue is drained. -/
def drained [Inhabited ρ] (r : Reader ρ) : Reader ρ :=
  if r.stop then { r with phase := .exited, calls := r.calls ++ [.onExit] } else prepare r

/-! ### Its surroundings -/

/-- What a completed operation leaves behind: a message is read, the status is there. -/
def completed (t : Tag) (ok : Bool) (resp : ρ) (status : StatusCode) (r : Reader ρ) : Reader ρ :=
  let r := { r with cq := r.cq.complete t ok }
  match t, ok with
  | .streamRead, true => { r with resp := resp, got := r.got ++ [resp] }
  | .streamFinish, _ => { r with status := status }
  | _, _ => r

inductive Act (ρ : Type)
  | complete (t : Tag) (ok : Bool) (resp : ρ) (status : StatusCode)
  | next (e : Tag × Bool) (state : ChannelState)
  | discard (e : Tag × Bool)
  | drained
  | stop
  | joined

/-- An act happens where it can, and otherwise nothing does. -/
def step [Inhabited ρ] (r : Reader ρ) : Act ρ → Reader ρ
  | .complete t ok resp status => if t ∈ r.cq.pending then completed t ok resp status r else r
  | .next e state =>
    if r.phase = .next ∧ e ∈ r.cq.ready then handle e state { r with cq := r.cq.take e } else r
  | .discard e => if r.phase = .drain ∧ e ∈ r.cq.ready then { r with cq := r.cq.take e } else r
  | .drained => if r.phase = .drain ∧ r.cq.ready = [] then drained r else r
  | .stop =>
    if r.stopper = .away then { r with stopper := .joining, cq := r.cq.start .ctlShutdown } else r
  | .joined => if r.stopper = .joining ∧ r.phase = .exited then { r with stopper := .returned } else r

/-- `thread_cb` at its first `Next`. -/
def started [Inhabited ρ] : Reader ρ := prepare
  { cq := {}, phase := .next, stop := false, resp := default, status := .ok, stopper := .away,
    calls := [], got := [] }

def run [Inhabited ρ] (acts : List (Act ρ)) : Reader ρ := acts.foldl step started

/-- `Finish` always completes with `ok`, as gRPC documents it. -/
def Act.Documented : Act ρ → Prop
  | complete t ok _ _ => t = .streamFinish → ok = true
  | _ => True

/-! ### The order of the calls -/

/-- What a call of gRPC may follow, and when the callbacks of the subscription are called. -/
inductive Stage
  | idle | prepared | waiting | starting | writing | closing | reading | handed | finishing | ended
  | stopping | exited
  deriving DecidableEq, Repr

/-- The operation in flight at a stage. -/
def Stage.op : Stage → Option Tag
  | waiting => some .stateChange
  | starting => some .streamStartCall
  | writing => some .streamWrite
  | closing => some .streamWritesDone
  | reading => some .streamRead
  | finishing => some .streamFinish
  | _ => none

/-- The stage after a call; there is none where the call is out of order. -/
def Stage.after : Stage → Call ρ → Option Stage
  | idle, .prepareCall => some prepared
  | prepared, .notifyOnStateChange _ => some waiting
  | waiting, .notifyOnStateChange _ => some waiting
  | waiting, .startCall => some starting
  | starting, .write => some writing
  | writing, .writesDone => some closing
  | closing, .read => some reading
  | reading, .onRead _ => some handed
  | handed, .read => some reading
  | starting, .finish | writing, .finish | closing, .finish | reading, .finish => some finishing
  | finishing, .onFinish status => some (if StreamReader.onFinish status then ended else idle)
  | waiting, .shutdown | starting, .shutdown | writing, .shutdown | closing, .shutdown
  | reading, .shutdown | finishing, .shutdown | ended, .shutdown => some stopping
  | stopping, .onExit => some exited
  | _, _ => none

/-- The stage that the calls lead to. -/
def stageOf (calls : List (Call ρ)) : Option Stage := calls.foldlM Stage.after .idle

theorem stageOf_append {calls : List (Call ρ)} {st : Stage} (h : stageOf calls = some st)
    (more : List (Call ρ)) : stageOf (calls ++ more) = more.foldlM Stage.after st := by
  unfold stageOf at h ⊢
  rw [List.foldlM_append, h]
  rfl

theorem Stage.after_shutdown {st : Stage} {t : Tag} (h : st.op = some t) :
    st.after (.shutdown : Call ρ) = some stopping := by
  cases st <;> first | rfl | cases h

/-- The responses that the subscription has been called with. -/
def Reader.delivered (r : Reader ρ) : List ρ :=
  r.calls.filterMap fun
    | .onRead resp => some resp
    | _ => none

/-! ### What is in flight -/

/-- The operations in flight that the thread has started. -/
def Reader.ops (r : Reader ρ) : Multiset Tag := r.cq.inFlight.filter (· ≠ .ctlShutdown)

/-- How many times the event of `stop` is in flight. -/
def Reader.ctl (r : Reader ρ) : ℕ := r.cq.inFlight.count .ctlShutdown

/-- The response that has been read and not been handed on yet. -/
def Reader.fresh (r : Reader ρ) : List ρ := if (Tag.streamRead, true) ∈ r.cq.ready then [r.resp] else []

theorem ops_start (r : Reader ρ) {t : Tag} (h : t ≠ .ctlShutdown) (c : Call ρ) :
    (r.start t c).ops = t ::ₘ r.ops := by
  unfold Reader.ops Reader.start
  rw [Queue.inFlight_start]
  exact Multiset.filter_cons_of_pos _ h

theorem ops_take {r : Reader ρ} {e : Tag × Bool} (he : e ∈ r.cq.ready) (h : e.1 ≠ .ctlShutdown) :
    r.ops = e.1 ::ₘ Reader.ops { r with cq := r.cq.take e } := by
  unfold Reader.ops
  rw [Queue.inFlight_take he]
  exact Multiset.filter_cons_of_pos _ h

theorem ops_take_ctl {r : Reader ρ} {e : Tag × Bool} (he : e ∈ r.cq.ready) (h : e.1 = .ctlShutdown) :
    Reader.ops { r with cq := r.cq.take e } = r.ops := by
  unfold Reader.ops
  rw [Queue.inFlight_take he]
  exact (Multiset.filter_cons_of_neg (r.cq.take e).inFlight (not_not.mpr h)).symm

theorem mem_ops_of_ready {r : Reader ρ} {e : Tag × Bool} (he : e ∈ r.cq.ready)
    (h : e.1 ≠ .ctlShutdown) : e.1 ∈ r.ops :=
  Multiset.mem_filter.mpr ⟨Queue.mem_inFlight_of_ready he, h⟩

theorem fresh_eq_nil {r : Reader ρ} (h : Tag.streamRead ∉ r.ops) : r.fresh = [] := by
  unfold Reader.fresh
  rw [if_neg]
  intro hready
  exact h (mem_ops_of_ready hready (by decide))

/-! ### The invariant -/

/-- Where the thread is, what is in flight, and what has been handed on. -/
inductive Consistent (r : Reader ρ) : Stage → Prop
  | looping {st : Stage} {t : Tag} (hop : st.op = some t) (hphase : r.phase = .next)
      (hstop : r.stop = false) (hops : r.ops = {t}) (hgot : r.got = r.delivered ++ r.fresh) :
      Consistent r st
  | between (hphase : r.phase = .drain) (hstop : r.stop = false) (hops : r.ops = 0)
      (hgot : r.got = r.delivered) : Consistent r .idle
  | gone {st : Stage}
      (hphase : r.phase = .drain ∧ st = .stopping ∨ r.phase = .exited ∧ st = .exited)
      (hstop : r.stop = true) (hops : r.ops.card ≤ 1)
      (hgot : ∃ rest, r.got = r.delivered ++ rest ∧ rest.length + r.cq.pending.count .streamRead ≤ 1) :
      Consistent r st

structure Inv (r : Reader ρ) : Prop where
  finish_ok : (Tag.streamFinish, false) ∉ r.cq.ready
  consistent : ∃ st, stageOf r.calls = some st ∧ Consistent r st

theorem delivered_append (r : Reader ρ) (more : List (Call ρ)) :
    Reader.delivered { r with calls := r.calls ++ more } =
      r.delivered ++ Reader.delivered { r with calls := more } :=
  List.filterMap_append

/-- The thread starts an operation while none is in flight. -/
theorem consistent_start {r : Reader ρ} {st : Stage} (hstage : stageOf r.calls = some st)
    (st' : Stage) (t : Tag) (c : Call ρ) (hafter : st.after c = some st')
    (hop : st'.op = some t) (hphase : r.phase = .next) (hstop : r.stop = false) (hops : r.ops = 0)
    (hgot : r.got = r.delivered) : ∃ st, stageOf (r.start t c).calls = some st ∧
      Consistent (r.start t c) st := by
  have hctl : t ≠ .ctlShutdown := by
    rintro rfl
    cases st' <;> cases hop
  have hsingle : (r.start t c).ops = {t} := by
    rw [ops_start r hctl, hops]
    rfl
  have hfresh : (r.start t c).fresh = [] := by
    have hnil : r.fresh = [] := fresh_eq_nil (by rw [hops]; exact Multiset.notMem_zero _)
    exact hnil
  have hsilent : Reader.delivered { r with calls := [c] } = [] := by
    cases c <;> first | rfl | (cases st <;> cases hafter; cases hop)
  refine ⟨st', ?_, .looping hop hphase hstop hsingle ?_⟩
  · rw [show (r.start t c).calls = r.calls ++ [c] from rfl, stageOf_append hstage]
    simpa using hafter
  · have hdelivered : (r.start t c).delivered = r.delivered := by
      have happend := delivered_append r [c]
      rw [hsilent, List.append_nil] at happend
      exact happend
    rw [hfresh, List.append_nil, hdelivered]
    exact hgot

/-- The thread leaves the loop for good. -/
theorem consistent_leave {r : Reader ρ} {st : Stage} (hstage : stageOf r.calls = some st)
    (hafter : st.after (.shutdown : Call ρ) = some .stopping) (hstop : r.stop = true)
    (hops : r.ops.card ≤ 1)
    (hgot : ∃ rest, r.got = r.delivered ++ rest ∧ rest.length + r.cq.pending.count .streamRead ≤ 1) :
    ∃ st, stageOf (leave r).calls = some st ∧ Consistent (leave r) st := by
  have hcalls : (leave r).calls = r.calls ++ [.shutdown] := by
    unfold leave
    rw [if_pos hstop]
  have hdelivered : (leave r).delivered = r.delivered := by
    unfold Reader.delivered
    rw [hcalls, List.filterMap_append]
    exact List.append_nil _
  refine ⟨.stopping, ?_, .gone (Or.inl ⟨rfl, rfl⟩) hstop hops ?_⟩
  · rw [hcalls, stageOf_append hstage]
    simpa using hafter
  · rw [hdelivered]
    exact hgot

/-- The same with nothing in flight and everything handed on. -/
theorem consistent_leave_clean {r : Reader ρ} {st : Stage} (hstage : stageOf r.calls = some st)
    (hafter : st.after (.shutdown : Call ρ) = some .stopping) (hstop : r.stop = true)
    (hops : r.ops = 0) (hgot : r.got = r.delivered) :
    ∃ st, stageOf (leave r).calls = some st ∧ Consistent (leave r) st := by
  have hpending : r.cq.pending.count .streamRead = 0 := by
    rw [List.count_eq_zero]
    intro hmem
    have hmem' : Tag.streamRead ∈ r.ops :=
      Multiset.mem_filter.mpr ⟨Queue.mem_inFlight_of_pending hmem, by decide⟩
    rw [hops] at hmem'
    exact Multiset.notMem_zero _ hmem'
  refine consistent_leave hstage hafter hstop ?_ ⟨[], ?_, ?_⟩
  · rw [hops]
    exact Nat.zero_le 1
  · rw [hgot, List.append_nil]
  · rw [hpending]
    exact Nat.zero_le 1

/-- While the thread is in the loop, at most one response waits to be handed on. -/
theorem fresh_pending {r : Reader ρ} {t : Tag} (hops : r.ops = {t}) :
    r.fresh.length + r.cq.pending.count .streamRead ≤ 1 := by
  have hle : r.ops.count .streamRead ≤ 1 := by
    rw [hops, Multiset.count_singleton]
    split <;> decide
  have hcount : r.ops.count .streamRead =
      r.cq.pending.count .streamRead + (r.cq.ready.map Prod.fst).count .streamRead := by
    unfold Reader.ops Queue.inFlight
    rw [Multiset.count_filter_of_pos (by decide), Multiset.coe_count, List.count_append]
  have hready : r.fresh.length ≤ (r.cq.ready.map Prod.fst).count .streamRead := by
    unfold Reader.fresh
    split
    · next h => exact List.count_pos_iff.mpr (List.mem_map_of_mem (f := Prod.fst) h)
    · exact Nat.zero_le _
  omega

/-- The events that the thread can get are the one of `stop` and the one of its operation. -/
theorem event_of_looping {r : Reader ρ} {t : Tag} (hops : r.ops = {t}) {e : Tag × Bool}
    (he : e ∈ r.cq.ready) (h : e.1 ≠ .ctlShutdown) :
    e.1 = t ∧ Reader.ops { r with cq := r.cq.take e } = 0 := by
  have htake : e.1 ::ₘ Reader.ops { r with cq := r.cq.take e } = {t} := by rw [← ops_take he h, hops]
  have heq : e.1 = t := by
    have hmem : e.1 ∈ ({t} : Multiset Tag) := by
      rw [← htake]
      exact Multiset.mem_cons_self _ _
    exact Multiset.mem_singleton.mp hmem
  refine ⟨heq, ?_⟩
  rw [heq] at htake
  exact (Multiset.cons_inj_right t).mp htake

/-- Nothing waits to be handed on when the thread gets another event than that of a message. -/
theorem fresh_of_event {r : Reader ρ} {e : Tag × Bool}
    (hops : Reader.ops { r with cq := r.cq.take e } = 0) (h : e ≠ (.streamRead, true)) :
    r.fresh = [] := by
  unfold Reader.fresh
  rw [if_neg]
  intro hready
  have htake : (Tag.streamRead, true) ∈ (r.cq.take e).ready :=
    (List.mem_erase_of_ne h.symm).mpr hready
  have hmem := mem_ops_of_ready (r := { r with cq := r.cq.take e }) htake (by decide)
  rw [hops] at hmem
  exact Multiset.notMem_zero _ hmem

/-- The call has ended: the thread goes on with another one, or leaves for good. -/
theorem consistent_finish {r : Reader ρ} (hstage : stageOf r.calls = some .finishing)
    (hstop : r.stop = false) (hops : r.ops = 0) (hgot : r.got = r.delivered)
    (state : ChannelState) :
    ∃ st, stageOf (handle (.streamFinish, true) state r).calls = some st ∧
      Consistent (handle (.streamFinish, true) state r) st := by
  have hdelivered : r.got = Reader.delivered { r with calls := r.calls ++ [.onFinish r.status] } := by
    rw [delivered_append]
    exact hgot.trans (List.append_nil _).symm
  by_cases hend : onFinish r.status = true
  · have hcalls : stageOf (r.calls ++ [.onFinish r.status]) = some .ended := by
      rw [stageOf_append hstage]
      simp [Stage.after, hend]
    have hend' : (r.stop || onFinish r.status) = true := by rw [hend, Bool.or_true]
    exact consistent_leave_clean
      (r := { r with stop := r.stop || onFinish r.status, calls := r.calls ++ [.onFinish r.status] })
      hcalls rfl hend' hops hdelivered
  · have hcalls : stageOf (r.calls ++ [.onFinish r.status]) = some .idle := by
      rw [stageOf_append hstage]
      simp [Stage.after, hend]
    have hgo : (r.stop || onFinish r.status) = false := by rw [hstop, Bool.eq_false_iff.mpr hend]; rfl
    refine ⟨.idle, ?_, .between rfl hgo hops ?_⟩
    · show stageOf (r.calls ++ [.onFinish r.status] ++ if r.stop || onFinish r.status then _ else _) = _
      rw [hgo]
      exact (congrArg stageOf (List.append_nil _)).trans hcalls
    · show r.got = Reader.delivered { r with
        calls := r.calls ++ [.onFinish r.status] ++ if r.stop || onFinish r.status then _ else _ }
      rw [hgo]
      exact hdelivered.trans (congrArg (fun calls => Reader.delivered { r with calls := calls })
        (List.append_nil _).symm)

/-- What a turn of the loop does with an event of the operation in flight. -/
theorem consistent_event {r : Reader ρ} {st : Stage} {t : Tag} {ok : Bool}
    (hstage : stageOf r.calls = some st) (hop : st.op = some t) (hphase : r.phase = .next)
    (hstop : r.stop = false) (hops : r.ops = 0) (hfinish : t = .streamFinish → ok = true)
    (hgot : r.got = r.delivered ++ if (t, ok) = (.streamRead, true) then [r.resp] else [])
    (state : ChannelState) :
    ∃ st, stageOf (handle (t, ok) state r).calls = some st ∧
      Consistent (handle (t, ok) state r) st := by
  have hnone : (t, ok) ≠ (.streamRead, true) → r.got = r.delivered := by
    intro h
    rwa [if_neg h, List.append_nil] at hgot
  cases st <;> cases hop
  case waiting =>
    have hgot' := hnone (by cases ok <;> decide)
    have hturn : handle (.stateChange, ok) state r =
        match state with
        | .shutdown => leave { r with stop := true }
        | .ready => r.start .streamStartCall .startCall
        | state => r.start .stateChange (.notifyOnStateChange state) := by
      cases ok <;> rfl
    rw [hturn]
    cases state with
    | shutdown =>
      exact consistent_leave_clean (r := { r with stop := true }) hstage rfl rfl hops hgot'
    | ready =>
      exact consistent_start hstage .starting .streamStartCall .startCall rfl rfl hphase hstop hops hgot'
    | idle => exact consistent_start hstage .waiting .stateChange _ rfl rfl hphase hstop hops hgot'
    | connecting => exact consistent_start hstage .waiting .stateChange _ rfl rfl hphase hstop hops hgot'
    | transientFailure =>
      exact consistent_start hstage .waiting .stateChange _ rfl rfl hphase hstop hops hgot'
  case starting =>
    have hgot' := hnone (by cases ok <;> decide)
    cases ok
    · exact consistent_start hstage .finishing .streamFinish .finish rfl rfl hphase hstop hops hgot'
    · exact consistent_start hstage .writing .streamWrite .write rfl rfl hphase hstop hops hgot'
  case writing =>
    have hgot' := hnone (by cases ok <;> decide)
    cases ok
    · exact consistent_start hstage .finishing .streamFinish .finish rfl rfl hphase hstop hops hgot'
    · exact consistent_start hstage .closing .streamWritesDone .writesDone rfl rfl hphase hstop hops hgot'
  case closing =>
    have hgot' := hnone (by cases ok <;> decide)
    cases ok
    · exact consistent_start hstage .finishing .streamFinish .finish rfl rfl hphase hstop hops hgot'
    · exact consistent_start hstage .reading .streamRead .read rfl rfl hphase hstop hops hgot'
  case reading =>
    cases ok
    · exact consistent_start hstage .finishing .streamFinish .finish rfl rfl hphase hstop hops
        (hnone (by decide))
    · -- the message is handed on, and the next one is asked for
      have hcalls : stageOf (onRead r).calls = some .handed := stageOf_append hstage _
      have hdelivered : (onRead r).got = (onRead r).delivered := by
        have happend := delivered_append r [.onRead r.resp]
        exact hgot.trans happend.symm
      exact consistent_start hcalls .reading .streamRead .read rfl rfl hphase hstop hops hdelivered
  case finishing =>
    obtain rfl := hfinish rfl
    have hgot' := hnone (by decide)
    exact consistent_finish hstage hstop hops hgot' state

/-! ### Each act keeps it -/

/-- What an act can do. -/
inductive Moved [Inhabited ρ] (r : Reader ρ) : Act ρ → Reader ρ → Prop
  | stay (a : Act ρ) : Moved r a r
  | complete (t : Tag) (ok : Bool) (resp : ρ) (status : StatusCode) (ht : t ∈ r.cq.pending) :
      Moved r (.complete t ok resp status) (completed t ok resp status r)
  | next (e : Tag × Bool) (state : ChannelState) (hphase : r.phase = .next) (he : e ∈ r.cq.ready) :
      Moved r (.next e state) (handle e state { r with cq := r.cq.take e })
  | discard (e : Tag × Bool) (hphase : r.phase = .drain) (he : e ∈ r.cq.ready) :
      Moved r (.discard e) { r with cq := r.cq.take e }
  | drained (hphase : r.phase = .drain) (hready : r.cq.ready = []) : Moved r .drained (drained r)
  | stop (haway : r.stopper = .away) :
      Moved r .stop { r with stopper := .joining, cq := r.cq.start .ctlShutdown }
  | joined (hjoining : r.stopper = .joining) (hexited : r.phase = .exited) :
      Moved r .joined { r with stopper := .returned }

/-- The act happens where its condition holds. -/
theorem moved_ite [Inhabited ρ] {r r' : Reader ρ} {a : Act ρ} {p : Prop} [Decidable p]
    (h : p → Moved r a r') : Moved r a (if p then r' else r) := by
  by_cases hp : p
  · rw [if_pos hp]
    exact h hp
  · rw [if_neg hp]
    exact .stay a

theorem step_moved [Inhabited ρ] (r : Reader ρ) (a : Act ρ) : Moved r a (step r a) := by
  cases a with
  | complete t ok resp status => exact moved_ite (.complete t ok resp status)
  | next e state => exact moved_ite (fun h => .next e state h.1 h.2)
  | discard e => exact moved_ite (fun h => .discard e h.1 h.2)
  | drained => exact moved_ite (fun h => .drained h.1 h.2)
  | stop => exact moved_ite .stop
  | joined => exact moved_ite (fun h => .joined h.1 h.2)

/-- A turn of the loop takes nothing else out of the queue. -/
theorem ready_handle (t : Tag) (ok : Bool) (state : ChannelState) (r : Reader ρ) :
    (handle (t, ok) state r).cq.ready = r.cq.ready := by
  cases t <;> cases ok <;> first | rfl | (cases state <;> rfl)

theorem inv_next {r : Reader ρ} (h : Inv r) (e : Tag × Bool) (state : ChannelState)
    (hphase : r.phase = .next) (he : e ∈ r.cq.ready) :
    Inv (handle e state { r with cq := r.cq.take e }) := by
  have hready : (handle e state { r with cq := r.cq.take e }).cq.ready = r.cq.ready.erase e :=
    ready_handle e.1 e.2 state _
  refine ⟨?_, ?_⟩
  · rw [hready]
    exact fun hmem => h.finish_ok (List.mem_of_mem_erase hmem)
  obtain ⟨st, hstage, hcons⟩ := h.consistent
  cases hcons with
  | between hdrain => rw [hphase] at hdrain; cases hdrain
  | gone hgone => rw [hphase] at hgone; simp at hgone
  | looping hop _ hstop hops hgot =>
    rename_i t
    by_cases hctl : e.1 = .ctlShutdown
    · have hhandle : handle e state { r with cq := r.cq.take e } =
          leave { r with cq := r.cq.take e, stop := true } := if_pos hctl
      rw [hhandle]
      refine consistent_leave hstage (Stage.after_shutdown hop) rfl ?_
        ⟨r.fresh, hgot, fresh_pending hops⟩
      have hsame := ops_take_ctl he hctl
      rw [hops] at hsame
      exact (congrArg Multiset.card hsame).le
    · obtain ⟨rfl, hzero⟩ := event_of_looping hops he hctl
      refine consistent_event (r := { r with cq := r.cq.take e }) hstage hop hphase hstop hzero ?_ ?_
        state
      · intro hfin
        by_contra hok
        have heq : e = (.streamFinish, false) := Prod.ext hfin (Bool.eq_false_iff.mpr hok)
        exact h.finish_ok (heq ▸ he)
      · by_cases hread : e = (.streamRead, true)
        · have hfresh : r.fresh = [r.resp] := if_pos (hread ▸ he)
          rw [if_pos hread, ← hfresh]
          exact hgot
        · rw [if_neg hread, ← fresh_of_event hzero hread]
          exact hgot

/-- A completed operation changes nothing but the queue, `resp` and `status`. -/
structure Completed (t : Tag) (ok : Bool) (r r' : Reader ρ) : Prop where
  cq : r'.cq = r.cq.complete t ok
  phase : r'.phase = r.phase
  stop : r'.stop = r.stop
  calls : r'.calls = r.calls
  got : ((t, ok) = (.streamRead, true) ∧ r'.got = r.got ++ [r'.resp]) ∨
    (t, ok) ≠ (.streamRead, true) ∧ r'.got = r.got ∧ r'.resp = r.resp

theorem completed_spec (t : Tag) (ok : Bool) (resp : ρ) (status : StatusCode) (r : Reader ρ) :
    Completed t ok r (completed t ok resp status r) := by
  cases t <;> cases ok <;> refine ⟨rfl, rfl, rfl, rfl, ?_⟩ <;>
    first | exact Or.inr ⟨by decide, rfl, rfl⟩ | exact Or.inl ⟨rfl, rfl⟩

theorem inv_complete {r r' : Reader ρ} (h : Inv r) {t : Tag} {ok : Bool}
    (hdoc : t = .streamFinish → ok = true) (ht : t ∈ r.cq.pending) (hr : Completed t ok r r') :
    Inv r' := by
  have hops : r'.ops = r.ops := by
    unfold Reader.ops
    rw [hr.cq, Queue.inFlight_complete ht]
  have hdelivered : r'.delivered = r.delivered := by
    unfold Reader.delivered
    rw [hr.calls]
  have hready : r'.cq.ready = r.cq.ready ++ [(t, ok)] := by
    rw [hr.cq]
    rfl
  have hpending : r'.cq.pending = r.cq.pending.erase t := by
    rw [hr.cq]
    rfl
  refine ⟨?_, ?_⟩
  · rw [hready, List.mem_append, List.mem_singleton]
    rintro (hmem | heq)
    · exact h.finish_ok hmem
    · cases heq
      cases hdoc rfl
  obtain ⟨st, hstage, hcons⟩ := h.consistent
  refine ⟨st, hr.calls ▸ hstage, ?_⟩
  cases hcons with
  | looping hop hphase hstop hops' hgot =>
    refine .looping hop (hr.phase.trans hphase) (hr.stop.trans hstop) (hops.trans hops') ?_
    rw [hdelivered]
    rcases hr.got with ⟨heq, hgot'⟩ | ⟨hne, hgot', hresp⟩
    · -- a message is read; the one before it has been handed on
      have hone := fresh_pending hops'
      have hpos : 0 < r.cq.pending.count .streamRead := by
        cases heq
        exact List.count_pos_iff.mpr ht
      have hnil : r.fresh = [] := List.eq_nil_of_length_eq_zero (by omega)
      have hfresh : r'.fresh = [r'.resp] := by
        unfold Reader.fresh
        rw [if_pos]
        rw [hready, ← heq]
        exact List.mem_append_right _ (List.mem_singleton_self _)
      rw [hgot', hgot, hnil, hfresh, List.append_nil]
    · have hfresh : r'.fresh = r.fresh := by
        have hmem : (Tag.streamRead, true) ∈ r'.cq.ready ↔ (Tag.streamRead, true) ∈ r.cq.ready := by
          rw [hready, List.mem_append, List.mem_singleton]
          exact or_iff_left hne.symm
        unfold Reader.fresh
        rw [hresp, if_congr hmem rfl rfl]
      rw [hgot', hgot, hfresh]
  | between hphase hstop hops' hgot =>
    refine .between (hr.phase.trans hphase) (hr.stop.trans hstop) (hops.trans hops') ?_
    rw [hdelivered]
    rcases hr.got with ⟨heq, hgot'⟩ | ⟨hne, hgot', hresp⟩
    · cases heq
      have hmem : Tag.streamRead ∈ r.ops :=
        Multiset.mem_filter.mpr ⟨Queue.mem_inFlight_of_pending ht, by decide⟩
      rw [hops'] at hmem
      exact absurd hmem (Multiset.notMem_zero _)
    · exact hgot'.trans hgot
  | gone hphase hstop hops' hgot =>
    refine .gone (by rwa [hr.phase]) (hr.stop.trans hstop) (by rwa [hops]) ?_
    obtain ⟨rest, hrest, hcount⟩ := hgot
    rw [hdelivered, hpending]
    rcases hr.got with ⟨heq, hgot'⟩ | ⟨hne, hgot', hresp⟩
    · cases heq
      refine ⟨rest ++ [r'.resp], ?_, ?_⟩
      · rw [hgot', hrest, List.append_assoc]
      · have hpos : 0 < r.cq.pending.count .streamRead := List.count_pos_iff.mpr ht
        rw [List.count_erase_self, List.length_append, List.length_singleton]
        omega
    · have hle : (r.cq.pending.erase t).count .streamRead ≤ r.cq.pending.count .streamRead :=
        List.erase_sublist.count_le _
      exact ⟨rest, hgot'.trans hrest, by omega⟩

theorem inv_discard {r : Reader ρ} (h : Inv r) {e : Tag × Bool} (hphase : r.phase = .drain)
    (he : e ∈ r.cq.ready) : Inv { r with cq := r.cq.take e } := by
  have hops : Reader.ops { r with cq := r.cq.take e } ≤ r.ops :=
    Multiset.filter_le_filter _ (by rw [Queue.inFlight_take he]; exact Multiset.le_cons_self _ _)
  obtain ⟨st, hstage, hcons⟩ := h.consistent
  refine ⟨fun hmem => h.finish_ok (List.mem_of_mem_erase hmem), st, hstage, ?_⟩
  cases hcons with
  | looping _ hnext => rw [hphase] at hnext; cases hnext
  | between _ hstop hops' hgot =>
    exact .between hphase hstop (Multiset.le_zero.mp (hops'.symm ▸ hops)) hgot
  | gone hgone hstop hops' hgot =>
    exact .gone hgone hstop ((Multiset.card_le_card hops).trans hops') hgot

theorem inv_drained [Inhabited ρ] {r : Reader ρ} (h : Inv r) (hphase : r.phase = .drain) :
    Inv (drained r) := by
  obtain ⟨st, hstage, hcons⟩ := h.consistent
  cases hcons with
  | looping _ hnext => rw [hphase] at hnext; cases hnext
  | between _ hstop hops hgot =>
    have hprepare : drained r = prepare r := if_neg (by rw [hstop]; decide)
    rw [hprepare]
    refine ⟨h.finish_ok, ?_⟩
    have hdelivered := delivered_append r [.prepareCall]
    exact consistent_start
      (r := { r with phase := .next, resp := default, status := .ok, calls := r.calls ++ [.prepareCall] })
      (stageOf_append hstage _) .waiting .stateChange (.notifyOnStateChange .idle) rfl rfl rfl hstop hops
      (hgot.trans ((List.append_nil _).symm.trans hdelivered.symm))
  | gone hgone hstop hops hgot =>
    obtain ⟨-, rfl⟩ | ⟨hexited, -⟩ := hgone
    · have hexit : drained r = { r with phase := .exited, calls := r.calls ++ [.onExit] } := if_pos hstop
      have hdelivered : Reader.delivered { r with calls := r.calls ++ [.onExit] } = r.delivered := by
        rw [delivered_append]
        exact List.append_nil _
      rw [hexit]
      refine ⟨h.finish_ok, .exited, stageOf_append hstage _, .gone (Or.inr ⟨rfl, rfl⟩) hstop hops ?_⟩
      obtain ⟨rest, hrest, hcount⟩ := hgot
      exact ⟨rest, hrest.trans (congrArg (· ++ rest) hdelivered.symm), hcount⟩
    · rw [hphase] at hexited
      cases hexited

theorem inv_stop {r : Reader ρ} (h : Inv r) :
    Inv { r with stopper := .joining, cq := r.cq.start .ctlShutdown } := by
  have hops : Reader.ops { r with stopper := .joining, cq := r.cq.start .ctlShutdown } = r.ops := by
    unfold Reader.ops
    rw [Queue.inFlight_start]
    exact Multiset.filter_cons_of_neg r.cq.inFlight (not_not.mpr rfl)
  obtain ⟨st, hstage, hcons⟩ := h.consistent
  refine ⟨h.finish_ok, st, hstage, ?_⟩
  cases hcons with
  | looping hop hphase hstop hops' hgot => exact .looping hop hphase hstop (hops.trans hops') hgot
  | between hphase hstop hops' hgot => exact .between hphase hstop (hops.trans hops') hgot
  | gone hgone hstop hops' hgot =>
    refine .gone hgone hstop (hops ▸ hops') ?_
    obtain ⟨rest, hrest, hcount⟩ := hgot
    refine ⟨rest, hrest, ?_⟩
    rw [show (r.cq.start Tag.ctlShutdown).pending = .ctlShutdown :: r.cq.pending from rfl,
      List.count_cons_of_ne (by decide)]
    exact hcount

theorem inv_joined {r : Reader ρ} (h : Inv r) : Inv { r with stopper := .returned } := by
  obtain ⟨st, hstage, hcons⟩ := h.consistent
  refine ⟨h.finish_ok, st, hstage, ?_⟩
  cases hcons with
  | looping hop hphase hstop hops hgot => exact .looping hop hphase hstop hops hgot
  | between hphase hstop hops hgot => exact .between hphase hstop hops hgot
  | gone hgone hstop hops hgot => exact .gone hgone hstop hops hgot

theorem inv_step [Inhabited ρ] {r : Reader ρ} (h : Inv r) {a : Act ρ} (ha : a.Documented) :
    Inv (step r a) := by
  have hmoved := step_moved r a
  generalize step r a = r' at hmoved ⊢
  cases hmoved with
  | stay => exact h
  | complete t ok resp status ht => exact inv_complete h ha ht (completed_spec t ok resp status r)
  | next e state hphase he => exact inv_next h e state hphase he
  | discard e hphase he => exact inv_discard h hphase he
  | drained hphase => exact inv_drained h hphase
  | stop => exact inv_stop h
  | joined => exact inv_joined h

theorem inv_started [Inhabited ρ] : Inv (started : Reader ρ) := by
  refine ⟨List.not_mem_nil, .waiting, rfl, ?_⟩
  exact .looping rfl rfl rfl rfl rfl

theorem inv_run [Inhabited ρ] (acts : List (Act ρ)) (h : ∀ a ∈ acts, a.Documented) :
    Inv (run acts) := by
  unfold run
  suffices hfold : ∀ r : Reader ρ, Inv r → Inv (acts.foldl step r) from hfold _ inv_started
  induction acts with
  | nil => exact fun _ hr => hr
  | cons a acts ih =>
    intro r hr
    exact ih (fun b hb => h b (List.mem_cons_of_mem _ hb)) _ (inv_step hr (h a (List.mem_cons_self ..)))

/-- Whatever the order of events, the thread calls gRPC and the subscription in the order of the stages,
    waits for one operation while it is in the loop, has at most one in flight ever, and has none when it
    goes on to the next call. -/
theorem run_in_order [Inhabited ρ] (acts : List (Act ρ)) (h : ∀ a ∈ acts, a.Documented) :
    ∃ st, stageOf (run acts).calls = some st ∧ (run acts).ops.card ≤ 1 ∧
      ((run acts).phase = .next → ∃ t, st.op = some t ∧ (run acts).ops = {t}) ∧
      ((run acts).phase = .drain → (run acts).stop = false → st = .idle ∧ (run acts).ops = 0) ∧
      ((run acts).phase = .exited → st = .exited) := by
  obtain ⟨st, hstage, hcons⟩ := (inv_run acts h).consistent
  refine ⟨st, hstage, ?_⟩
  cases hcons with
  | looping hop hphase hstop hops =>
    refine ⟨by rw [hops]; exact le_rfl, fun _ => ⟨_, hop, hops⟩, ?_, ?_⟩ <;> intro hne <;>
      rw [hphase] at hne <;> cases hne
  | between hphase hstop hops =>
    refine ⟨by rw [hops]; exact Nat.zero_le 1, ?_, fun _ _ => ⟨rfl, hops⟩, ?_⟩ <;> intro hne <;>
      rw [hphase] at hne <;> cases hne
  | gone hgone hstop hops =>
    refine ⟨hops, ?_, ?_, ?_⟩
    · intro hne
      rw [hne] at hgone
      simp at hgone
    · intro _ hgo
      rw [hstop] at hgo
      cases hgo
    · intro hne
      rw [hne] at hgone
      simpa using hgone

/-- A call that starts, up to its first read. -/
def connected : List (Act ℕ) :=
  [.complete .stateChange true 0 .ok, .next (.stateChange, true) .ready,
    .complete .streamStartCall true 0 .ok, .next (.streamStartCall, true) .idle,
    .complete .streamWrite true 0 .ok, .next (.streamWrite, true) .idle,
    .complete .streamWritesDone true 0 .ok, .next (.streamWritesDone, true) .idle]

/-- A message that is read and handed on. -/
def message (n : ℕ) : List (Act ℕ) :=
  [.complete .streamRead true n .ok, .next (.streamRead, true) .idle]

/-- The stream breaks, and the queue is drained. -/
def broken : List (Act ℕ) :=
  [.complete .streamRead false 0 .ok, .next (.streamRead, false) .idle,
    .complete .streamFinish true 0 .unavailable, .next (.streamFinish, true) .idle, .drained]

/-- Two messages in two calls. -/
def reconnected : List (Act ℕ) := connected ++ message 7 ++ broken ++ connected ++ message 8

theorem reconnected_documented : ∀ a ∈ reconnected, a.Documented := by
  simp [reconnected, connected, message, broken, Act.Documented]

theorem run_in_order_reconnected : ∃ st, stageOf (run reconnected).calls = some st ∧
    (run reconnected).ops.card ≤ 1 ∧ .onFinish .unavailable ∈ (run reconnected).calls := by
  obtain ⟨st, hstage, hops, -⟩ := run_in_order reconnected reconnected_documented
  exact ⟨st, hstage, hops, by decide⟩

/-- The responses are handed on in the order in which they have been read, each of them once. At most
    the last one is not: its event waits in the queue, or the subscription has been stopped. -/
theorem run_delivers [Inhabited ρ] (acts : List (Act ρ)) (h : ∀ a ∈ acts, a.Documented) :
    ∃ rest, (run acts).got = (run acts).delivered ++ rest ∧ rest.length ≤ 1 ∧
      (rest ≠ [] → (run acts).stop = true ∨ (Tag.streamRead, true) ∈ (run acts).cq.ready) := by
  obtain ⟨st, -, hcons⟩ := (inv_run acts h).consistent
  cases hcons with
  | looping hop hphase hstop hops hgot =>
    have hone := fresh_pending hops
    refine ⟨_, hgot, by omega, fun hne => Or.inr ?_⟩
    by_contra hready
    exact hne (if_neg hready)
  | between hphase hstop hops hgot =>
    exact ⟨[], hgot.trans (List.append_nil _).symm, Nat.zero_le 1, fun hne => absurd rfl hne⟩
  | gone hgone hstop hops hgot =>
    obtain ⟨rest, hrest, hcount⟩ := hgot
    exact ⟨rest, hrest, by omega, fun _ => Or.inl hstop⟩

theorem run_delivers_reconnected : (run reconnected).delivered = [7, 8] ∧
    ∃ rest, (run reconnected).got = [7, 8] ++ rest ∧ rest.length ≤ 1 := by
  have hdelivered : (run reconnected).delivered = [7, 8] := by decide
  obtain ⟨rest, hgot, hrest, -⟩ := run_delivers reconnected reconnected_documented
  rw [hdelivered] at hgot
  exact ⟨hdelivered, rest, hgot, hrest⟩

/-! ### `stop` -/

/-- An act with which the subscription does not end by itself: the channel is not shut down, and the
    status of a call asks for another one. -/
def Act.Lasting : Act ρ → Prop
  | complete t _ _ status => t = .streamFinish → onFinish status = false
  | next _ state => state ≠ .shutdown
  | _ => True

/-- `stop` can still return. -/
def CanReturn [Inhabited ρ] (r : Reader ρ) : Prop :=
  ∃ more : List (Act ρ), (∀ a ∈ more, a.Documented ∧ a.Lasting) ∧ (more.foldl step r).stopper = .returned

/-- The event of `stop` does not reach the loop any more. -/
structure Unheard (r : Reader ρ) : Prop where
  joining : r.stopper = .joining
  going : r.stop = false
  inside : r.phase ≠ .exited
  lasting : onFinish r.status = false
  pending : Tag.ctlShutdown ∉ r.cq.pending
  looping : r.phase = .next → ∀ ok, (Tag.ctlShutdown, ok) ∉ r.cq.ready

theorem unheard_start {r : Reader ρ} (h : Unheard r) {t : Tag} (ht : t ≠ .ctlShutdown) (c : Call ρ) :
    Unheard (r.start t c) := by
  refine ⟨h.joining, h.going, h.inside, h.lasting, ?_, h.looping⟩
  intro hmem
  rcases List.mem_cons.mp hmem with heq | hmem
  · exact ht heq.symm
  · exact h.pending hmem

theorem unheard_handle {r : Reader ρ} (h : Unheard r) (hphase : r.phase = .next) {e : Tag × Bool}
    (he : e ∈ r.cq.ready) {state : ChannelState} (hstate : state ≠ .shutdown) :
    Unheard (handle e state { r with cq := r.cq.take e }) := by
  have htake : Unheard { r with cq := r.cq.take e } :=
    ⟨h.joining, h.going, h.inside, h.lasting, h.pending,
      fun hnext ok hmem => h.looping hnext ok (List.mem_of_mem_erase hmem)⟩
  obtain ⟨t, ok⟩ := e
  cases t with
  | ctlShutdown => exact absurd he (h.looping hphase ok)
  | stateChange =>
    cases ok <;> cases state <;>
      first | exact absurd rfl hstate | exact unheard_start htake (by decide) _
  | streamStartCall => cases ok <;> exact unheard_start htake (by decide) _
  | streamWrite => cases ok <;> exact unheard_start htake (by decide) _
  | streamWritesDone => cases ok <;> exact unheard_start htake (by decide) _
  | streamRead =>
    cases ok with
    | false => exact unheard_start htake (by decide) _
    | true =>
      have hread : Unheard (onRead { r with cq := r.cq.take (.streamRead, true) }) :=
        ⟨htake.joining, htake.going, htake.inside, htake.lasting, htake.pending, htake.looping⟩
      exact unheard_start hread (by decide) _
  | streamFinish =>
    cases ok with
    | false => exact unheard_start htake (by decide) _
    | true =>
      have hgo : (r.stop || onFinish r.status) = false := by rw [h.going, h.lasting]; rfl
      exact ⟨h.joining, hgo, nofun, h.lasting, h.pending, nofun⟩

theorem unheard_complete {r r' : Reader ρ} (h : Unheard r) {t : Tag} {ok : Bool}
    (ht : t ∈ r.cq.pending) (hr : Completed t ok r r') (hstopper : r'.stopper = r.stopper)
    (hstatus : onFinish r'.status = false) : Unheard r' := by
  have hne : t ≠ .ctlShutdown := by
    rintro rfl
    exact h.pending ht
  refine ⟨hstopper.trans h.joining, hr.stop.trans h.going, by rw [hr.phase]; exact h.inside, hstatus,
    ?_, ?_⟩
  · rw [hr.cq]
    exact fun hmem => h.pending (List.mem_of_mem_erase hmem)
  · intro hnext ok' hmem
    rw [hr.cq] at hmem
    rcases List.mem_append.mp hmem with hmem | hmem
    · exact h.looping (hr.phase.symm.trans hnext) ok' hmem
    · exact hne (congrArg Prod.fst (List.mem_singleton.mp hmem)).symm

theorem unheard_step [Inhabited ρ] {r : Reader ρ} (h : Unheard r) {a : Act ρ} (ha : a.Lasting) :
    Unheard (step r a) := by
  have hmoved := step_moved r a
  generalize step r a = r' at hmoved ⊢
  cases hmoved with
  | stay => exact h
  | complete t ok resp status ht =>
    refine unheard_complete h ht (completed_spec t ok resp status r) ?_ ?_
    · cases t <;> cases ok <;> rfl
    · cases t <;> cases ok <;> first | exact h.lasting | exact ha rfl
  | next e state hphase he => exact unheard_handle h hphase he ha
  | discard e hphase he =>
    refine ⟨h.joining, h.going, h.inside, h.lasting, h.pending, ?_⟩
    intro hnext
    exact absurd (hphase.symm.trans hnext) (by decide)
  | drained hphase hready =>
    have hprepare : drained r = prepare r := if_neg (by rw [h.going]; decide)
    rw [hprepare]
    have hidle : Unheard { r with
        phase := .next, resp := default, status := .ok, calls := r.calls ++ [.prepareCall] } := by
      refine ⟨h.joining, h.going, nofun, rfl, h.pending, ?_⟩
      intro _ ok hmem
      rw [hready] at hmem
      exact List.not_mem_nil hmem
    exact unheard_start hidle (by decide) _
  | stop haway => exact absurd (h.joining.symm.trans haway) (by decide)
  | joined _ hexited => exact absurd hexited h.inside

/-- In that case it does not return. -/
theorem unheard_run [Inhabited ρ] : ∀ (more : List (Act ρ)) {r : Reader ρ}, Unheard r →
    (∀ a ∈ more, a.Lasting) → Unheard (more.foldl step r)
  | [], _, h, _ => h
  | a :: more, _, h, hmore =>
      unheard_run more (unheard_step h (hmore a (List.mem_cons_self ..)))
        (fun b hb => hmore b (List.mem_cons_of_mem _ hb))

/-! Otherwise there is a way for it to return. -/

theorem canReturn_of_step [Inhabited ρ] {r : Reader ρ} (a : Act ρ) (ha : a.Documented ∧ a.Lasting)
    (h : CanReturn (step r a)) : CanReturn r := by
  obtain ⟨more, hmore, hreturned⟩ := h
  refine ⟨a :: more, ?_, hreturned⟩
  intro b hb
  rcases List.mem_cons.mp hb with rfl | hb
  · exact ha
  · exact hmore b hb

theorem canReturn_exited [Inhabited ρ] {r : Reader ρ} (hjoin : r.stopper = .joining)
    (hphase : r.phase = .exited) : CanReturn r := by
  refine canReturn_of_step .joined ⟨trivial, trivial⟩ ⟨[], nofun, ?_⟩
  have hstep : step r .joined = { r with stopper := .returned } := if_pos ⟨hjoin, hphase⟩
  show (step r .joined).stopper = .returned
  rw [hstep]

/-- A drain comes to its end: the events that are there are discarded. -/
theorem canReturn_drain [Inhabited ρ] : ∀ (ready : List (Tag × Bool)) {r : Reader ρ},
    r.cq.ready = ready → r.phase = .drain →
    CanReturn (step { r with cq := { r.cq with ready := [] } } .drained) → CanReturn r
  | [], r, hready, _, h => by
      have hsame : { r with cq := { r.cq with ready := [] } } = r := by rw [← hready]
      rw [hsame] at h
      exact canReturn_of_step .drained ⟨trivial, trivial⟩ h
  | e :: ready, r, hready, hphase, h => by
      have he : e ∈ r.cq.ready := by
        rw [hready]
        exact List.mem_cons_self ..
      refine canReturn_of_step (.discard e) ⟨trivial, trivial⟩ ?_
      have hstep : step r (.discard e) = { r with cq := r.cq.take e } := if_pos ⟨hphase, he⟩
      rw [hstep]
      refine canReturn_drain ready ?_ hphase h
      show r.cq.ready.erase e = ready
      rw [hready, List.erase_cons_head]

/-- The thread has left the loop for good. -/
theorem canReturn_stopped [Inhabited ρ] {r : Reader ρ} (hjoin : r.stopper = .joining)
    (hstop : r.stop = true) (hphase : r.phase = .drain) : CanReturn r := by
  refine canReturn_drain _ rfl hphase ?_
  have hstep : step { r with cq := { r.cq with ready := [] } } .drained =
      drained { r with cq := { r.cq with ready := [] } } := if_pos ⟨hphase, rfl⟩
  have hexit : drained { r with cq := { r.cq with ready := [] } } = { r with
      cq := { r.cq with ready := [] }, phase := .exited, calls := r.calls ++ [.onExit] } := if_pos hstop
  rw [hstep, hexit]
  exact canReturn_exited hjoin rfl

/-- The event of `stop` waits while the thread is in the loop. -/
theorem canReturn_ready [Inhabited ρ] {r : Reader ρ} (hjoin : r.stopper = .joining)
    (hphase : r.phase = .next) {ok : Bool} (hctl : (Tag.ctlShutdown, ok) ∈ r.cq.ready) : CanReturn r := by
  refine canReturn_of_step (.next (.ctlShutdown, ok) .idle) ⟨trivial, nofun⟩ ?_
  have hstep : step r (.next (.ctlShutdown, ok) .idle) =
      leave { r with cq := r.cq.take (.ctlShutdown, ok), stop := true } := if_pos ⟨hphase, hctl⟩
  rw [hstep]
  exact canReturn_stopped hjoin rfl rfl

/-- The event of `stop` is on its way while the thread is in the loop. -/
theorem canReturn_pending [Inhabited ρ] {r : Reader ρ} (hjoin : r.stopper = .joining)
    (hphase : r.phase = .next) (hctl : Tag.ctlShutdown ∈ r.cq.pending) : CanReturn r := by
  refine canReturn_of_step (.complete .ctlShutdown true default .ok) ⟨nofun, nofun⟩ ?_
  have hstep : step r (.complete .ctlShutdown true default .ok) =
      { r with cq := r.cq.complete .ctlShutdown true } := if_pos hctl
  rw [hstep]
  exact canReturn_ready hjoin hphase (List.mem_append_right _ (List.mem_singleton_self _))

theorem status_handle (t : Tag) (ok : Bool) (state : ChannelState) (r : Reader ρ) :
    (handle (t, ok) state r).status = r.status := by
  cases t <;> cases ok <;> first | rfl | (cases state <;> rfl)

/-- As long as the subscription does not end by itself, its status does not say so either. -/
theorem lasting_step [Inhabited ρ] {r : Reader ρ} (h : onFinish r.status = false) {a : Act ρ}
    (ha : a.Lasting) : onFinish (step r a).status = false := by
  have hmoved := step_moved r a
  generalize step r a = r' at hmoved ⊢
  cases hmoved with
  | stay => exact h
  | complete t ok resp status ht => cases t <;> cases ok <;> first | exact h | exact ha rfl
  | next e state =>
    rw [status_handle e.1 e.2 state]
    exact h
  | discard e => exact h
  | drained =>
    unfold drained
    split
    · exact h
    · rfl
  | stop => exact h
  | joined => exact h

theorem lasting_run [Inhabited ρ] (acts : List (Act ρ)) (h : ∀ a ∈ acts, a.Lasting) :
    onFinish (run acts).status = false := by
  unfold run
  suffices hfold : ∀ r : Reader ρ, onFinish r.status = false →
      onFinish (acts.foldl step r).status = false from hfold _ rfl
  induction acts with
  | nil => exact fun _ hr => hr
  | cons a acts ih =>
    intro r hr
    exact ih (fun b hb => h b (List.mem_cons_of_mem _ hb)) _
      (lasting_step hr (h a (List.mem_cons_self ..)))

/-- `stop` can return from where a run has led to, and the subscription does not end by itself, exactly
    if the thread has left the loop for good, or the event of `stop` is on its way or waits while the
    thread is in the loop. The event is lost where it comes while the queue is drained between two
    calls. -/
theorem stop_returns_iff [Inhabited ρ] (acts : List (Act ρ))
    (hacts : ∀ a ∈ acts, a.Documented ∧ a.Lasting) (hjoin : (run acts).stopper = .joining) :
    CanReturn (run acts) ↔ (run acts).stop = true ∨ Tag.ctlShutdown ∈ (run acts).cq.pending ∨
      (run acts).phase = .next ∧ ∃ ok, (Tag.ctlShutdown, ok) ∈ (run acts).cq.ready := by
  have hinv := inv_run acts (fun a ha => (hacts a ha).1)
  have hlasting := lasting_run acts (fun a ha => (hacts a ha).2)
  obtain ⟨st, -, hcons⟩ := hinv.consistent
  generalize run acts = r at hjoin hlasting hcons ⊢
  constructor
  · intro hcan
    by_contra hnone
    obtain ⟨hgo, hpending, hnext⟩ : r.stop ≠ true ∧ Tag.ctlShutdown ∉ r.cq.pending ∧
        ¬ (r.phase = .next ∧ ∃ ok, (Tag.ctlShutdown, ok) ∈ r.cq.ready) := by
      rwa [not_or, not_or] at hnone
    have hgo' : r.stop = false := Bool.eq_false_iff.mpr hgo
    have hinside : r.phase ≠ .exited := by
      cases hcons with
      | looping _ hphase => rw [hphase]; decide
      | between hphase => rw [hphase]; decide
      | gone _ hstop => exact absurd hstop hgo
    have hunheard : Unheard r :=
      ⟨hjoin, hgo', hinside, hlasting, hpending, fun hphase ok hmem => hnext ⟨hphase, ok, hmem⟩⟩
    obtain ⟨more, hmore, hreturned⟩ := hcan
    have hstill := (unheard_run more hunheard (fun a ha => (hmore a ha).2)).joining
    rw [hreturned] at hstill
    cases hstill
  · rintro (hstop | hpending | ⟨hphase, ok, hready⟩)
    · cases hcons with
      | looping _ _ hgo => rw [hstop] at hgo; cases hgo
      | between _ hgo => rw [hstop] at hgo; cases hgo
      | gone hgone =>
        rcases hgone with ⟨hphase, -⟩ | ⟨hphase, -⟩
        · exact canReturn_stopped hjoin hstop hphase
        · exact canReturn_exited hjoin hphase
    · cases hcons with
      | looping _ hphase => exact canReturn_pending hjoin hphase hpending
      | between hphase hgo =>
        refine canReturn_drain _ rfl hphase ?_
        have hstep : step { r with cq := { r.cq with ready := [] } } .drained =
            prepare { r with cq := { r.cq with ready := [] } } :=
          (if_pos ⟨hphase, rfl⟩).trans (if_neg (by rw [hgo]; decide))
        rw [hstep]
        exact canReturn_pending hjoin rfl (List.mem_cons_of_mem _ hpending)
      | gone hgone hstop =>
        rcases hgone with ⟨hphase, -⟩ | ⟨hphase, -⟩
        · exact canReturn_stopped hjoin hstop hphase
        · exact canReturn_exited hjoin hphase
    · exact canReturn_ready hjoin hphase hready

/-- The first call fails, and `stop` is called while the queue is drained. -/
def lostStop : List (Act Unit) :=
  [.complete .stateChange true () .ok, .next (.stateChange, true) .ready,
    .complete .streamStartCall false () .ok, .next (.streamStartCall, false) .idle,
    .complete .streamFinish true () .unavailable, .next (.streamFinish, true) .idle, .stop,
    .complete .ctlShutdown true () .ok, .discard (.ctlShutdown, true), .drained]

theorem stop_lost : (run lostStop).stopper = .joining ∧ ¬ CanReturn (run lostStop) := by
  have hacts : ∀ a ∈ lostStop, a.Documented ∧ a.Lasting := by
    simp [lostStop, Act.Documented, Act.Lasting, onFinish]
  have hjoin : (run lostStop).stopper = .joining := by decide
  refine ⟨hjoin, ?_⟩
  rw [stop_returns_iff lostStop hacts hjoin]
  decide

end Ucentral.Plat.StreamReader
