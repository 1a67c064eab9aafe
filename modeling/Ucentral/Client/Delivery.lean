import Ucentral.Client.Outbox

/-! What arrives at the other end, over all connections.

    Nothing is lost or sent twice, the order is kept, and a connection starts with the message that
    announces the client. All of it is read off the record of a run. -/

namespace Ucentral.Txq
open Linked

variable {μ : Type}

/-! ### The record -/

namespace Entry

/-- A message of the queue that is written. -/
def sent : Entry μ → Option μ
  | wrote _ (.queued data) => some data
  | _ => none

def queuedData : Entry μ → Option μ
  | enqueued data => some data
  | _ => none

def connectData : Entry μ → Option μ
  | connectSet data => some data
  | _ => none

/-- What another thread than the one of libwebsockets may do. -/
def ofOthers : Entry μ → Bool
  | enqueued _ => true
  | connectSet _ => true
  | _ => false

/-- A write on the connection. -/
def on (conn : ℕ) : Entry μ → Bool
  | wrote n _ => n = conn
  | _ => false

end Entry

def written (log : List (Entry μ)) : List μ := log.filterMap Entry.sent

def enqueuedIn (log : List (Entry μ)) : List μ := log.filterMap Entry.queuedData

def latestConnect (log : List (Entry μ)) : Option μ := (log.filterMap Entry.connectData).getLast?

/-- Nothing is written on the connection yet. -/
def Untouched (conn : ℕ) (log : List (Entry μ)) : Prop := ∀ e ∈ log, e.on conn = false

/-- The message is the latest connect message that was set after the connection was opened, as the
    service thread took it from the slot. Since then only other threads have done something. -/
def LatestConnect (conn : ℕ) (data : μ) (log : List (Entry μ)) : Prop :=
  ∃ before since mid, log = before ++ .opened conn :: since ++ .connectTaken :: mid ∧
    latestConnect since = some data ∧ ∀ e ∈ mid, e.ofOthers = true

/-- The first message on each connection is the latest connect message. -/
def OpensWithConnect (log : List (Entry μ)) : Prop :=
  ∀ pre conn msg post, log = pre ++ .wrote conn msg :: post → Untouched conn pre →
    ∃ data, msg = .connect data ∧ LatestConnect conn data pre

theorem written_silent (log : List (Entry μ)) {e : Entry μ} (h : e.sent = none) :
    written (log ++ [e]) = written log := by
  simp [written, h]

theorem written_sent (log : List (Entry μ)) {e : Entry μ} {data : μ} (h : e.sent = some data) :
    written (log ++ [e]) = written log ++ [data] := by
  simp [written, h]

theorem enqueuedIn_silent (log : List (Entry μ)) {e : Entry μ} (h : e.queuedData = none) :
    enqueuedIn (log ++ [e]) = enqueuedIn log := by
  simp [enqueuedIn, h]

theorem enqueuedIn_enqueued (log : List (Entry μ)) (data : μ) :
    enqueuedIn (log ++ [.enqueued data]) = enqueuedIn log ++ [data] := by
  simp [enqueuedIn, Entry.queuedData]

/-- A message that is set is the latest. -/
theorem latestConnect_append (log : List (Entry μ)) (e : Entry μ) :
    latestConnect (log ++ [e]) = e.connectData.or (latestConnect log) := by
  cases h : e.connectData <;> simp [latestConnect, h]

theorem untouched_append {conn : ℕ} {log : List (Entry μ)} {e : Entry μ} :
    Untouched conn (log ++ [e]) ↔ Untouched conn log ∧ e.on conn = false := by
  simp [Untouched, or_imp, forall_and]

theorem LatestConnect.append {conn : ℕ} {data : μ} {log : List (Entry μ)} {e : Entry μ}
    (h : LatestConnect conn data log) (he : e.ofOthers = true) :
    LatestConnect conn data (log ++ [e]) := by
  obtain ⟨before, since, mid, rfl, hlatest, hmid⟩ := h
  refine ⟨before, since, mid ++ [e], by simp, hlatest, ?_⟩
  simpa [or_imp, forall_and] using ⟨hmid, he⟩

/-- One more entry: only a write can be the first on its connection. -/
theorem opensWithConnect_append {log : List (Entry μ)} {e : Entry μ} (h : OpensWithConnect log)
    (he : ∀ conn msg, e = .wrote conn msg → Untouched conn log →
      ∃ data, msg = .connect data ∧ LatestConnect conn data log) : OpensWithConnect (log ++ [e]) := by
  intro pre conn msg post heq huntouched
  rcases List.eq_nil_or_concat' post with rfl | ⟨post, e', rfl⟩
  · obtain ⟨rfl, hlast⟩ := List.append_inj' heq rfl
    exact he conn msg (List.singleton_injective hlast) huntouched
  · rw [← List.cons_append, ← List.append_assoc] at heq
    exact h pre conn msg post (List.append_inj' heq rfl).1 huntouched

/-! ### The outbox keeps its promises -/

/-- A connection on which nothing is written yet: its connect message is still to come, waits in the
    slot, or is the next to be written. -/
def Outbox.Ready (o : Outbox μ) (conn : ℕ) : Prop :=
  match o.phase with
  | .opening => ∃ before since, o.log = before ++ .opened conn :: since
  | .idle | .pulled => ∃ data before since, o.slot = some data ∧
      o.log = before ++ .opened conn :: since ∧ latestConnect since = some data
  | .writing => ∃ data rest, o.flight = .connect data :: rest ∧ LatestConnect conn data o.log

/-- The messages of the queue among those that are being written. -/
def fromQueue (flight : List (Msg μ)) : List μ :=
  flight.filterMap fun
    | .queued data => some data
    | .connect _ => none

structure Outbox.Inv (o : Outbox μ) : Prop where
  conserved : written o.log ++ fromQueue o.flight ++ o.queue = enqueuedIn o.log
  idle : o.phase = .idle ∨ o.phase = .opening → o.flight = []
  busy : o.phase = .pulled ∨ o.phase = .writing → o.websocket.isSome = true
  known : ∀ conn, o.websocket = some conn → conn < o.conns
  past : ∀ conn, o.conns ≤ conn → Untouched conn o.log
  ready : ∀ conn, o.websocket = some conn → Untouched conn o.log → o.Ready conn
  opens : OpensWithConnect o.log

namespace Outbox.Inv

variable {o : Outbox μ}

theorem start : Outbox.Inv ({} : Outbox μ) where
  conserved := rfl
  idle := fun _ => rfl
  busy := by simp
  known := by simp
  past := by simp [Untouched]
  ready := by simp
  opens := by
    intro pre conn msg post heq
    simp at heq

/-- A connection stays ready while other threads go on. -/
theorem ready_append {o' : Outbox μ} {conn : ℕ} {e : Entry μ} (h : o.Ready conn)
    (hphase : o'.phase = o.phase) (hflight : o'.flight = o.flight)
    (hslot : o'.slot = e.connectData.or o.slot) (hlog : o'.log = o.log ++ [e])
    (he : e.ofOthers = true) : o'.Ready conn := by
  unfold Outbox.Ready at h ⊢
  rw [hphase]
  cases hp : o.phase with
  | opening =>
    simp only [hp] at h
    obtain ⟨before, since, hbefore⟩ := h
    exact ⟨before, since ++ [e], by simp [hlog, hbefore]⟩
  | idle | pulled =>
    simp only [hp] at h
    obtain ⟨data, before, since, hdata, hbefore, hlatest⟩ := h
    refine ⟨e.connectData.getD data, before, since ++ [e], ?_, by simp [hlog, hbefore], ?_⟩
    · rw [hslot, hdata]
      cases e.connectData <;> rfl
    · rw [latestConnect_append, hlatest]
      cases e.connectData <;> rfl
  | writing =>
    simp only [hp] at h
    obtain ⟨data, rest, hrest, hlatest⟩ := h
    exact ⟨data, rest, hflight.trans hrest, hlog ▸ hlatest.append he⟩

theorem enqueue (h : Outbox.Inv o) (a : ℕ) (data : μ) : Outbox.Inv (o.step (.enqueue a data)) where
  conserved := by
    rw [Outbox.step, written_silent o.log rfl, enqueuedIn_enqueued, ← h.conserved]
    exact (List.append_assoc _ _ _).symm
  idle := h.idle
  busy := h.busy
  known := h.known
  past := fun conn hconn => untouched_append.mpr ⟨h.past conn hconn, rfl⟩
  ready := fun conn hconn huntouched =>
    ready_append (h.ready conn hconn (untouched_append.mp huntouched).1) rfl rfl rfl rfl rfl
  opens := opensWithConnect_append h.opens (by simp)

theorem putConnect (h : Outbox.Inv o) (data : μ) : Outbox.Inv (o.putConnect data) where
  conserved := by
    rw [Outbox.putConnect, written_silent o.log rfl, enqueuedIn_silent o.log rfl]
    exact h.conserved
  idle := h.idle
  busy := h.busy
  known := h.known
  past := fun conn hconn => untouched_append.mpr ⟨h.past conn hconn, rfl⟩
  ready := fun conn hconn huntouched =>
    ready_append (h.ready conn hconn (untouched_append.mp huntouched).1) rfl rfl rfl rfl rfl
  opens := opensWithConnect_append h.opens (by simp)

theorem established (h : Outbox.Inv o) (hidle : o.phase = .idle) :
    Outbox.Inv (o.step .established) where
  conserved := by
    rw [Outbox.step, written_silent o.log rfl, enqueuedIn_silent o.log rfl]
    exact h.conserved
  idle := fun _ => h.idle (Or.inl hidle)
  busy := by simp [Outbox.step]
  known := by simp [Outbox.step]
  past := fun conn hconn => untouched_append.mpr ⟨h.past conn (Nat.le_of_succ_le hconn), rfl⟩
  ready := by
    intro conn hconn _
    simp only [Outbox.step, Option.some.injEq] at hconn
    subst hconn
    exact ⟨o.log, [], rfl⟩
  opens := opensWithConnect_append h.opens (by simp)

/-- The connect message of the opening is there before anything is written. -/
theorem connectSend (h : Outbox.Inv o) (hopening : o.phase = .opening) (a : ℕ) (data : μ) :
    Outbox.Inv (o.step (.connectSend a data)) := by
  have hput := putConnect h data
  exact { hput with
    idle := fun _ => h.idle (Or.inr hopening)
    busy := by simp [Outbox.step]
    ready := by
      intro conn hconn huntouched
      have hready := h.ready conn hconn (untouched_append.mp huntouched).1
      simp only [Outbox.Ready, hopening] at hready
      obtain ⟨before, since, hlog⟩ := hready
      refine ⟨data, before, since ++ [.connectSet data], rfl, ?_, latestConnect_append since _⟩
      simp [Outbox.step, Outbox.putConnect, hlog] }

theorem closed (h : Outbox.Inv o) (hidle : o.phase = .idle) : Outbox.Inv (o.step .closed) :=
  { h with
    busy := by simp [Outbox.step, hidle]
    known := by simp [Outbox.step]
    ready := by simp [Outbox.step] }

theorem fromQueue_queued (queue : List μ) : fromQueue (queue.map .queued) = queue := by
  simp [fromQueue, List.filterMap_map]

theorem writeable (h : Outbox.Inv o) (hidle : o.phase = .idle) (hopen : o.websocket.isSome = true) :
    Outbox.Inv (o.step .writeable) :=
  { h with
    conserved := by
      have hcons := h.conserved
      rw [h.idle (Or.inl hidle)] at hcons
      simpa [Outbox.step, fromQueue_queued, fromQueue] using hcons
    idle := by simp [Outbox.step]
    busy := fun _ => hopen
    ready := by
      intro conn hconn huntouched
      have hready := h.ready conn hconn huntouched
      simpa only [Outbox.Ready, hidle, Outbox.step] using hready }

theorem fromQueue_connect (slot : Option μ) (flight : List (Msg μ)) :
    fromQueue (slot.toList.map .connect ++ flight) = fromQueue flight := by
  cases slot <;> simp [fromQueue]

theorem phase_loop_idle {flight : List (Msg μ)} (h : Phase.loop flight = .idle) : flight = [] := by
  cases flight with
  | nil => rfl
  | cons _ _ => cases h

theorem phase_loop_ne (flight : List (Msg μ)) :
    Phase.loop flight ≠ .opening ∧ Phase.loop flight ≠ .pulled := by
  cases flight <;> simp [Phase.loop]

/-- What waits in the slot comes before the rest. -/
theorem takeConnect (h : Outbox.Inv o) (hpulled : o.phase = .pulled) : Outbox.Inv o.takeConnect where
  conserved := by
    rw [Outbox.takeConnect, written_silent o.log rfl, enqueuedIn_silent o.log rfl, fromQueue_connect]
    exact h.conserved
  idle := by
    rintro (hphase | hphase)
    · exact phase_loop_idle hphase
    · exact absurd hphase (phase_loop_ne _).1
  busy := fun _ => h.busy (Or.inl hpulled)
  known := h.known
  past := fun conn hconn => untouched_append.mpr ⟨h.past conn hconn, rfl⟩
  ready := by
    intro conn hconn huntouched
    have hready := h.ready conn hconn (untouched_append.mp huntouched).1
    simp only [Outbox.Ready, hpulled] at hready
    obtain ⟨data, before, since, hslot, hlog, hlatest⟩ := hready
    simp only [Outbox.Ready, Outbox.takeConnect, hslot, Option.toList_some, List.map_cons, List.map_nil,
      List.singleton_append, Phase.loop]
    exact ⟨data, o.flight, rfl, before, since, [], by simp [hlog], hlatest, by simp⟩
  opens := opensWithConnect_append h.opens (by simp)

/-- The first message of a connection is the one that makes it ready. -/
theorem writeFirst (h : Outbox.Inv o) (hwriting : o.phase = .writing) : Outbox.Inv o.writeFirst := by
  obtain ⟨conn, hconn⟩ := Option.isSome_iff_exists.mp (h.busy (Or.inr hwriting))
  cases hflight : o.flight with
  | nil =>
    rw [Outbox.writeFirst, hflight]
    exact h
  | cons msg rest =>
    have hstep : o.writeFirst = { o with
        flight := rest
        phase := .loop rest
        log := o.log ++ [.wrote conn msg] } := by
      rw [Outbox.writeFirst, hflight, hconn]
    rw [hstep]
    exact {
      conserved := by
        have hcons := h.conserved
        rw [hflight] at hcons
        rw [enqueuedIn_silent o.log rfl, ← hcons]
        cases msg with
        | queued data =>
          rw [written_sent o.log rfl]
          simp [fromQueue]
        | connect data =>
          rw [written_silent o.log rfl]
          simp [fromQueue]
      idle := by
        rintro (hphase | hphase)
        · exact phase_loop_idle hphase
        · exact absurd hphase (phase_loop_ne _).1
      busy := fun _ => h.busy (Or.inr hwriting)
      known := h.known
      past := by
        intro n hn
        have hne : conn ≠ n := by
          rintro rfl
          exact absurd (h.known conn hconn) (Nat.not_lt.mpr hn)
        exact untouched_append.mpr ⟨h.past n hn, by simp [Entry.on, hne]⟩
      ready := by
        intro n hn huntouched
        obtain rfl : conn = n := Option.some.inj (hconn.symm.trans hn)
        simp [untouched_append, Entry.on] at huntouched
      opens := by
        refine opensWithConnect_append h.opens ?_
        rintro n msg' hmsg huntouched
        cases hmsg
        have hready := h.ready conn hconn huntouched
        simp only [Outbox.Ready, hwriting, hflight] at hready
        obtain ⟨data, rest', hcons, hlatest⟩ := hready
        cases hcons
        exact ⟨data, rfl, hlatest⟩ }

/-- Every step that can come keeps the promises. -/
theorem step (h : Outbox.Inv o) : ∀ {e : Event μ}, o.Allowed e → Outbox.Inv (o.step e)
  | .enqueue a data, _ => h.enqueue a data
  | .connectUpdate _ data, _ => h.putConnect data
  | .established, ha => h.established ha.1
  | .connectSend a data, ha => h.connectSend ha a data
  | .closed, ha => h.closed ha
  | .writeable, ha => h.writeable ha.1 ha.2
  | .connectPull, ha => h.takeConnect ha
  | .write, ha => h.writeFirst ha

end Outbox.Inv

/-! ### The client does -/

/-- What the client is asked for, at any point of a run. -/
structure Delivers [DecidableEq μ] (c : Client μ) : Prop where
  inOrder : written c.log <+: enqueuedIn c.log
  atMostOnce : ∀ data, (written c.log).count data ≤ (enqueuedIn c.log).count data
  /-- Unless the service thread is in a writeable event, what is not written is in the queue. -/
  noneLost : c.service = .idle ∨ c.service = .opening → ∃ queue : Cells (Msg μ), ∃ waiting : List μ,
    Chain c.heap c.txqhead queue ∧ queue.map Prod.snd = waiting.map .queued ∧
      written c.log ++ waiting = enqueuedIn c.log
  opens : OpensWithConnect c.log
  headTail : c.txqhead = none ↔ c.txqtail = none
  tailLast : ∃ queue : Cells (Msg μ), Chain c.heap c.txqhead queue ∧ c.txqtail = lastAddr queue

theorem delivers_of_refines [DecidableEq μ] {c : Client μ} {o : Outbox μ} (hrefines : Refines c o)
    (h : Outbox.Inv o) : Delivers c := by
  obtain ⟨qs, fs, ss, hr⟩ := hrefines
  have hcons := h.conserved
  rw [hr.log] at hcons
  have hpre : written c.log <+: enqueuedIn c.log :=
    ⟨fromQueue o.flight ++ o.queue, by rw [← List.append_assoc]; exact hcons⟩
  exact {
    inOrder := hpre
    atMostOnce := fun data => hpre.sublist.count_le data
    noneLost := by
      intro hservice
      have hphase : o.phase = .idle ∨ o.phase = .opening := by
        rw [hr.phase]
        rcases hservice with hs | hs
        · exact Or.inl (by rw [hs]; rfl)
        · exact Or.inr (by rw [hs]; rfl)
      rw [h.idle hphase] at hcons
      exact ⟨qs, o.queue, hr.queue, hr.queueMsgs, by simpa [fromQueue] using hcons⟩
    opens := hr.log ▸ h.opens
    headTail := by
      rw [chain_eq_none_iff hr.queue, hr.tail, lastAddr_eq_none_iff]
    tailLast := ⟨qs, hr.queue, hr.tail⟩ }

/-- Whatever the threads do and however the connections come and go, the messages of the queue leave in
    order and once, none is lost, and each connection starts with the latest connect message. -/
theorem txq_delivers_over_reconnects [DecidableEq μ] (evs : List (Event μ)) (h : Possible evs) :
    Delivers (runOf evs) := by
  have hinv : ∃ o : Outbox μ, Refines (runOf evs) o ∧ Outbox.Inv o := by
    refine Run.foldl_of_invariant (I := fun c => ∃ o, Refines c o ∧ Outbox.Inv o) ?_ evs
      ⟨{}, refines_start, Outbox.Inv.start⟩ h
    rintro c e ⟨o, hrefines, hinv⟩ ha
    refine ⟨o.step e, refines_step hrefines ha, hinv.step ?_⟩
    obtain ⟨qs, fs, ss, hr⟩ := hrefines
    exact hr.allowed ha
  obtain ⟨o, hrefines, hinv⟩ := hinv
  exact delivers_of_refines hrefines hinv

/-- Two connections. A message comes between the two sections of the first writeable event, another
    one while there is no connection. -/
def twoConnections : List (Event ℕ) :=
  [.enqueue 0 10, .established, .connectSend 1 1, .writeable, .enqueue 2 20, .connectPull, .write,
    .write, .closed, .enqueue 0 30, .established, .connectSend 1 2, .writeable, .connectPull, .write,
    .write, .write]

theorem txq_delivers_over_two : written (runOf twoConnections).log = [10, 20, 30] ∧
    Delivers (runOf twoConnections) := by
  refine ⟨by decide, txq_delivers_over_reconnects twoConnections ?_⟩
  unfold Possible twoConnections
  repeat rw [Run.everyStep_cons]
  refine ⟨rfl, ⟨rfl, rfl⟩, ⟨rfl, rfl⟩, ⟨rfl, rfl⟩, rfl, ⟨_, rfl⟩, ⟨_, rfl⟩, ⟨_, rfl⟩, rfl, rfl,
    ⟨rfl, rfl⟩, ⟨rfl, rfl⟩, ⟨rfl, rfl⟩, ⟨_, rfl⟩, ⟨_, rfl⟩, ⟨_, rfl⟩, ⟨_, rfl⟩, Run.everyStep_nil _⟩

end Ucentral.Txq
