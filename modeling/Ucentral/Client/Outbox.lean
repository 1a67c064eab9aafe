import Ucentral.Client.Txq

/-! What the send queue is for: messages leave in the order they came.

    `Outbox` is the queue without its nodes: lists of messages where the client has pointers. Each step
    of the client is a step of it, as long as the chains of nodes are apart from each other. -/

namespace Ucentral.Txq
open Linked

variable {μ : Type}

/-- Where the service thread is, without what it holds. -/
inductive Phase
  | idle
  | opening
  | pulled
  | writing
  deriving DecidableEq, Repr

structure Outbox (μ : Type) where
  queue : List μ := []
  slot : Option μ := none
  /-- What the service thread has taken and not written yet. -/
  flight : List (Msg μ) := []
  phase : Phase := .idle
  websocket : Option ℕ := none
  conns : ℕ := 0
  log : List (Entry μ) := []

/-- The loop goes on while there is something to write. -/
def Phase.loop : List (Msg μ) → Phase
  | [] => .idle
  | _ :: _ => .writing

namespace Outbox

def putConnect (data : μ) (o : Outbox μ) : Outbox μ :=
  { o with slot := some data, log := o.log ++ [.connectSet data] }

def takeConnect (o : Outbox μ) : Outbox μ :=
  { o with
    slot := none
    flight := o.slot.toList.map .connect ++ o.flight
    phase := .loop (o.slot.toList.map .connect ++ o.flight)
    log := o.log ++ [.connectTaken] }

def writeFirst (o : Outbox μ) : Outbox μ :=
  match o.flight with
  | [] => o
  | msg :: rest =>
    { o with
      flight := rest
      phase := .loop rest
      log := match o.websocket with
        | none => o.log
        | some conn => o.log ++ [.wrote conn msg] }

def step (o : Outbox μ) : Event μ → Outbox μ
  | .enqueue _ data => { o with queue := o.queue ++ [data], log := o.log ++ [.enqueued data] }
  | .connectUpdate _ data => o.putConnect data
  | .established =>
    { o with
      websocket := some o.conns
      conns := o.conns + 1
      phase := .opening
      log := o.log ++ [.opened o.conns] }
  | .connectSend _ data => { o.putConnect data with phase := .idle }
  | .closed => { o with websocket := none }
  | .writeable => { o with queue := [], flight := o.queue.map .queued, phase := .pulled }
  | .connectPull => o.takeConnect
  | .write => o.writeFirst

/-- The steps that can come next. -/
def Allowed (o : Outbox μ) : Event μ → Prop
  | .enqueue _ _ => True
  | .connectUpdate _ _ => True
  | .established => o.phase = .idle ∧ o.websocket = none
  | .connectSend _ _ => o.phase = .opening
  | .closed => o.phase = .idle
  | .writeable => o.phase = .idle ∧ o.websocket.isSome = true
  | .connectPull => o.phase = .pulled
  | .write => o.phase = .writing

end Outbox

/-! ### The client is an outbox -/

def Service.phase : Service → Phase
  | .idle => .idle
  | .opening => .opening
  | .pulled _ => .pulled
  | .writing _ => .writing

/-- The chains of nodes behind the lists: the queue, what the service thread holds, and the slot. -/
structure Represents (c : Client μ) (o : Outbox μ) (qs fs ss : Cells (Msg μ)) : Prop where
  queue : Chain c.heap c.txqhead qs
  tail : c.txqtail = lastAddr qs
  flight : Chain c.heap c.service.txq fs
  slot : Chain c.heap c.txconnect ss
  distinct : ((qs ++ fs ++ ss).map Prod.fst).Nodup
  queueMsgs : qs.map Prod.snd = o.queue.map .queued
  flightMsgs : fs.map Prod.snd = o.flight
  slotMsgs : ss.map Prod.snd = o.slot.toList.map .connect
  phase : o.phase = c.service.phase
  websocket : o.websocket = c.websocket
  conns : o.conns = c.conns
  log : o.log = c.log

/-- Some nodes are behind the lists. -/
def Refines (c : Client μ) (o : Outbox μ) : Prop := ∃ qs fs ss, Represents c o qs fs ss

theorem refines_start : Refines ({} : Client μ) {} :=
  ⟨[], [], [], rfl, rfl, rfl, rfl, List.nodup_nil, rfl, rfl, rfl, rfl, rfl, rfl, rfl⟩

namespace Represents

variable {c : Client μ} {o : Outbox μ} {qs fs ss : Cells (Msg μ)}

/-- Memory that is not in use is in no chain. -/
theorem fresh (h : Represents c o qs fs ss) {a : ℕ} (ha : c.heap a = none) :
    a ∉ (qs ++ fs ++ ss).map Prod.fst := by
  simp only [List.map_append, List.mem_append, not_or]
  exact ⟨⟨notMem_of_free h.queue ha, notMem_of_free h.flight ha⟩, notMem_of_free h.slot ha⟩

theorem allowed (h : Represents c o qs fs ss) : ∀ {e : Event μ}, Allowed c e → o.Allowed e
  | .enqueue _ _, _ => trivial
  | .connectUpdate _ _, _ => trivial
  | .established, ha => ⟨by rw [h.phase, ha.1]; rfl, h.websocket.trans ha.2⟩
  | .connectSend _ _, ha => by rw [Outbox.Allowed, h.phase, ha.1]; rfl
  | .closed, ha => by rw [Outbox.Allowed, h.phase, ha]; rfl
  | .writeable, ha => ⟨by rw [h.phase, ha.1]; rfl, by rw [h.websocket]; exact ha.2⟩
  | .connectPull, ⟨_, ha⟩ => by rw [Outbox.Allowed, h.phase, ha]; rfl
  | .write, ⟨_, ha⟩ => by rw [Outbox.Allowed, h.phase, ha]; rfl

/-- No node is in two chains. -/
theorem queue_apart (h : Represents c o qs fs ss) {a : ℕ} (ha : a ∈ qs.map Prod.fst) :
    a ∉ fs.map Prod.fst ∧ a ∉ ss.map Prod.fst := by
  have hnodup := h.distinct
  rw [List.append_assoc, List.map_append, List.nodup_append] at hnodup
  have hnot : a ∉ (fs ++ ss).map Prod.fst := fun hmem => hnodup.2.2 a ha a hmem rfl
  rwa [List.map_append, List.mem_append, not_or] at hnot

theorem slot_apart (h : Represents c o qs fs ss) {a : ℕ} (ha : a ∈ ss.map Prod.fst) :
    a ∉ qs.map Prod.fst ∧ a ∉ fs.map Prod.fst := by
  have hnodup := h.distinct
  rw [List.map_append, List.nodup_append] at hnodup
  have hnot : a ∉ (qs ++ fs).map Prod.fst := fun hmem => hnodup.2.2 a hmem a ha rfl
  rwa [List.map_append, List.mem_append, not_or] at hnot

/-- A step that only changes what is not in the chains. -/
theorem frame (h : Represents c o qs fs ss) {a : ℕ} (v : Option (Cell (Msg μ)))
    (ha : a ∉ (qs ++ fs ++ ss).map Prod.fst) :
    Represents { c with heap := Function.update c.heap a v } o qs fs ss := by
  simp only [List.map_append, List.mem_append, not_or] at ha
  exact { h with
    queue := chain_update v h.queue ha.1.1
    flight := chain_update v h.flight ha.1.2
    slot := chain_update v h.slot ha.2 }

end Represents

section Steps

variable {c : Client μ} {o : Outbox μ}

/-- A node is linked behind the last one, or it becomes the first. -/
theorem refines_enqueue (h : Refines c o) {a : ℕ} (ha : c.heap a = none) (data : μ) :
    Refines (txqMsgProtoCb a data c)
      { o with queue := o.queue ++ [data], log := o.log ++ [.enqueued data] } := by
  obtain ⟨qs, fs, ss, h⟩ := h
  have hfresh := h.fresh ha
  have hframe := h.frame (some ⟨none, Msg.queued data⟩) hfresh
  have hperm : ((qs ++ [(a, Msg.queued data)] ++ fs ++ ss).map Prod.fst).Perm
      (a :: (qs ++ fs ++ ss).map Prod.fst) := by
    simp only [List.map_append, List.append_assoc, List.map_cons, List.singleton_append]
    exact List.perm_middle
  have hdistinct : ((qs ++ [(a, Msg.queued data)] ++ fs ++ ss).map Prod.fst).Nodup :=
    hperm.nodup_iff.mpr (List.nodup_cons.mpr ⟨hfresh, h.distinct⟩)
  have hcell : Function.update c.heap a (some ⟨none, Msg.queued data⟩) a = some ⟨none, .queued data⟩ :=
    Function.update_self ..
  have hqueue : (qs ++ [(a, Msg.queued data)]).map Prod.snd = (o.queue ++ [data]).map Msg.queued := by
    simp [h.queueMsgs]
  refine ⟨qs ++ [(a, .queued data)], fs, ss, ?_⟩
  unfold txqMsgProtoCb txqEnqueue alloc
  cases htail : c.txqtail with
  | none =>
    -- there was no last node, so there was none
    have hqs : qs = [] := lastAddr_eq_none_iff.mp (h.tail.symm.trans htail)
    subst hqs
    exact { hframe with
      queue := ⟨rfl, none, hcell, rfl⟩
      tail := rfl
      distinct := hdistinct
      queueMsgs := hqueue
      log := by rw [← h.log] }
  | some t =>
    have ht : lastAddr qs = some t := h.tail.symm.trans htail
    have hapart := h.queue_apart (lastAddr_mem ht)
    have hnodup : (qs.map Prod.fst ++ [a]).Nodup := by
      simp only [List.append_assoc, List.map_append] at hdistinct
      rw [← List.append_assoc, List.nodup_append] at hdistinct
      exact hdistinct.1
    exact { hframe with
      queue := chain_setNext_last hframe.queue ht hcell hnodup
      tail := (lastAddr_append qs a _).symm
      flight := chain_setNext hframe.flight hapart.1
      slot := chain_setNext hframe.slot hapart.2
      distinct := hdistinct
      queueMsgs := hqueue
      log := by rw [← h.log] }

/-- The message in the slot makes way for the new one. -/
theorem refines_connectSet (h : Refines c o) {a : ℕ} (ha : c.heap a = none) (data : μ) :
    Refines (txqConnectMsgProtoCb a data c) (o.putConnect data) := by
  obtain ⟨qs, fs, ss, h⟩ := h
  have hfresh := h.fresh ha
  have hframe := h.frame (some ⟨none, Msg.connect data⟩) hfresh
  have hcell : Function.update c.heap a (some ⟨none, Msg.connect data⟩) a = some ⟨none, .connect data⟩ :=
    Function.update_self ..
  have hdistinct : ((qs ++ fs ++ [(a, Msg.connect data)]).map Prod.fst).Nodup := by
    have hnodup := h.distinct
    rw [List.map_append, List.nodup_append] at hnodup
    rw [List.map_append, List.mem_append, not_or] at hfresh
    rw [List.map_append, List.map_singleton, (List.perm_append_singleton _ _).nodup_iff]
    exact List.nodup_cons.mpr ⟨hfresh.1, hnodup.1⟩
  refine ⟨qs, fs, [(a, .connect data)], ?_⟩
  unfold txqConnectMsgProtoCb free alloc
  cases hslot : c.txconnect with
  | none =>
    exact { hframe with
      slot := ⟨rfl, none, hcell, rfl⟩
      distinct := hdistinct
      slotMsgs := rfl
      log := by rw [← h.log]; rfl }
  | some b =>
    have hb : b ∈ ss.map Prod.fst := by
      have hchain := h.slot
      rw [hslot] at hchain
      obtain ⟨m, q, ys, rfl, -, -⟩ := chain_some hchain
      simp
    have hne : a ≠ b := by
      rintro rfl
      simp only [List.map_append, List.mem_append, not_or] at hfresh
      exact hfresh.2 hb
    have hapart := h.slot_apart hb
    exact { hframe with
      queue := chain_update none hframe.queue hapart.1
      flight := chain_update none hframe.flight hapart.2
      slot := ⟨rfl, none, (Function.update_of_ne hne _ _).trans hcell, rfl⟩
      distinct := hdistinct
      slotMsgs := rfl
      log := by rw [← h.log]; rfl }

theorem service_txqConnectMsgProtoCb (a : ℕ) (data : μ) (c : Client μ) :
    (txqConnectMsgProtoCb a data c).service = c.service := by
  unfold txqConnectMsgProtoCb free
  cases c.txconnect <;> rfl

/-- All of the queue goes to the service thread. -/
theorem refines_writeable (h : Refines c o) (hidle : c.service = .idle) :
    Refines (clientWriteable c)
      { o with queue := [], flight := o.queue.map .queued, phase := .pulled } := by
  obtain ⟨qs, fs, ss, h⟩ := h
  -- it has nothing in its hands yet
  have hfs : fs = [] := by
    have hflight := h.flight
    rw [hidle] at hflight
    exact chain_none hflight
  subst hfs
  refine ⟨[], qs, ss, ?_⟩
  exact { h with
    queue := rfl
    tail := rfl
    flight := h.queue
    distinct := by simpa using h.distinct
    queueMsgs := rfl
    flightMsgs := h.queueMsgs
    phase := rfl }

theorem phase_loop {heap : Heap (Msg μ)} {p : Option ℕ} {xs : Cells (Msg μ)} (h : Chain heap p xs) :
    Phase.loop (xs.map Prod.snd) = (Service.loop p).phase := by
  cases xs with
  | nil => rw [h]; rfl
  | cons x xs => rw [h.1]; rfl

theorem txq_loop (p : Option ℕ) : (Service.loop p).txq = p := by cases p <;> rfl

/-- The message of the slot is linked in front of the others. -/
theorem refines_linkConnect (h : Refines c o) {txq : Option ℕ} (hpulled : c.service = .pulled txq) :
    Refines (linkConnect txq c) o.takeConnect := by
  obtain ⟨qs, fs, ss, h⟩ := h
  have hflight := h.flight
  rw [hpulled] at hflight
  unfold linkConnect txqConnectPull
  cases hslot : c.txconnect with
  | none =>
    have hss : ss = [] := chain_none (hslot ▸ h.slot)
    subst hss
    have hnone : o.slot.toList.map Msg.connect = [] := h.slotMsgs.symm
    refine ⟨qs, fs, [], ?_⟩
    exact { h with
      flight := (txq_loop txq).symm ▸ hflight
      slot := rfl
      flightMsgs := by rw [h.flightMsgs, Outbox.takeConnect, hnone]; rfl
      slotMsgs := rfl
      phase := by
        rw [Outbox.takeConnect, hnone, List.nil_append, ← h.flightMsgs]
        exact phase_loop hflight
      log := by rw [← h.log]; rfl }
  | some m =>
    have hchain := h.slot
    rw [hslot] at hchain
    obtain ⟨msg, q, ys, rfl, hcell, -⟩ := chain_some hchain
    -- the slot holds a single message
    have hmsgs := h.slotMsgs
    cases hd : o.slot with
    | none =>
      rw [hd] at hmsgs
      cases hmsgs
    | some d =>
      rw [hd] at hmsgs
      simp only [List.map_cons, Option.toList_some, List.map_nil, List.cons.injEq,
        List.map_eq_nil_iff] at hmsgs
      obtain ⟨rfl, rfl⟩ := hmsgs
      have hapart := h.slot_apart (List.mem_map_of_mem (List.mem_singleton_self (m, Msg.connect d)))
      have hlinked := chain_setNext_front hcell hflight hapart.2
      have hperm : ((qs ++ (m, Msg.connect d) :: fs ++ []).map Prod.fst).Perm
          ((qs ++ fs ++ [(m, Msg.connect d)]).map Prod.fst) := by
        simp only [List.append_nil]
        exact (List.perm_middle.trans (List.perm_append_singleton _ _).symm).map _
      refine ⟨qs, (m, .connect d) :: fs, [], ?_⟩
      exact { h with
        queue := chain_setNext h.queue hapart.1
        flight := hlinked
        slot := rfl
        distinct := hperm.nodup_iff.mpr h.distinct
        flightMsgs := by rw [Outbox.takeConnect, hd, List.map_cons, h.flightMsgs]; rfl
        slotMsgs := rfl
        phase := by rw [Outbox.takeConnect, hd]; rfl
        log := by rw [← h.log]; rfl }

/-- The first message is written and freed. -/
theorem refines_writeNext (h : Refines c o) {m : ℕ} (hwriting : c.service = .writing m) :
    Refines (writeNext m c) o.writeFirst := by
  obtain ⟨qs, fs, ss, h⟩ := h
  have hflight := h.flight
  rw [hwriting] at hflight
  obtain ⟨msg, q, ys, rfl, hcell, hys⟩ := chain_some hflight
  have hcons : o.flight = msg :: ys.map Prod.snd := h.flightMsgs.symm
  have hperm : ((qs ++ (m, msg) :: ys ++ ss).map Prod.fst).Perm
      (m :: (qs ++ ys ++ ss).map Prod.fst) := by
    rw [List.append_assoc, List.cons_append, List.append_assoc]
    exact List.perm_middle.map Prod.fst
  obtain ⟨hout, hdistinct⟩ := List.nodup_cons.mp (hperm.nodup_iff.mp h.distinct)
  simp only [List.map_append, List.mem_append, not_or] at hout
  have hlog : (match o.websocket with
      | none => o.log
      | some conn => o.log ++ [Entry.wrote conn msg]) = match c.websocket with
      | none => c.log
      | some conn => c.log ++ [Entry.wrote conn msg] := by
    rw [h.websocket, h.log]
  refine ⟨qs, ys, ss, ?_⟩
  unfold writeNext Outbox.writeFirst
  rw [hcell, hcons]
  exact { h with
    queue := chain_update none h.queue hout.1.1
    flight := (txq_loop q).symm ▸ chain_update none hys hout.1.2
    slot := chain_update none h.slot hout.2
    distinct := hdistinct
    flightMsgs := rfl
    phase := phase_loop hys
    log := hlog }

/-- Every step of the client is one of the outbox. -/
theorem refines_step (h : Refines c o) : ∀ {e : Event μ}, Allowed c e →
    Refines (step c e) (o.step e)
  | .enqueue _ data, ha => refines_enqueue h ha data
  | .connectUpdate _ data, ha => refines_connectSet h ha data
  | .established, ha => by
      obtain ⟨qs, fs, ss, h⟩ := h
      have hflight := h.flight
      rw [ha.1] at hflight
      refine ⟨qs, fs, ss, ?_⟩
      exact { h with
        flight := hflight
        phase := rfl
        websocket := congrArg some h.conns
        conns := congrArg (· + 1) h.conns
        log := by rw [Outbox.step, h.log, h.conns]; rfl }
  | .connectSend _ data, ha => by
      obtain ⟨qs, fs, ss, h⟩ := refines_connectSet h ha.2 data
      have hflight := h.flight
      rw [service_txqConnectMsgProtoCb, ha.1] at hflight
      exact ⟨qs, fs, ss, { h with flight := hflight, phase := rfl }⟩
  | .closed, _ => by
      obtain ⟨qs, fs, ss, h⟩ := h
      exact ⟨qs, fs, ss, { h with websocket := rfl }⟩
  | .writeable, ha => refines_writeable h ha.1
  | .connectPull, ⟨txq, hpulled⟩ => by
      rw [step, hpulled]
      exact refines_linkConnect h hpulled
  | .write, ⟨m, hwriting⟩ => by
      rw [step, hwriting]
      exact refines_writeNext h hwriting

end Steps

end Ucentral.Txq
