import Ucentral.Lib.Linked
import Ucentral.Lib.Run

/-! The send queue of the client, and the thread of libwebsockets that empties it.

    Messages are nodes of a linked list with a head and a tail pointer; the message that opens a
    connection waits in a slot of its own. Any thread may enqueue at any time, under the lock. The
    service thread opens and closes connections, and on a writeable event it takes the queue and the
    slot, in two sections of their own, and writes what it took. Each section under the lock, and each
    turn of the loop that writes, is one step; the steps of the other threads may come between any two
    of them. -/

namespace Ucentral.Txq
open Linked

variable {μ : Type}

/-- A message, by the callback it came through. -/
inductive Msg (μ : Type)
  | queued (data : μ)
  | connect (data : μ)
  deriving DecidableEq, Repr

/-- What has happened, for the record. A connection is known by its number. -/
inductive Entry (μ : Type)
  | enqueued (data : μ)
  | connectSet (data : μ)
  | opened (conn : ℕ)
  | connectTaken
  | wrote (conn : ℕ) (msg : Msg μ)
  deriving DecidableEq, Repr

/-- Where the service thread is in `callback_broker`: not in it, in front of `connect_send`, between
    `txq_pull` and `txq_connect_pull`, or in the loop, with a message to write. -/
inductive Service
  | idle
  | opening
  | pulled (txq : Option ℕ)
  | writing (m : ℕ)
  deriving DecidableEq, Repr

namespace Service

/-- `while (txq)` -/
def loop : Option ℕ → Service
  | none => idle
  | some m => writing m

/-- The list that is in the hands of the thread. -/
def txq : Service → Option ℕ
  | idle => none
  | opening => none
  | pulled txq => txq
  | writing m => some m

end Service

structure Client (μ : Type) where
  heap : Heap (Msg μ) := fun _ => none
  txqhead : Option ℕ := none
  txqtail : Option ℕ := none
  txconnect : Option ℕ := none
  websocket : Option ℕ := none
  /-- How many connections there have been. -/
  conns : ℕ := 0
  service : Service := .idle
  log : List (Entry μ) := []

/-! ### The functions -/

/-- `calloc`, and filling in the message. -/
def alloc (a : ℕ) (m : Msg μ) (c : Client μ) : Client μ :=
  { c with heap := Function.update c.heap a (some ⟨none, m⟩) }

/-- `free`. -/
def free (p : Option ℕ) (c : Client μ) : Client μ :=
  match p with
  | none => c
  | some a => { c with heap := Function.update c.heap a none }

/-- `txq_enqueue`. -/
def txqEnqueue (msg : ℕ) (c : Client μ) : Client μ :=
  match c.txqtail with
  | some tail => { c with heap := setNext c.heap tail (some msg), txqtail := some msg }
  | none => { c with txqhead := some msg, txqtail := some msg }

/-- `txq_pull`. -/
def txqPull (c : Client μ) : Option ℕ × Client μ :=
  (c.txqhead, { c with txqhead := none, txqtail := none })

/-- `txq_connect_pull`. -/
def txqConnectPull (c : Client μ) : Option ℕ × Client μ := (c.txconnect, { c with txconnect := none })

/-- `txq_msg_proto_cb`. -/
def txqMsgProtoCb (a : ℕ) (data : μ) (c : Client μ) : Client μ :=
  { txqEnqueue a (alloc a (.queued data) c) with log := c.log ++ [.enqueued data] }

/-- `txq_connect_msg_proto_cb`. -/
def txqConnectMsgProtoCb (a : ℕ) (data : μ) (c : Client μ) : Client μ :=
  { free c.txconnect (alloc a (.connect data) c) with
    txconnect := some a
    log := c.log ++ [.connectSet data] }

/-- `LWS_CALLBACK_CLIENT_ESTABLISHED`, up to `connect_send`. -/
def clientEstablished (c : Client μ) : Client μ :=
  { c with
    websocket := some c.conns
    conns := c.conns + 1
    service := .opening
    log := c.log ++ [.opened c.conns] }

/-- `connect_send` in it. -/
def connectSend (a : ℕ) (data : μ) (c : Client μ) : Client μ :=
  { txqConnectMsgProtoCb a data c with service := .idle }

/-- `LWS_CALLBACK_CLIENT_CLOSED` and `LWS_CALLBACK_CLIENT_CONNECTION_ERROR`. -/
def clientClosed (c : Client μ) : Client μ := { c with websocket := none }

/-- `LWS_CALLBACK_CLIENT_WRITEABLE`, up to the second section. -/
def clientWriteable (c : Client μ) : Client μ :=
  { (txqPull c).2 with service := .pulled (txqPull c).1 }

/-- The second section, and linking what it takes in front. -/
def linkConnect (txq : Option ℕ) (c : Client μ) : Client μ :=
  match txqConnectPull c with
  | (none, c) => { c with service := .loop txq, log := c.log ++ [.connectTaken] }
  | (some m, c) =>
    { c with
      heap := setNext c.heap m txq
      service := .loop (some m)
      log := c.log ++ [.connectTaken] }

/-- A turn of the loop: `lws_write` if there is a connection, and `free`. -/
def writeNext (m : ℕ) (c : Client μ) : Client μ :=
  match c.heap m with
  | none => c
  | some cell =>
    { free (some m) c with
      service := .loop cell.next
      log := match c.websocket with
        | none => c.log
        | some conn => c.log ++ [.wrote conn cell.data] }

/-! ### Runs -/

/-- A step of some thread. The address is what `calloc` returns. -/
inductive Event (μ : Type)
  | enqueue (a : ℕ) (data : μ)
  | connectUpdate (a : ℕ) (data : μ)
  | established
  | connectSend (a : ℕ) (data : μ)
  | closed
  | writeable
  | connectPull
  | write
  deriving DecidableEq, Repr

def step (c : Client μ) : Event μ → Client μ
  | .enqueue a data => txqMsgProtoCb a data c
  | .connectUpdate a data => txqConnectMsgProtoCb a data c
  | .established => clientEstablished c
  | .connectSend a data => connectSend a data c
  | .closed => clientClosed c
  | .writeable => clientWriteable c
  | .connectPull =>
    match c.service with
    | .pulled txq => linkConnect txq c
    | _ => c
  | .write =>
    match c.service with
    | .writing m => writeNext m c
    | _ => c

/-- Which steps can come next: an allocation gives memory that is not in use, the service thread does
    one thing after the other, and libwebsockets reports a connection as writeable only while it is
    open. The other threads may enqueue at any time. -/
def Allowed (c : Client μ) : Event μ → Prop
  | .enqueue a _ => c.heap a = none
  | .connectUpdate a _ => c.heap a = none
  | .established => c.service = .idle ∧ c.websocket = none
  | .connectSend a _ => c.service = .opening ∧ c.heap a = none
  | .closed => c.service = .idle
  | .writeable => c.service = .idle ∧ c.websocket.isSome = true
  | .connectPull => ∃ txq, c.service = .pulled txq
  | .write => ∃ m, c.service = .writing m

/-- The client after the steps of a run, from its start. -/
def runOf (evs : List (Event μ)) : Client μ := evs.foldl step {}

/-- The run is one that can happen. -/
def Possible (evs : List (Event μ)) : Prop := Run.EveryStep step Allowed {} evs

end Ucentral.Txq
