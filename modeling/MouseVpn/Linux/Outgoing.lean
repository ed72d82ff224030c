import MouseVpn.Lib.Handover

/-!
# Sessions and sockets of the Linux client

The packet loop looks at the worker, receives, and sends a keepalive when one is due. To reconnect
it pauses the outgoing worker, tries to move the session to a new socket, and otherwise connects
anew: it replaces the sender that the worker shares with it, and queues a clone of the new socket
for the worker. The worker receives from the queue, reads the pause flag before and after it polls
the TUN device, encodes a batch under the lock of the sender, and sends it on its own socket. A
socket is named by the session it was made for.
-/

namespace MouseVpn.Linux.Outgoing

open MouseVpn.Lib

inductive WorkerPhase
  /-- `stopping` is read next. -/
  | checking
  | draining
  /-- The channel was empty, and `paused` is read next. -/
  | drained
  | polling
  /-- There is something to read, and `paused` is read again next. -/
  | polled
  | reading
  | locking
  | encoded (session : ℕ)
  | returned
  deriving DecidableEq, Repr

inductive LoopPhase
  /-- `stopping` and the worker's result are read next. -/
  | checking
  /-- The datagrams of the server are received, and `stopping` is read again. -/
  | receiving
  | maintaining
  /-- `paused` is set, and the route of the server is refreshed next. -/
  | reconnecting
  /-- `try_migrate` sends keepalives on a new socket. -/
  | migrating
  /-- The server has answered on the new socket, which is queued next. -/
  | migrated
  /-- `establish_replacement` connects next. -/
  | establishing
  /-- `self.receiver` is replaced, and the shared sender is replaced next. -/
  | connected
  | senderReplaced
  /-- `self.transport` is replaced next. -/
  | queued
  /-- `paused` is cleared next. -/
  | finishing
  | returned
  deriving DecidableEq, Repr

structure State where
  stopping : Bool
  paused : Bool
  session : ℕ
  sender : ℕ
  receiver : ℕ
  transport : ℕ
  channel : List ℕ
  loop : LoopPhase
  worker : WorkerPhase
  workerTransport : ℕ
  deriving DecidableEq, Repr

/-- What `maintain_liveness` makes of a keepalive, if one is due. -/
inductive Keepalive
  | notDue
  | sent
  | unencoded
  | peerUnavailable
  | failed
  deriving DecidableEq, Repr

inductive Ready
  | some
  | none
  | failed
  deriving DecidableEq, Repr

/-- What becomes of an encoded batch. A socket error that is neither transient nor the peer's
ends the worker. -/
inductive Sent
  | ok
  | wireFailed
  | failed
  deriving DecidableEq, Repr

inductive Event
  | stop
  | checkStopping
  | tryRecv
  | checkPaused
  | poll (ready : Ready)
  | readTun (ready : Ready)
  /-- Packets that are dropped are not encoded, and there may be no others. -/
  | encode (any : Bool)
  | sendBatch (sent : Sent)
  | checkWorker
  | receive (ok : Bool)
  | maintain (keepalive : Keepalive)
  | startReconnect
  | refreshRoute (ok : Bool)
  | probe (encoded : Bool)
  | migrate (answered : Bool)
  | connect (ok : Bool)
  | replaceSender
  | queueTransport
  | replaceTransport
  | endReconnect
  deriving DecidableEq, Repr

structure Datagram where
  session : ℕ
  socket : ℕ
  deriving DecidableEq, Repr

namespace State

def start : State := ⟨false, false, 1, 1, 1, 1, [], .checking, .checking, 1⟩

def checkStopping (st : State) : State :=
  match st.worker with
  | .checking => { st with worker := if st.stopping then .returned else .draining }
  | _ => st

def tryRecv (st : State) : State :=
  match st.worker, st.channel with
  | .draining, [] => { st with worker := .drained }
  | .draining, transport :: channel =>
    { st with
      workerTransport := transport
      channel := channel }
  | _, _ => st

def checkPaused (st : State) : State :=
  match st.worker with
  | .drained => { st with worker := if st.paused then .checking else .polling }
  | .polled => { st with worker := if st.paused then .checking else .reading }
  | _ => st

def whenReady (next : WorkerPhase) : Ready → WorkerPhase
  | .some => next
  | .none => .checking
  | .failed => .returned

def poll (st : State) (ready : Ready) : State :=
  match st.worker with
  | .polling => { st with worker := whenReady .polled ready }
  | _ => st

def readTun (st : State) (ready : Ready) : State :=
  match st.worker with
  | .reading => { st with worker := whenReady .locking ready }
  | _ => st

def encode (st : State) (any : Bool) : State :=
  match st.worker with
  | .locking => { st with worker := if any then .encoded st.sender else .checking }
  | _ => st

def sendBatch (st : State) (sent : Sent) : State × Option Datagram :=
  match st.worker, sent with
  | .encoded session, .ok =>
    ({ st with worker := .checking }, some ⟨session, st.workerTransport⟩)
  | .encoded session, .failed =>
    ({ st with worker := .returned }, some ⟨session, st.workerTransport⟩)
  | .encoded _, .wireFailed => ({ st with worker := .returned }, none)
  | _, _ => (st, none)

/-- The worker sends its result before its end of the queue is dropped. -/
def checkWorker (st : State) : State :=
  match st.loop with
  | .checking =>
    { st with loop := if st.stopping ∨ st.worker = .returned then .returned else .receiving }
  | _ => st

def receive (st : State) (ok : Bool) : State :=
  match st.loop with
  | .receiving => { st with loop := if ok ∧ ¬ st.stopping then .maintaining else .returned }
  | _ => st

def maintain (st : State) (keepalive : Keepalive) : State × Option Datagram :=
  match st.loop, keepalive with
  | .maintaining, .notDue => ({ st with loop := .checking }, none)
  | .maintaining, .sent => ({ st with loop := .checking }, some ⟨st.sender, st.transport⟩)
  | .maintaining, .unencoded => ({ st with loop := .returned }, none)
  | .maintaining, .peerUnavailable =>
    ({ st with loop := .checking }, some ⟨st.sender, st.transport⟩)
  | .maintaining, .failed => ({ st with loop := .returned }, some ⟨st.sender, st.transport⟩)
  | _, _ => (st, none)

def startReconnect (st : State) : State :=
  match st.loop with
  | .maintaining =>
    { st with
      paused := true
      loop := .reconnecting }
  | _ => st

def refreshRoute (st : State) (ok : Bool) : State :=
  match st.loop with
  | .reconnecting => { st with loop := if ok then .migrating else .finishing }
  | _ => st

def probe (st : State) (encoded : Bool) : State × Option Datagram :=
  match st.loop with
  | .migrating => (st, if encoded then some ⟨st.sender, st.sender⟩ else none)
  | _ => (st, none)

def migrate (st : State) (answered : Bool) : State :=
  match st.loop with
  | .migrating => { st with loop := if answered then .migrated else .establishing }
  | _ => st

def connect (st : State) (ok : Bool) : State :=
  match st.loop with
  | .establishing =>
    if ok then
      { st with
        session := st.session + 1
        receiver := st.session + 1
        loop := .connected }
    else { st with loop := .finishing }
  | _ => st

def replaceSender (st : State) : State :=
  match st.loop with
  | .connected =>
    { st with
      sender := st.session
      loop := .senderReplaced }
  | _ => st

/-- The queue has no bound. Sending fails when the worker is gone; after `try_migrate` that leads
to `establish_replacement`. -/
def queueTransport (st : State) : State :=
  match st.loop with
  | .migrated =>
    if st.worker = .returned then { st with loop := .establishing }
    else
      { st with
        channel := st.channel ++ [st.sender]
        loop := .queued }
  | .senderReplaced =>
    if st.worker = .returned then { st with loop := .finishing }
    else
      { st with
        channel := st.channel ++ [st.session]
        loop := .queued }
  | _ => st

def replaceTransport (st : State) : State :=
  match st.loop with
  | .queued =>
    { st with
      transport := st.sender
      loop := .finishing }
  | _ => st

def endReconnect (st : State) : State :=
  match st.loop with
  | .finishing =>
    { st with
      paused := false
      loop := .checking }
  | _ => st

def step (st : State) : Event → State × Option Datagram
  | .stop => ({ st with stopping := true }, none)
  | .checkStopping => (st.checkStopping, none)
  | .tryRecv => (st.tryRecv, none)
  | .checkPaused => (st.checkPaused, none)
  | .poll ready => (st.poll ready, none)
  | .readTun ready => (st.readTun ready, none)
  | .encode any => (st.encode any, none)
  | .sendBatch sent => st.sendBatch sent
  | .checkWorker => (st.checkWorker, none)
  | .receive ok => (st.receive ok, none)
  | .maintain keepalive => st.maintain keepalive
  | .startReconnect => (st.startReconnect, none)
  | .refreshRoute ok => (st.refreshRoute ok, none)
  | .probe encoded => st.probe encoded
  | .migrate answered => (st.migrate answered, none)
  | .connect ok => (st.connect ok, none)
  | .replaceSender => (st.replaceSender, none)
  | .queueTransport => (st.queueTransport, none)
  | .replaceTransport => (st.replaceTransport, none)
  | .endReconnect => (st.endReconnect, none)

def datagrams (st : State) (events : List Event) : List Datagram :=
  (Machine.outputs step st events).reduceOption

end State

end MouseVpn.Linux.Outgoing
