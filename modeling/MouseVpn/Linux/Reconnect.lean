import MouseVpn.Lib.Machine

/-!
# Reconnect requests of the Linux client

The outgoing worker sends on its own clone of the transport and raises a request when the peer
is unavailable. The packet loop owns the session: it replaces the transport, advances the
generation, clears the request, and takes requests. Every access to a shared variable, and
every send, is one step. A transport is named by the generation that it belongs to.
-/

namespace MouseVpn.Linux

open MouseVpn.Lib

/-- A send that failed because the peer is unavailable. The number tells such sends apart and
is not part of the program. -/
structure SendError where
  number : ℕ
  transport : UInt64
  deriving DecidableEq, Repr

/-- The shared variable `requested`, with the error whose request it holds. -/
structure Requested where
  value : UInt64
  raisedBy : Option SendError
  deriving DecidableEq, Repr

def Requested.cleared : Requested := ⟨0, none⟩

inductive WorkerPhase
  | draining
  /-- The channel was empty, and `paused` is read next. -/
  | drained
  /-- Not paused. The TUN device is polled and `paused` is read again next. -/
  | polling
  | sending
  | failed (error : SendError)
  | loaded (error : SendError) (generation : UInt64)
  deriving DecidableEq, Repr

inductive LoopPhase
  | running
  /-- `take_reconnect_request` has swapped the request, and the generation is read next. -/
  | swapped (requested : Requested)
  | reconnecting
  | queued
  /-- `self.transport` is the new one. -/
  | replaced
  | advanced
  | cleared
  deriving DecidableEq, Repr

structure State where
  paused : Bool
  requested : Requested
  generation : UInt64
  channel : List UInt64
  worker : WorkerPhase
  workerTransport : UInt64
  loop : LoopPhase
  loopTransport : UInt64
  failures : ℕ
  deriving DecidableEq, Repr

inductive Event
  /-- `transport_replacements.try_recv`. -/
  | tryRecv
  | checkPaused
  | nothingToSend
  | send (peerUnavailable : Bool)
  | loadGeneration
  | storeRequest
  | swapRequest
  | compareGeneration
  | startReconnect
  | queueTransport
  | replaceTransport
  | advanceGeneration
  | clearRequest
  | endReconnect
  deriving DecidableEq, Repr

namespace State

def start : State := ⟨false, .cleared, 1, [], .draining, 1, .running, 1, 0⟩

def tryRecv (st : State) : State :=
  match st.worker, st.channel with
  | .draining, [] => { st with worker := .drained }
  | .draining, transport :: channel => { st with workerTransport := transport, channel := channel }
  | _, _ => st

def checkPaused (st : State) : State :=
  match st.worker with
  | .drained => { st with worker := if st.paused then .draining else .polling }
  | .polling => { st with worker := if st.paused then .draining else .sending }
  | _ => st

def nothingToSend (st : State) : State :=
  match st.worker with
  | .polling => { st with worker := .draining }
  | .sending => { st with worker := .draining }
  | _ => st

def send (st : State) (peerUnavailable : Bool) : State :=
  match st.worker with
  | .sending =>
    if peerUnavailable then
      { st with worker := .failed ⟨st.failures, st.workerTransport⟩, failures := st.failures + 1 }
    else { st with worker := .draining }
  | _ => st

def loadGeneration (st : State) : State :=
  match st.worker with
  | .failed error => { st with worker := .loaded error st.generation }
  | _ => st

def storeRequest (st : State) : State :=
  match st.worker with
  | .loaded error generation =>
    { st with requested := ⟨generation, some error⟩, worker := .draining }
  | _ => st

def swapRequest (st : State) : State :=
  match st.loop with
  | .running => { st with loop := .swapped st.requested, requested := .cleared }
  | _ => st

/-- The result of `take_reconnect_request`. -/
def accepts (requested : Requested) (generation : UInt64) : Bool :=
  decide (requested.value ≠ 0) && decide (requested.value = generation)

def compareGeneration (st : State) : State × Option Bool :=
  match st.loop with
  | .swapped requested => ({ st with loop := .running }, some (accepts requested st.generation))
  | _ => (st, none)

def startReconnect (st : State) : State :=
  match st.loop with
  | .running => { st with loop := .reconnecting, paused := true }
  | _ => st

/-- `try_migrate` or `establish_replacement` has a new transport. -/
def queueTransport (st : State) : State :=
  match st.loop with
  | .reconnecting => { st with loop := .queued, channel := st.channel ++ [st.generation + 1] }
  | _ => st

def replaceTransport (st : State) : State :=
  match st.loop with
  | .queued => { st with loop := .replaced, loopTransport := st.generation + 1 }
  | _ => st

def advanceGeneration (st : State) : State :=
  match st.loop with
  | .replaced => { st with loop := .advanced, generation := st.generation + 1 }
  | _ => st

def clearRequest (st : State) : State :=
  match st.loop with
  | .advanced => { st with loop := .cleared, requested := .cleared }
  | _ => st

def endReconnect (st : State) : State :=
  match st.loop with
  | .reconnecting => { st with loop := .running, paused := false }
  | .cleared => { st with loop := .running, paused := false }
  | _ => st

def step (st : State) : Event → State × Option Bool
  | .tryRecv => (st.tryRecv, none)
  | .checkPaused => (st.checkPaused, none)
  | .nothingToSend => (st.nothingToSend, none)
  | .send peerUnavailable => (st.send peerUnavailable, none)
  | .loadGeneration => (st.loadGeneration, none)
  | .storeRequest => (st.storeRequest, none)
  | .swapRequest => (st.swapRequest, none)
  | .compareGeneration => st.compareGeneration
  | .startReconnect => (st.startReconnect, none)
  | .queueTransport => (st.queueTransport, none)
  | .replaceTransport => (st.replaceTransport, none)
  | .advanceGeneration => (st.advanceGeneration, none)
  | .clearRequest => (st.clearRequest, none)
  | .endReconnect => (st.endReconnect, none)

def run (st : State) (events : List Event) : State := Machine.run step st events

/-- `take_reconnect_request` is about to answer the request that the error has raised, and its
answer is true. -/
def Accepts (st : State) (error : SendError) : Prop :=
  (∃ value, st.loop = .swapped ⟨value, some error⟩) ∧ (st.step .compareGeneration).2 = some true

def Replacing (st : State) : Prop := st.loop = .queued ∨ st.loop = .replaced

end State

end MouseVpn.Linux
