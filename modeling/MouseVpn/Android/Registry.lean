import MouseVpn.Lib.HashMap
import MouseVpn.Lib.Machine

/-!
# The session registry of the Android library

`NativeBridge.start` and `NativeBridge.stop` share one map under a mutex. A call takes the
mutex for one operation on the map at a time, and between two of them any other call may run.
Every such operation is one step here, and so are the creation of a session's worker thread
and its end.
-/

namespace MouseVpn.Android

open MouseVpn.Lib

/-- The `i64` of the source. Handles are only compared and counted on. -/
abbrev Handle := UInt64

structure SpawnedSession where
  worker : ℕ
  deriving DecidableEq, Repr

variable {Pending : Type}

inductive Entry (Pending : Type)
  | pending (session : Pending)
  | running (session : SpawnedSession)
  deriving DecidableEq, Repr

inductive Call (Pending : Type)
  /-- `start` before `take_pending`. -/
  | starting
  /-- `take_pending` has removed a pending session, and `spawn` comes next. -/
  | taken (session : Pending)
  /-- The worker runs, and `insert_running` comes next. -/
  | spawned (session : SpawnedSession)
  /-- `take_pending` has removed a running session, and puts it back next. -/
  | takenRunning (session : SpawnedSession)
  | started (ok : Bool)
  /-- `stop` before it removes the entry. -/
  | stopping
  /-- `stop` has removed a running session and waits for its worker. -/
  | joining (session : SpawnedSession)
  | stopped
  deriving DecidableEq, Repr

structure Worker where
  handle : Handle
  alive : Bool
  deriving DecidableEq, Repr

structure State (Pending : Type) where
  nextHandle : Handle
  registry : HashMap Handle (Entry Pending)
  calls : List (Handle × Call Pending)
  workers : List Worker

inductive Event (Pending : Type)
  | prepare (session : Pending)
  | callStart (handle : Handle)
  | callStop (handle : Handle)
  /-- The next operation of a call. The flag is the result of `spawn`, if that comes next. -/
  | advance (call : ℕ) (spawns : Bool)
  | workerExits (worker : ℕ)

namespace State

def empty : State Pending := ⟨1, ∅, [], []⟩

def insertPending (st : State Pending) (session : Pending) : State Pending :=
  { st with
    nextHandle := st.nextHandle + 1
    registry := st.registry.insert st.nextHandle (.pending session) }

def setCall (st : State Pending) (i : ℕ) (handle : Handle) (call : Call Pending) : State Pending :=
  { st with calls := st.calls.set i (handle, call) }

/-- The first lock of `take_pending`. -/
def takePending (st : State Pending) (i : ℕ) (handle : Handle) : State Pending :=
  match st.registry.lookup handle with
  | none => st.setCall i handle (.started false)
  | some (.pending session) =>
    setCall { st with registry := st.registry.erase handle } i handle (.taken session)
  | some (.running session) =>
    setCall { st with registry := st.registry.erase handle } i handle (.takenRunning session)

def spawn (st : State Pending) (i : ℕ) (handle : Handle) : State Pending :=
  setCall { st with workers := st.workers ++ [⟨handle, true⟩] } i handle
    (.spawned ⟨st.workers.length⟩)

def insertRunning (st : State Pending) (i : ℕ) (handle : Handle) (session : SpawnedSession)
    (ok : Bool) : State Pending :=
  setCall { st with registry := st.registry.insert handle (.running session) } i handle
    (.started ok)

/-- The lock of `stop`. A pending session is dropped. -/
def removeEntry (st : State Pending) (i : ℕ) (handle : Handle) : State Pending :=
  match st.registry.lookup handle with
  | none => st.setCall i handle .stopped
  | some (.pending _) =>
    setCall { st with registry := st.registry.erase handle } i handle .stopped
  | some (.running session) =>
    setCall { st with registry := st.registry.erase handle } i handle (.joining session)

def isAlive (st : State Pending) (worker : ℕ) : Bool :=
  match st.workers[worker]? with
  | none => false
  | some w => w.alive

def join (st : State Pending) (i : ℕ) (handle : Handle) (session : SpawnedSession) :
    State Pending :=
  if st.isAlive session.worker then st else st.setCall i handle .stopped

def advance (st : State Pending) (i : ℕ) (spawns : Bool) : State Pending :=
  match st.calls[i]? with
  | none => st
  | some (handle, call) =>
    match call with
    | .starting => st.takePending i handle
    | .taken _ => if spawns then st.spawn i handle else st.setCall i handle (.started false)
    | .spawned session => st.insertRunning i handle session true
    | .takenRunning session => st.insertRunning i handle session false
    | .stopping => st.removeEntry i handle
    | .joining session => st.join i handle session
    | .started _ => st
    | .stopped => st

def workerExits (st : State Pending) (worker : ℕ) : State Pending :=
  { st with workers := st.workers.modify worker fun w => { w with alive := false } }

def step (st : State Pending) : Event Pending → State Pending × Unit
  | .prepare session => (st.insertPending session, ())
  | .callStart handle => ({ st with calls := st.calls ++ [(handle, .starting)] }, ())
  | .callStop handle => ({ st with calls := st.calls ++ [(handle, .stopping)] }, ())
  | .advance i spawns => (st.advance i spawns, ())
  | .workerExits worker => (st.workerExits worker, ())

def run (st : State Pending) (events : List (Event Pending)) : State Pending :=
  Machine.run step st events

def Running (st : State Pending) (handle : Handle) : Prop := ⟨handle, true⟩ ∈ st.workers

/-- The call is a `stop` of the handle, and has returned. -/
def StopReturned (st : State Pending) (handle : Handle) (i : ℕ) : Prop :=
  st.calls[i]? = some (handle, .stopped)

structure Prepared (st : State Pending) (handle : Handle) : Prop where
  issued : handle < st.nextHandle
  entry : ∃ session, st.registry.lookup handle = some (.pending session)
  noCall : ∀ call, (handle, call) ∉ st.calls
  noWorker : ∀ alive, (⟨handle, alive⟩ : Worker) ∉ st.workers

/-- A call has taken the session out of the map and has not brought it to an end: a `start`
that still has to start it, or a call that holds it while its worker runs. -/
def Call.InFlight (st : State Pending) : Call Pending → Prop
  | .taken _ => True
  | .spawned session => st.isAlive session.worker = true
  | .takenRunning session => st.isAlive session.worker = true
  | .joining session => st.isAlive session.worker = true
  | .starting => False
  | .started _ => False
  | .stopping => False
  | .stopped => False

def InFlight (st : State Pending) (handle : Handle) : Prop :=
  ∃ call, (handle, call) ∈ st.calls ∧ Call.InFlight st call

end State

end MouseVpn.Android
