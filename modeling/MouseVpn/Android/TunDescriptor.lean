import MouseVpn.Android.StopRace
import Mathlib.Logic.Function.Basic

/-!
# Who closes the descriptor of the VPN interface

The service detaches the descriptor and hands its number to `NativeBridge.start`. It is a bare
number until `spawn` makes a `File` of it, and from then on it is closed when that `File` is
dropped: where `spawn` fails, or where the worker that it was moved to ends.
-/

namespace MouseVpn.Android

open MouseVpn.Lib

variable {Pending : Type}

inductive Descriptor
  | detached
  | file (worker : ℕ)
  | closed
  deriving DecidableEq, Repr

/-- What the system calls of `spawn` answer. -/
structure SpawnCalls where
  fcntl : Bool
  eventFd : Bool
  thread : Bool
  deriving DecidableEq, Repr

namespace SpawnCalls

def ok (calls : SpawnCalls) : Bool := calls.fcntl && calls.eventFd && calls.thread

/-- `spawn` owns the file from its first statement on, and each `?` drops it. The closure of a
thread that could not be created is dropped with the file in it. -/
def descriptor (calls : SpawnCalls) (worker : ℕ) : Descriptor :=
  if !calls.fcntl then .closed
  else if !calls.eventFd then .closed
  else if !calls.thread then .closed
  else .file worker

theorem descriptor_eq_closed {calls : SpawnCalls} (h : calls.ok = false) (worker : ℕ) :
    calls.descriptor worker = .closed := by
  obtain ⟨fcntl, eventFd, thread⟩ := calls
  revert h
  cases fcntl <;> cases eventFd <;> cases thread <;> simp [ok, descriptor]

end SpawnCalls

/-- The registry with the descriptor that each call of `start` was given. -/
structure TunState (Pending : Type) where
  base : State Pending
  tun : ℕ → Descriptor

inductive TunEvent (Pending : Type)
  | prepare (session : Pending)
  | callStart (handle : Handle)
  | callStop (handle : Handle)
  | advance (call : ℕ) (calls : SpawnCalls)
  | workerExits (worker : ℕ)

def TunEvent.event : TunEvent Pending → Event Pending
  | .prepare session => .prepare session
  | .callStart handle => .callStart handle
  | .callStop handle => .callStop handle
  | .advance i calls => .advance i calls.ok
  | .workerExits worker => .workerExits worker

def Descriptor.workerExits (worker : ℕ) : Descriptor → Descriptor
  | .file w => if w = worker then .closed else .file w
  | .detached => .detached
  | .closed => .closed

namespace TunState

def empty : TunState Pending := ⟨.empty, fun _ => .detached⟩

/-- Only `spawn` looks at the descriptor. -/
def advanceTun (st : TunState Pending) (i : ℕ) (calls : SpawnCalls) : ℕ → Descriptor :=
  match st.base.calls[i]? with
  | some (_, .taken _) => Function.update st.tun i (calls.descriptor st.base.workers.length)
  | _ => st.tun

def stepTun (st : TunState Pending) : TunEvent Pending → ℕ → Descriptor
  | .advance i calls => st.advanceTun i calls
  | .workerExits worker => fun i => (st.tun i).workerExits worker
  | .prepare _ => st.tun
  | .callStart _ => st.tun
  | .callStop _ => st.tun

def step (st : TunState Pending) (event : TunEvent Pending) : TunState Pending × Unit :=
  (⟨(st.base.step event.event).1, st.stepTun event⟩, ())

def run (st : TunState Pending) (events : List (TunEvent Pending)) : TunState Pending :=
  Machine.run step st events

variable {st : TunState Pending} {handle : Handle} {i : ℕ} {call : Call Pending}

theorem event_ne_advance {event : TunEvent Pending} (h : ∀ calls, event ≠ .advance i calls)
    (spawns : Bool) : event.event ≠ .advance i spawns := by
  cases event with
  | advance j calls =>
    intro heq
    obtain ⟨rfl, -⟩ := Event.advance.inj heq
    exact h calls rfl
  | prepare session => simp [TunEvent.event]
  | callStart handle => simp [TunEvent.event]
  | callStop handle => simp [TunEvent.event]
  | workerExits worker => simp [TunEvent.event]

theorem step_call (at_i : st.base.calls[i]? = some (handle, call)) (event : TunEvent Pending)
    (other : ∀ calls, event ≠ .advance i calls) :
    (st.step event).1.base.calls[i]? = some (handle, call) :=
  State.step_call at_i event.event (event_ne_advance other)

theorem advanceTun_of_taken {session : Pending}
    (at_i : st.base.calls[i]? = some (handle, .taken session)) (calls : SpawnCalls) :
    st.advanceTun i calls =
      Function.update st.tun i (calls.descriptor st.base.workers.length) := by
  simp only [advanceTun, at_i]

theorem advanceTun_of_not_taken
    (h : ∀ handle session, st.base.calls[i]? ≠ some (handle, .taken session)) (calls : SpawnCalls) :
    st.advanceTun i calls = st.tun := by
  rw [advanceTun]
  split
  · next handle session at_i => exact absurd at_i (h handle session)
  · rfl

theorem step_tun {event : TunEvent Pending} (unheld : ∀ worker, st.tun i ≠ .file worker)
    (notTaken : ∀ calls, event = .advance i calls →
      ∀ handle session, st.base.calls[i]? ≠ some (handle, .taken session)) :
    (st.step event).1.tun i = st.tun i := by
  cases event with
  | prepare session => rfl
  | callStart handle => rfl
  | callStop handle => rfl
  | workerExits worker =>
    change (st.tun i).workerExits worker = st.tun i
    cases htun : st.tun i with
    | detached => rfl
    | file w => exact absurd htun (unheld w)
    | closed => rfl
  | advance j calls =>
    change st.advanceTun j calls i = st.tun i
    by_cases htaken : ∃ handle session, st.base.calls[j]? = some (handle, .taken session)
    · obtain ⟨handle, session, at_j⟩ := htaken
      have hne : i ≠ j := by
        intro heq
        subst heq
        exact notTaken calls rfl handle session at_j
      rw [advanceTun_of_taken at_j]
      exact Function.update_of_ne hne _ _
    · rw [advanceTun_of_not_taken fun handle session at_j => htaken ⟨handle, session, at_j⟩]

theorem getElem?_setCall {base st' : State Pending} (at_i : base.calls[i]? = some (handle, call))
    (hcalls : st'.calls = base.calls) (call' : Call Pending) :
    (st'.setCall i handle call').calls[i]? = some (handle, call') := by
  obtain ⟨hlt, -⟩ := List.getElem?_eq_some_iff.mp at_i
  rw [State.setCall, hcalls]
  exact List.getElem?_set_self hlt

/-- The call has got past `take_pending`. -/
inductive Took (handle : Handle) (i : ℕ) (st : TunState Pending) : Prop
  | taken (session : Pending) (at_i : st.base.calls[i]? = some (handle, .taken session))
  | spawned (session : SpawnedSession) (at_i : st.base.calls[i]? = some (handle, .spawned session))
  | succeeded (at_i : st.base.calls[i]? = some (handle, .started true))
  | failed (at_i : st.base.calls[i]? = some (handle, .started false)) (closed : st.tun i = .closed)

theorem Took.step (took : Took handle i st) (event : TunEvent Pending) :
    Took handle i (st.step event).1 := by
  by_cases own : ∃ calls, event = .advance i calls
  · obtain ⟨calls, rfl⟩ := own
    cases took with
    | taken session at_i =>
      cases hok : calls.ok with
      | true =>
        refine .spawned ⟨st.base.workers.length⟩ ?_
        change (st.base.advance i calls.ok).calls[i]? = _
        rw [hok]
        simp only [State.advance, at_i, if_true]
        exact getElem?_setCall at_i rfl _
      | false =>
        refine .failed ?_ ?_
        · change (st.base.advance i calls.ok).calls[i]? = _
          rw [hok]
          simp only [State.advance, at_i]
          exact getElem?_setCall at_i rfl _
        · change st.advanceTun i calls i = _
          rw [advanceTun_of_taken at_i, Function.update_self]
          exact SpawnCalls.descriptor_eq_closed hok _
    | spawned session at_i =>
      refine .succeeded ?_
      change (st.base.advance i calls.ok).calls[i]? = _
      simp only [State.advance, at_i]
      exact getElem?_setCall at_i rfl _
    | succeeded at_i =>
      refine .succeeded ?_
      change (st.base.advance i calls.ok).calls[i]? = _
      simp only [State.advance, at_i]
    | failed at_i closed =>
      refine .failed ?_ ?_
      · change (st.base.advance i calls.ok).calls[i]? = _
        simp only [State.advance, at_i]
      · rw [step_tun, closed]
        · simp [closed]
        · simp [at_i]
  · have other : ∀ calls, event ≠ .advance i calls := fun calls heq => own ⟨calls, heq⟩
    cases took with
    | taken session at_i => exact .taken session (step_call at_i event other)
    | spawned session at_i => exact .spawned session (step_call at_i event other)
    | succeeded at_i => exact .succeeded (step_call at_i event other)
    | failed at_i closed =>
      refine .failed (step_call at_i event other) ?_
      rw [step_tun, closed]
      · simp [closed]
      · exact fun calls heq => absurd heq (other calls)

/-- `take_pending` has failed, or is about to: it has found a running session. -/
structure Refused (handle : Handle) (i : ℕ) (st : TunState Pending) : Prop where
  at_i : st.base.calls[i]? = some (handle, .started false) ∨
    ∃ session, st.base.calls[i]? = some (handle, .takenRunning session)
  detached : st.tun i = .detached

theorem Refused.not_taken (refused : Refused handle i st) (handle' : Handle) (session : Pending) :
    st.base.calls[i]? ≠ some (handle', .taken session) := by
  rcases refused.at_i with at_i | ⟨running, at_i⟩
  · simp [at_i]
  · simp [at_i]

theorem Refused.step (refused : Refused handle i st) (event : TunEvent Pending) :
    Refused handle i (st.step event).1 := by
  have hunheld : ∀ worker, st.tun i ≠ .file worker := by simp [refused.detached]
  constructor
  · by_cases own : ∃ calls, event = .advance i calls
    · obtain ⟨calls, rfl⟩ := own
      left
      change (st.base.advance i calls.ok).calls[i]? = _
      rcases refused.at_i with at_i | ⟨running, at_i⟩
      · simp only [State.advance, at_i]
      · simp only [State.advance, at_i]
        exact getElem?_setCall at_i rfl _
    · have other : ∀ calls, event ≠ .advance i calls := fun calls heq => own ⟨calls, heq⟩
      rcases refused.at_i with at_i | ⟨running, at_i⟩
      · exact .inl (step_call at_i event other)
      · exact .inr ⟨running, step_call at_i event other⟩
  · rw [step_tun hunheld fun _ _ => refused.not_taken, refused.detached]

/-- The number of a call that has not come as far as `spawn` is still a bare number. -/
def Fresh (st : TunState Pending) : Prop :=
  ∀ i, st.tun i ≠ .detached → ∃ handle call, st.base.calls[i]? = some (handle, call) ∧
    call ≠ .starting

theorem advance_not_starting {base : State Pending} (at_i : base.calls[i]? = some (handle, call))
    (spawns : Bool) :
    ∃ call', (base.advance i spawns).calls[i]? = some (handle, call') ∧ call' ≠ .starting := by
  cases call with
  | starting =>
    simp only [State.advance, at_i, State.takePending]
    split
    · exact ⟨_, getElem?_setCall at_i rfl _, by simp⟩
    · exact ⟨_, getElem?_setCall at_i rfl _, by simp⟩
    · exact ⟨_, getElem?_setCall at_i rfl _, by simp⟩
  | taken session =>
    simp only [State.advance, at_i]
    split
    · exact ⟨_, getElem?_setCall at_i rfl _, by simp⟩
    · exact ⟨_, getElem?_setCall at_i rfl _, by simp⟩
  | spawned session =>
    simp only [State.advance, at_i]
    exact ⟨_, getElem?_setCall at_i rfl _, by simp⟩
  | takenRunning session =>
    simp only [State.advance, at_i]
    exact ⟨_, getElem?_setCall at_i rfl _, by simp⟩
  | stopping =>
    simp only [State.advance, at_i, State.removeEntry]
    split
    · exact ⟨_, getElem?_setCall at_i rfl _, by simp⟩
    · exact ⟨_, getElem?_setCall at_i rfl _, by simp⟩
    · exact ⟨_, getElem?_setCall at_i rfl _, by simp⟩
  | joining session =>
    simp only [State.advance, at_i, State.join]
    split
    · exact ⟨_, at_i, by simp⟩
    · exact ⟨_, getElem?_setCall at_i rfl _, by simp⟩
  | started ok =>
    simp only [State.advance, at_i]
    exact ⟨_, rfl, by simp⟩
  | stopped =>
    simp only [State.advance, at_i]
    exact ⟨_, rfl, by simp⟩

theorem Fresh.step (fresh : Fresh st) (event : TunEvent Pending) : Fresh (st.step event).1 := by
  intro i hheld
  -- a call that has a file before the step, or gets one in it, has left `take_pending` behind
  have hcall : ∃ handle call, st.base.calls[i]? = some (handle, call) ∧
      (call ≠ .starting ∨ ∃ calls, event = .advance i calls) := by
    by_cases hdetached : st.tun i = .detached
    · by_contra hnone
      refine hheld ?_
      rw [step_tun, hdetached]
      · simp [hdetached]
      · intro calls heq handle session at_i
        exact hnone ⟨handle, _, at_i, .inr ⟨calls, heq⟩⟩
    · obtain ⟨handle, call, at_i, hne⟩ := fresh i hdetached
      exact ⟨handle, call, at_i, .inl hne⟩
  obtain ⟨handle, call, at_i, hcase⟩ := hcall
  by_cases own : ∃ calls, event = .advance i calls
  · obtain ⟨calls, rfl⟩ := own
    obtain ⟨call', at_i', hne⟩ := advance_not_starting at_i calls.ok
    exact ⟨handle, call', at_i', hne⟩
  · have other : ∀ calls, event ≠ .advance i calls := fun calls heq => own ⟨calls, heq⟩
    rcases hcase with hne | howned
    · exact ⟨handle, call, step_call at_i event other, hne⟩
    · exact absurd howned own

theorem fresh_run (events : List (TunEvent Pending)) :
    Fresh ((empty : TunState Pending).run events) :=
  Machine.run_invariant step Fresh (fun _ event h => h.step event)
    (fun _ hheld => absurd rfl hheld) events

theorem tun_of_starting (fresh : Fresh st)
    (at_i : st.base.calls[i]? = some (handle, .starting)) : st.tun i = .detached := by
  by_contra hheld
  obtain ⟨handle', call, at_i', hne⟩ := fresh i hheld
  rw [at_i] at at_i'
  obtain ⟨-, rfl⟩ := Prod.mk.inj (Option.some.inj at_i')
  exact hne rfl

theorem took_of_pending {session : Pending} (at_i : st.base.calls[i]? = some (handle, .starting))
    (hpending : st.base.registry.lookup handle = some (.pending session)) (calls : SpawnCalls) :
    Took handle i (st.step (.advance i calls)).1 := by
  refine .taken session ?_
  change (st.base.advance i calls.ok).calls[i]? = _
  simp only [State.advance, at_i, State.takePending, hpending]
  exact getElem?_setCall at_i rfl _

theorem refused_of_not_pending (fresh : Fresh st)
    (at_i : st.base.calls[i]? = some (handle, .starting))
    (hnone : ¬ ∃ session, st.base.registry.lookup handle = some (.pending session))
    (calls : SpawnCalls) : Refused handle i (st.step (.advance i calls)).1 := by
  constructor
  · change (st.base.advance i calls.ok).calls[i]? = _ ∨
      ∃ session, (st.base.advance i calls.ok).calls[i]? = _
    simp only [State.advance, at_i, State.takePending]
    cases hentry : st.base.registry.lookup handle with
    | none => exact .inl (getElem?_setCall at_i rfl _)
    | some entry =>
      cases entry with
      | pending session => exact absurd ⟨session, hentry⟩ hnone
      | running session => exact .inr ⟨session, getElem?_setCall at_i rfl _⟩
  · have hdetached := tun_of_starting fresh at_i
    rw [step_tun, hdetached]
    · simp [hdetached]
    · simp [at_i]

/-- A `start` that fails has closed its descriptor exactly if it found the prepared session in
the map. -/
theorem failed_start_closes_iff (before : List (TunEvent Pending))
    (at_i : ((empty : TunState Pending).run before).base.calls[i]? = some (handle, .starting))
    (calls : SpawnCalls) (later : List (TunEvent Pending))
    (failed : ((empty.run before).run (.advance i calls :: later)).base.calls[i]? =
      some (handle, .started false)) :
    ((empty.run before).run (.advance i calls :: later)).tun i = .closed ↔
      ∃ session, (empty.run before).base.registry.lookup handle = some (.pending session) := by
  constructor
  · intro closed
    by_contra hnone
    have hrefused : Refused handle i ((empty.run before).run (.advance i calls :: later)) :=
      Machine.run_invariant step (Refused handle i) (fun _ event h => h.step event)
        (refused_of_not_pending (fresh_run before) at_i hnone calls) later
    rw [hrefused.detached] at closed
    cases closed
  · intro hpending
    obtain ⟨session, hpending⟩ := hpending
    have htook : Took handle i ((empty.run before).run (.advance i calls :: later)) :=
      Machine.run_invariant step (Took handle i) (fun _ event h => h.step event)
        (took_of_pending at_i hpending calls) later
    cases htook with
    | taken session at_i' => simp [failed] at at_i'
    | spawned session at_i' => simp [failed] at at_i'
    | succeeded at_i' => simp [failed] at at_i'
    | failed at_i' closed => exact closed

/-- The worker thread cannot be created, and the file goes with its closure. -/
theorem failed_spawn_closes :
    let st := ((empty : TunState Unit).run [.prepare (), .callStart 1]).run
      [.advance 0 ⟨true, true, true⟩, .advance 0 ⟨true, true, false⟩]
    st.base.calls[0]? = some (1, .started false) ∧ st.tun 0 = .closed :=
  ⟨rfl, (failed_start_closes_iff [.prepare (), .callStart 1] rfl ⟨true, true, true⟩
    [.advance 0 ⟨true, true, false⟩] rfl).mpr ⟨(), rfl⟩⟩

/-- A `stop` removes the prepared session between the two calls of the service, and `start`
fails. The interface stays open whatever comes later. -/
theorem stopped_before_start_leaks :
    let st := (empty : TunState Unit).run [.prepare (), .callStart 1, .callStop 1,
      .advance 1 ⟨true, true, true⟩, .advance 0 ⟨true, true, true⟩]
    st.base.calls[0]? = some (1, .started false) ∧ ∀ later, (st.run later).tun 0 = .detached := by
  intro st
  refine ⟨rfl, ?_⟩
  intro later
  have hrefused : Refused 1 0 st := ⟨.inl rfl, rfl⟩
  exact (Machine.run_invariant step (Refused 1 0) (fun _ event h => h.step event) hrefused
    later).detached

end TunState

end MouseVpn.Android
