import MouseVpn.Lib.Machine
import Mathlib.Data.UInt

/-!
# A change of the physical network during the setup of a connection

Three threads of `MouseVpnService` share the handle of the session and a flag that asks for a
restart. The connection thread resets the flag, prepares a session, publishes its handle, starts
the tunnel and looks at the flag in `monitor`. A connectivity callback that selects another
network posts a runnable, and the main thread runs it later: it sets the flag if it sees a
handle. Each access to a shared variable is one step. Handles and generations are longs, which the
code only increments and compares for equality.
-/

namespace MouseVpn.Android

open MouseVpn.Lib

abbrev Network := ℕ

inductive Transport
  | ethernet
  | wifi
  | cellular
  | other
  deriving DecidableEq, Repr

structure UnderlyingNetworkState where
  transport : Transport
  validated : Bool
  deriving DecidableEq, Repr

def networkPriority (network : UnderlyingNetworkState) : ℕ :=
  (if network.validated then 10 else 0) +
    match network.transport with
    | .ethernet => 3
    | .wifi => 2
    | .cellular => 1
    | .other => 0

abbrev UnderlyingNetworks := List (Network × UnderlyingNetworkState)

/-- The selection of `refreshUnderlyingNetwork`. The previous network stays if it has the highest
priority, and also if there is no network left at all: then both sides of the comparison are
null. -/
def refreshUnderlyingNetwork (networks : UnderlyingNetworks) (previous : Option Network) :
    Option Network :=
  let highest := (networks.map fun entry => networkPriority entry.2).max?
  let current := previous.filter fun network =>
    (networks.lookup network).map networkPriority = highest
  current.or ((networks.find? fun entry => some (networkPriority entry.2) = highest).map (·.1))

inductive Phase
  | idle
  /-- The head of the loop of `runConnectionLoop`. -/
  | head
  /-- `connectOnce`, before its first look at the generation. -/
  | entering
  | resetting
  /-- The profile is read and `NativeBridge.prepare` runs. -/
  | preparing
  | publishing (prepared : UInt64)
  | published
  | establishing
  | established
  | starting
  /-- `NativeBridge.start` has succeeded, and `monitor` is called with the handle. -/
  | started
  | looping (current : UInt64)
  | checking (current : UInt64)
  | polling (current : UInt64)
  | restarting (current : UInt64)
  | clearing
  /-- `connectOnce` has returned. -/
  | returned
  deriving DecidableEq, Repr

inductive MainPhase
  | idle
  /-- The runnable has seen a handle. The flag tells whether it was posted for a change since the
  reset. -/
  | setting (since : Bool)
  /-- `disconnect` has asked for a stop. -/
  | bumping
  | withdrawing
  | cancelling
  /-- `onDestroy` has asked for a stop. It cancels the task before it takes the handle away. -/
  | destroying
  | destroyCancelling
  | destroyWithdrawing
  | removing
  | shuttingDown
  deriving DecidableEq, Repr

def MainPhase.older : MainPhase → MainPhase
  | .setting _ => .setting false
  | main => main

structure Service where
  stopRequested : Bool
  connectionGeneration : UInt64
  networkRestartRequested : Bool
  handle : UInt64
  selectedUnderlyingNetwork : Option Network
  phase : Phase
  generation : UInt64
  interrupted : Bool
  queued : List UInt64
  task : Option UInt64
  /-- A callback has selected another network, and has not posted the runnable yet. The flag
  tells whether that was after the reset of the present attempt. -/
  callback : Option Bool
  posted : Option Bool
  main : MainPhase
  destroyed : Bool
  /-- Since the reset, a runnable posted for a change since the reset has run to its end. -/
  executed : Bool
  deriving DecidableEq, Repr

inductive ServiceEvent
  | startCommand
  | disconnect
  | destroy
  | main
  | callback (networks : UnderlyingNetworks)
  | signal
  | runnable
  /-- The next step of the connection thread. The call that it makes succeeds or not, and
  `prepare` gives out a handle. -/
  | advance (ok : Bool) (prepared : UInt64)
  deriving DecidableEq, Repr

namespace Service

def created (selected : Option Network) : Service :=
  ⟨false, 0, false, 0, selected, .idle, 0, false, [], none, none, none, .idle, false, false⟩

def isAttemptActive (st : Service) : Bool :=
  !st.stopRequested && !st.interrupted && st.connectionGeneration = st.generation

def taskDone (st : Service) : Bool :=
  match st.task with
  | none => true
  | some generation =>
    generation ∉ st.queued && (st.phase = .idle || st.generation ≠ generation)

def startCommand (st : Service) : Service :=
  if st.taskDone then
    { st with
      stopRequested := false
      connectionGeneration := st.connectionGeneration + 1
      queued := st.queued ++ [st.connectionGeneration + 1]
      task := some (st.connectionGeneration + 1) }
  else st

def cancelTask (st : Service) : Service :=
  { st with
    interrupted :=
      st.interrupted || (st.phase ≠ .idle && st.task = some st.generation)
    queued := st.queued.filter fun generation => st.task ≠ some generation }

def mainStep (st : Service) : Service :=
  match st.main with
  | .idle => st
  | .setting since =>
    { st with
      networkRestartRequested := true
      executed := st.executed || since
      main := .idle }
  | .bumping =>
    { st with connectionGeneration := st.connectionGeneration + 1, main := .withdrawing }
  | .withdrawing => { st with handle := 0, main := .cancelling }
  | .cancelling => { st.cancelTask with task := none, main := .idle }
  | .destroying =>
    { st with connectionGeneration := st.connectionGeneration + 1, main := .destroyCancelling }
  | .destroyCancelling => { st.cancelTask with main := .destroyWithdrawing }
  | .destroyWithdrawing => { st with handle := 0, main := .removing }
  | .removing => { st with posted := none, main := .shuttingDown }
  | .shuttingDown =>
    { st with
      interrupted := st.interrupted || st.phase ≠ .idle
      queued := []
      destroyed := true
      main := .idle }

def runnable (st : Service) : Service :=
  match st.posted with
  | none => st
  | some since =>
    if st.handle ≠ 0 then { st with posted := none, main := .setting since }
    else { st with posted := none, executed := st.executed || since }

def callbackStep (st : Service) (networks : UnderlyingNetworks) : Service :=
  let selected := refreshUnderlyingNetwork networks st.selectedUnderlyingNetwork
  { st with
    selectedUnderlyingNetwork := selected
    callback := if selected ≠ st.selectedUnderlyingNetwork then some true else none }

def signal (st : Service) : Service :=
  match st.callback with
  | none => st
  | some since => { st with callback := none, posted := some since }

def reset (st : Service) : Service :=
  { st with
    networkRestartRequested := false
    phase := .preparing
    callback := st.callback.map fun _ => false
    posted := st.posted.map fun _ => false
    main := st.main.older
    executed := false }

def dequeue (st : Service) : Service :=
  match st.queued with
  | [] => st
  | generation :: queued =>
    { st with phase := .head, generation, interrupted := false, queued }

def advance (st : Service) (ok : Bool) (prepared : UInt64) : Service :=
  match st.phase with
  | .idle => st.dequeue
  | .head => { st with phase := if st.isAttemptActive then .entering else .idle }
  | .entering => { st with phase := if st.isAttemptActive then .resetting else .clearing }
  | .resetting => st.reset
  | .preparing => { st with phase := if ok then .publishing prepared else .clearing }
  | .publishing prepared => { st with handle := prepared, phase := .published }
  | .published => { st with phase := if st.isAttemptActive then .establishing else .clearing }
  | .establishing => { st with phase := if ok then .established else .clearing }
  | .established => { st with phase := if st.isAttemptActive then .starting else .clearing }
  | .starting => { st with phase := if ok then .started else .clearing }
  | .started => { st with phase := .looping st.handle }
  | .looping current =>
    { st with
      phase := if !st.interrupted && st.handle = current then .checking current else .returned }
  | .checking current =>
    { st with
      networkRestartRequested := false
      phase := if st.networkRestartRequested then .restarting current else .polling current }
  | .polling current =>
    { st with
      phase :=
        if !ok then .clearing else if st.interrupted then .returned else .looping current }
  | .restarting current =>
    { st with phase := if st.handle = current then .clearing else .returned }
  | .clearing => { st with handle := 0, phase := .returned }
  | .returned => { st with phase := if ok then .head else .idle }

/-- The main thread is free for a call of the system. There are none after `onDestroy`. -/
def Serves (st : Service) : Prop := st.main = .idle ∧ st.destroyed = false

instance (st : Service) : Decidable st.Serves := inferInstanceAs (Decidable (_ ∧ _))

def step (st : Service) (event : ServiceEvent) : Service × Unit :=
  (match event with
    | .startCommand => if st.Serves then st.startCommand else st
    | .disconnect =>
      if st.Serves then { st with stopRequested := true, main := .bumping } else st
    | .destroy =>
      if st.Serves then { st with stopRequested := true, main := .destroying } else st
    | .main => st.mainStep
    | .callback networks =>
      if st.callback = none ∧ st.destroyed = false then st.callbackStep networks else st
    | .signal => st.signal
    | .runnable => if st.main = .idle then st.runnable else st
    | .advance ok prepared => st.advance ok prepared, ())

def run (st : Service) (events : List ServiceEvent) : Service := Machine.run step st events

end Service

def Phase.AfterReset : Phase → Prop
  | .preparing => True
  | .publishing _ => True
  | .published => True
  | .establishing => True
  | .established => True
  | .starting => True
  | .started => True
  | .looping _ => True
  | .checking _ => True
  | .polling _ => True
  | .idle => False
  | .head => False
  | .entering => False
  | .resetting => False
  | .restarting _ => False
  | .clearing => False
  | .returned => False

def MainPhase.Sets : MainPhase → Prop
  | .setting _ => True
  | _ => False

namespace Service

variable {st : Service}

/-- The runnable that runs next tests a handle that is published and has not been taken away. -/
def SeesHandle (st : Service) : Prop := st.main = .idle ∧ st.posted.isSome ∧ st.handle ≠ 0

def Resets (st : Service) : ServiceEvent → Prop
  | .advance _ _ => st.phase = .resetting
  | _ => False

/-- A runnable has seen a handle, and the main thread has not gone on yet. -/
def Sees (init : Service) (events : List ServiceEvent) : Prop :=
  Machine.Since (fun past event => event = .runnable ∧ (init.run past).SeesHandle)
    (fun _ event => event ≠ .main) events

/-- The main thread has gone on from there, and no attempt has reset the flag since. -/
def Noticed (init : Service) (events : List ServiceEvent) : Prop :=
  Machine.Since (fun past event => event = .main ∧ Sees init past)
    (fun past event => ¬ (init.run past).Resets event) events

theorem mainStep_sets (st : Service) : ¬ st.mainStep.main.Sets := by
  rw [mainStep]
  split
  case h_1 hmain => simp [hmain, MainPhase.Sets]
  all_goals exact False.elim

theorem advance_sets (st : Service) (ok : Bool) (prepared : UInt64) :
    (st.advance ok prepared).main.Sets ↔ st.main.Sets := by
  cases hphase : st.phase with
  | idle =>
    simp only [advance, hphase, dequeue]
    split <;> rfl
  | resetting =>
    simp only [advance, hphase, reset]
    cases st.main <;> rfl
  | _ => simp only [advance, hphase]

theorem sets_step (st : Service) (event : ServiceEvent) :
    (st.step event).1.main.Sets ↔
      event = .runnable ∧ st.SeesHandle ∨ st.main.Sets ∧ event ≠ .main := by
  cases event with
  | main => simpa [step] using mainStep_sets st
  | runnable =>
    simp only [step, runnable, SeesHandle]
    cases hmain : st.main <;> cases hposted : st.posted <;> simp [MainPhase.Sets, hmain]
    split_ifs with hhandle <;> simp [hhandle]
  | advance ok prepared => simpa [step] using advance_sets st ok prepared
  | startCommand =>
    simp only [step, startCommand]
    split_ifs <;> simp
  | disconnect | destroy =>
    simp only [step]
    split_ifs with hserves <;> simp [MainPhase.Sets]
    simp [hserves.1]
  | callback networks =>
    simp only [step]
    split_ifs <;> simp [callbackStep]
  | signal =>
    simp only [step, signal]
    split <;> simp

theorem sets_iff (init : Service) (hinit : ¬ init.main.Sets) (events : List ServiceEvent) :
    (init.run events).main.Sets ↔ Sees init events := by
  refine Machine.run_induction step (fun past st => st.main.Sets ↔ Sees init past) ?_ ?_ events
  · exact iff_of_false hinit Machine.not_since_nil
  · intro past event ih
    rw [sets_step, Sees, Machine.since_concat]
    exact or_congr Iff.rfl (and_congr_left' ih)

theorem flag_advance (st : Service) (ok : Bool) (prepared : UInt64)
    (after : (st.advance ok prepared).phase.AfterReset) :
    ((st.advance ok prepared).networkRestartRequested = true ↔
      st.networkRestartRequested = true ∧ st.phase ≠ .resetting) ∧
    (st.phase ≠ .resetting → st.phase.AfterReset) := by
  cases hphase : st.phase with
  | idle =>
    simp only [advance, hphase, dequeue] at after
    split at after
    · rw [hphase] at after
      exact after.elim
    · exact (after : False).elim
  | resetting => simp [advance, hphase, reset]
  | checking current =>
    -- if the flag was up, the attempt is over
    simp only [advance, hphase] at after ⊢
    cases hup : st.networkRestartRequested with
    | true => simp [hup, Phase.AfterReset] at after
    | false => simp [Phase.AfterReset]
  | clearing =>
    simp only [advance, hphase] at after
    exact (after : False).elim
  | head | entering | restarting current | returned =>
    simp only [advance, hphase] at after
    revert after
    split_ifs <;> exact False.elim
  | _ => simp [advance, hphase, Phase.AfterReset]

/-- What one step does to the flag of an attempt that has reset it. -/
theorem flag_step (st : Service) (event : ServiceEvent)
    (after : (st.step event).1.phase.AfterReset) :
    ((st.step event).1.networkRestartRequested = true ↔
      event = .main ∧ st.main.Sets ∨ st.networkRestartRequested = true ∧ ¬ st.Resets event) ∧
    (¬ st.Resets event → st.phase.AfterReset) := by
  cases event with
  | main =>
    simp only [step, mainStep] at after ⊢
    cases hmain : st.main <;> simpa [hmain, Resets, MainPhase.Sets, cancelTask] using after
  | runnable =>
    have hkept : (st.step .runnable).1.phase = st.phase ∧
        (st.step .runnable).1.networkRestartRequested = st.networkRestartRequested := by
      simp only [step, runnable]
      cases st.posted <;> split_ifs <;> exact ⟨rfl, rfl⟩
    rw [hkept.1] at after
    simpa [hkept.2, Resets] using after
  | advance ok prepared => simpa [Resets, step] using flag_advance st ok prepared after
  | startCommand =>
    simp only [step, startCommand] at after ⊢
    split_ifs at after ⊢ <;> simpa [Resets] using after
  | disconnect | destroy =>
    simp only [step] at after ⊢
    split_ifs at after ⊢ <;> simpa [Resets] using after
  | callback networks =>
    simp only [step, callbackStep] at after ⊢
    split_ifs at after ⊢ <;> simpa [Resets] using after
  | signal =>
    simp only [step, signal] at after ⊢
    cases hcallback : st.callback <;> simpa [hcallback, Resets] using after

theorem flag_iff (selected : Option Network) (events : List ServiceEvent)
    (after : ((created selected).run events).phase.AfterReset) :
    ((created selected).run events).networkRestartRequested = true ↔
      Noticed (created selected) events := by
  revert after
  refine Machine.run_induction step (fun past st => st.phase.AfterReset →
    (st.networkRestartRequested = true ↔ Noticed (created selected) past)) ?_ ?_ events
  · exact fun after => (after : False).elim
  · intro past event ih after
    obtain ⟨hflag, hbefore⟩ := flag_step _ event after
    rw [hflag, Noticed, Machine.since_concat]
    refine or_congr (and_congr_right' (sets_iff _ id past)) (and_congr_left fun hkept => ?_)
    exact ih (hbefore hkept)

/-- When `monitor` looks at the flag, a runnable that ran for a change since the reset has its
restart exactly if some runnable has seen a published handle when it ran and has set the flag
since the reset. -/
theorem change_restarts_iff (selected : Option Network) (events : List ServiceEvent)
    {current : UInt64} (check : ((created selected).run events).phase = .checking current)
    (ok : Bool) (prepared : UInt64) :
    (((created selected).run events).executed = true →
        (((created selected).run events).advance ok prepared).phase = .restarting current) ↔
      (((created selected).run events).executed = true →
        Noticed (created selected) events) := by
  rw [← flag_iff selected events (check ▸ trivial)]
  have hrestart : (((created selected).run events).advance ok prepared).phase =
      .restarting current ↔ ((created selected).run events).networkRestartRequested = true := by
    simp only [Service.advance, check]
    cases ((created selected).run events).networkRestartRequested with
    | true => simp
    | false => simp
  rw [hrestart]

/-- The steps of the connection thread from an empty queue to the look at the flag, with what the
other threads do during `prepare` and between the publication and the next step. -/
def setup (preparing published : List ServiceEvent) : List ServiceEvent :=
  .startCommand :: List.replicate 4 (.advance true 1) ++ preparing ++
    List.replicate 2 (.advance true 1) ++ published ++ List.replicate 6 (.advance true 1)

def roam : List ServiceEvent := [.callback [(2, ⟨.cellular, true⟩)], .signal, .runnable]

theorem change_after_publication_restarts :
    (((created (some 1)).run (setup [] (roam ++ [.main]))).advance true 1).phase =
      .restarting 1 ∧ Noticed (created (some 1)) (setup [] (roam ++ [.main])) := by
  have check : ((created (some 1)).run (setup [] (roam ++ [.main]))).phase = .checking 1 := by
    decide +kernel
  have executed : ((created (some 1)).run (setup [] (roam ++ [.main]))).executed = true := by
    decide +kernel
  have restarts : (((created (some 1)).run (setup [] (roam ++ [.main]))).advance true 1).phase =
      .restarting 1 := by
    decide +kernel
  exact ⟨restarts, (change_restarts_iff (some 1) _ check true 1).mp (fun _ => restarts) executed⟩

/-- The runnable runs during `prepare`. The tunnel comes up on the network that is gone, and
`monitor` finds nothing to do. -/
theorem change_during_prepare_lost :
    let st := (created (some 1)).run (setup roam [])
    st.phase = .checking 1 ∧ st.executed = true ∧ st.selectedUnderlyingNetwork = some 2 ∧
      (st.advance true 1).phase = .polling 1 := by
  decide +kernel

end Service

end MouseVpn.Android
