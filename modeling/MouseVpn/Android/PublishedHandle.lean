import MouseVpn.Android.NetworkChange
import MouseVpn.Lib.Counter

/-!
# The handle of a session that is not yet published

`disconnect` and `onDestroy` take the handle away, and each attempt of the connection thread clears
its own. The attempt that comes next finds no handle of an earlier one, as long as the generations
do not wrap around.
-/

namespace MouseVpn.Android

open MouseVpn.Lib
open MouseVpn.Lib.Counter (Room)

/-- An attempt is on its way to the publication of its handle. -/
def Phase.Preparing : Phase → Prop
  | .entering | .resetting | .preparing | .publishing _ => True
  | _ => False

/-- There is no attempt, or the attempt has not published its handle yet. -/
def Phase.Unpublished : Phase → Prop
  | .idle | .head | .returned => True
  | phase => phase.Preparing

def Phase.Confirmed : Phase → Prop
  | .establishing | .established | .starting | .started => True
  | .looping _ | .checking _ | .polling _ | .restarting _ => True
  | _ => False

/-- The handle that `monitor` was called with. -/
def Phase.monitored : Phase → Option UInt64
  | .looping current | .checking current | .polling current | .restarting current => some current
  | _ => none

theorem Phase.Preparing.unpublished {phase : Phase} (h : phase.Preparing) : phase.Unpublished := by
  cases phase <;> trivial

namespace MainPhase

/-- The generation has been advanced by the call that is being made. -/
def Bumped : MainPhase → Prop
  | .withdrawing | .cancelling => True
  | .destroyCancelling | .destroyWithdrawing | .removing | .shuttingDown => True
  | _ => False

/-- The handle has been taken away by the call that is being made. -/
def Withdrawn : MainPhase → Prop
  | .cancelling | .removing | .shuttingDown => True
  | _ => False

theorem Withdrawn.bumped {main : MainPhase} (h : main.Withdrawn) : main.Bumped := by
  cases main <;> trivial

theorem older_bumped {main : MainPhase} (h : main.older.Bumped) : main.Bumped := by
  cases main <;> exact h

end MainPhase

namespace Service

variable {st : Service}

/-- The handle has been taken away, or the thread has been interrupted. -/
def Withdrawn (st : Service) : Prop := st.main.Withdrawn ∨ st.interrupted = true

/-- Only `onDestroy` interrupts the thread while there is still a handle. Until it has taken the
handle away an attempt may return and leave it behind, but as a stop has been asked for, no other
attempt gets ahead. -/
structure Sound (st : Service) : Prop where
  queued : ∀ generation ∈ st.queued, generation ≤ st.connectionGeneration
  running : st.generation ≤ st.connectionGeneration
  bumped : st.main.Bumped → st.generation < st.connectionGeneration ∧
    ∀ generation ∈ st.queued, generation < st.connectionGeneration
  interrupted : st.interrupted = true → st.generation < st.connectionGeneration
  destroying : st.main = .destroying ∨ st.main = .destroyCancelling ∨
    st.main = .destroyWithdrawing → st.stopRequested = true
  preparing : st.phase.Preparing → st.handle = 0
  unpublished : st.main ≠ .destroyWithdrawing → st.phase.Unpublished → st.handle = 0
  monitored : ∀ current, st.phase.monitored = some current → st.handle = current ∨ st.handle = 0
  withdrawn : st.main ≠ .destroyWithdrawing → st.Withdrawn → st.phase.Confirmed → st.handle = 0

theorem Sound.inactive (sound : Sound st) (withdrawn : st.Withdrawn) :
    st.isAttemptActive = false := by
  have hlt : st.generation < st.connectionGeneration := by
    rcases withdrawn with hmain | hinterrupted
    · exact (sound.bumped hmain.bumped).1
    · exact sound.interrupted hinterrupted
  have hne : st.connectionGeneration ≠ st.generation := (UInt64.ne_of_lt hlt).symm
  simp [isAttemptActive, hne]

theorem Sound.not_destroyWithdrawing (sound : Sound st) (active : st.isAttemptActive = true) :
    st.main ≠ .destroyWithdrawing := by
  intro hmain
  simp [isAttemptActive, sound.destroying (.inr (.inr hmain))] at active

theorem Sound.move (sound : Sound st) {phase : Phase}
    (preparing : phase.Preparing → st.handle = 0)
    (unpublished : st.main ≠ .destroyWithdrawing → phase.Unpublished → st.handle = 0)
    (monitored : ∀ current, phase.monitored = some current →
      st.handle = current ∨ st.handle = 0)
    (confirmed : phase.Confirmed → st.phase.Confirmed ∨ st.isAttemptActive = true) :
    Sound { st with phase } where
  queued := sound.queued
  running := sound.running
  bumped := sound.bumped
  interrupted := sound.interrupted
  destroying := sound.destroying
  preparing := preparing
  unpublished := unpublished
  monitored := monitored
  withdrawn := by
    intro hmain withdrawn hconfirmed
    rcases confirmed hconfirmed with hbefore | hactive
    · exact sound.withdrawn hmain withdrawn hbefore
    · rw [sound.inactive withdrawn] at hactive
      cases hactive

theorem Sound.moveEarly (sound : Sound st) {phase : Phase} (early : st.phase.Unpublished)
    (preparing : phase.Preparing → st.phase.Preparing ∨ st.isAttemptActive = true)
    (unmonitored : phase.monitored = none) (unconfirmed : ¬ phase.Confirmed) :
    Sound { st with phase } := by
  refine sound.move ?_ (fun hmain _ => sound.unpublished hmain early) ?_
    (fun h => absurd h unconfirmed)
  · intro h
    rcases preparing h with hbefore | hactive
    · exact sound.preparing hbefore
    · exact sound.unpublished (sound.not_destroyWithdrawing hactive) early
  · intro current h
    rw [unmonitored] at h
    cases h

theorem Sound.moveConfirmed (sound : Sound st) {phase : Phase} (confirmed : st.phase.Confirmed)
    (published : ¬ phase.Unpublished) (unmonitored : phase.monitored = none) :
    Sound { st with phase } := by
  refine sound.move (fun h => absurd h.unpublished published) (fun _ h => absurd h published) ?_
    (fun _ => .inl confirmed)
  intro current h
  rw [unmonitored] at h
  cases h

theorem Sound.withFlag (sound : Sound st) (flag : Bool) :
    Sound { st with networkRestartRequested := flag } :=
  ⟨sound.queued, sound.running, sound.bumped, sound.interrupted, sound.destroying,
    sound.preparing, sound.unpublished, sound.monitored, sound.withdrawn⟩

theorem Sound.reset (sound : Sound st) (hphase : st.phase = .resetting) : Sound st.reset where
  queued := sound.queued
  running := sound.running
  bumped := fun h => sound.bumped (MainPhase.older_bumped h)
  interrupted := sound.interrupted
  destroying := by
    intro h
    apply sound.destroying
    cases hmain : st.main <;> simp [Service.reset, MainPhase.older, hmain] at h ⊢
  preparing := fun _ => sound.preparing (hphase ▸ trivial)
  unpublished := fun _ _ => sound.preparing (hphase ▸ trivial)
  monitored := fun _ h => (Option.some_ne_none _ h.symm).elim
  withdrawn := fun _ _ h => h.elim

theorem Sound.dequeue (sound : Sound st) (hphase : st.phase = .idle) : Sound st.dequeue := by
  cases hqueued : st.queued with
  | nil =>
    rw [Service.dequeue, hqueued]
    exact sound
  | cons generation queued =>
    rw [Service.dequeue, hqueued]
    have hle := sound.queued
    rw [hqueued, List.forall_mem_cons] at hle
    refine ⟨hle.2, hle.1, ?_, fun h => Bool.noConfusion h, sound.destroying, False.elim, ?_,
      fun _ h => (Option.some_ne_none _ h.symm).elim, fun _ _ h => h.elim⟩
    · intro h
      obtain ⟨-, hlt⟩ := sound.bumped h
      rw [hqueued, List.forall_mem_cons] at hlt
      exact hlt
    · exact fun hmain _ => sound.unpublished hmain (hphase ▸ trivial)

theorem Sound.left (sound : Sound st) {current : UInt64} (hmain : st.main ≠ .destroyWithdrawing)
    (hmonitored : st.phase.monitored = some current) (confirmed : st.phase.Confirmed)
    (leaves : st.interrupted = true ∨ st.handle ≠ current) : st.handle = 0 := by
  rcases leaves with hinterrupted | hne
  · exact sound.withdrawn hmain (.inr hinterrupted) confirmed
  · exact (sound.monitored current hmonitored).resolve_left hne

theorem Sound.moveMonitored (sound : Sound st) {phase : Phase} {current : UInt64}
    (hmonitored : st.phase.monitored = some current) (confirmed : st.phase.Confirmed)
    (unprepared : ¬ phase.Preparing)
    (unpublished : phase.Unpublished → st.interrupted = true ∨ st.handle ≠ current)
    (monitored : phase.monitored = some current ∨ phase.monitored = none) :
    Sound { st with phase } := by
  refine sound.move (fun h => absurd h unprepared)
    (fun hmain h => sound.left hmain hmonitored confirmed (unpublished h)) ?_
    (fun _ => .inl confirmed)
  intro other h
  rcases monitored with hsame | hnone
  · rw [hsame] at h
    cases h
    exact sound.monitored current hmonitored
  · rw [hnone] at h
    cases h

theorem Sound.advance (sound : Sound st) (ok : Bool) (prepared : UInt64) :
    Sound (st.advance ok prepared) := by
  cases hphase : st.phase with
  | idle =>
    simp only [Service.advance, hphase]
    exact sound.dequeue hphase
  | head =>
    simp only [Service.advance, hphase]
    refine sound.moveEarly (hphase ▸ trivial) ?_ ?_ ?_
    · split_ifs with hactive
      · exact fun _ => .inr hactive
      · exact False.elim
    · split_ifs <;> rfl
    · split_ifs <;> exact False.elim
  | entering | preparing =>
    simp only [Service.advance, hphase]
    refine sound.moveEarly (hphase ▸ trivial) (fun _ => .inl (hphase ▸ trivial)) ?_ ?_
    · split_ifs <;> rfl
    · split_ifs <;> exact False.elim
  | resetting =>
    simp only [Service.advance, hphase]
    exact sound.reset hphase
  | publishing prepared =>
    simp only [Service.advance, hphase]
    exact ⟨sound.queued, sound.running, sound.bumped, sound.interrupted, sound.destroying,
      False.elim, fun _ => False.elim, fun _ h => (Option.some_ne_none _ h.symm).elim,
      fun _ _ h => h.elim⟩
  | published =>
    simp only [Service.advance, hphase]
    refine sound.move ?_ ?_ ?_ ?_
    · split_ifs <;> exact False.elim
    · split_ifs <;> exact fun _ => False.elim
    · intro current
      split_ifs <;> exact fun h => (Option.some_ne_none _ h.symm).elim
    · split_ifs with hactive
      · exact fun _ => .inr hactive
      · exact False.elim
  | establishing | established | starting =>
    simp only [Service.advance, hphase]
    refine sound.moveConfirmed (hphase ▸ trivial) ?_ ?_
    · split_ifs <;> exact False.elim
    · split_ifs <;> rfl
  | started =>
    simp only [Service.advance, hphase]
    refine sound.move False.elim (fun _ => False.elim) ?_ (fun _ => .inl (hphase ▸ trivial))
    intro current h
    exact .inl (Option.some.inj h)
  | looping current =>
    have hmonitored : st.phase.monitored = some current := by rw [hphase]; rfl
    simp only [Service.advance, hphase]
    refine sound.moveMonitored hmonitored (hphase ▸ trivial) ?_ ?_ ?_
    · split_ifs <;> exact False.elim
    · split_ifs with hgo
      · exact False.elim
      · intro _
        simpa [imp_iff_not_or] using hgo
    · split_ifs
      · exact .inl rfl
      · exact .inr rfl
  | checking current =>
    have hmonitored : st.phase.monitored = some current := by rw [hphase]; rfl
    simp only [Service.advance, hphase]
    refine (sound.withFlag false).moveMonitored hmonitored (hphase ▸ trivial) ?_ ?_ (.inl ?_)
    · split_ifs <;> exact False.elim
    · split_ifs <;> exact False.elim
    · split_ifs <;> rfl
  | polling current =>
    have hmonitored : st.phase.monitored = some current := by rw [hphase]; rfl
    simp only [Service.advance, hphase]
    refine sound.moveMonitored hmonitored (hphase ▸ trivial) ?_ ?_ ?_
    · split_ifs <;> exact False.elim
    · split_ifs with hfailed hinterrupted
      · exact False.elim
      · exact fun _ => .inl hinterrupted
      · exact False.elim
    · split_ifs
      · exact .inr rfl
      · exact .inr rfl
      · exact .inl rfl
  | restarting current =>
    have hmonitored : st.phase.monitored = some current := by rw [hphase]; rfl
    simp only [Service.advance, hphase]
    refine sound.moveMonitored hmonitored (hphase ▸ trivial) ?_ ?_ (.inr ?_)
    · split_ifs <;> exact False.elim
    · split_ifs with hsame
      · exact False.elim
      · exact fun _ => .inr hsame
    · split_ifs <;> rfl
  | clearing =>
    simp only [Service.advance, hphase]
    exact ⟨sound.queued, sound.running, sound.bumped, sound.interrupted, sound.destroying,
      fun _ => rfl, fun _ _ => rfl, fun _ _ => .inr rfl, fun _ _ _ => rfl⟩
  | returned =>
    simp only [Service.advance, hphase]
    refine sound.moveEarly (hphase ▸ trivial) ?_ ?_ ?_
    · split_ifs <;> exact False.elim
    · split_ifs <;> rfl
    · split_ifs <;> exact False.elim

/-- A step of the main thread by which the generation does not advance and no task is cancelled. -/
theorem Sound.withMain (sound : Sound st) {main : MainPhase} (posted : Option Bool)
    (flag executed stopRequested : Bool) (bumped : main.Bumped → st.main.Bumped)
    (withdrawn : main.Withdrawn → st.main.Withdrawn)
    (destroying : main = .destroying ∨ main = .destroyCancelling ∨ main = .destroyWithdrawing →
      stopRequested = true)
    (hmain : st.main ≠ .destroyWithdrawing) :
    Sound { st with main, posted, networkRestartRequested := flag, executed, stopRequested } where
  queued := sound.queued
  running := sound.running
  bumped := fun h => sound.bumped (bumped h)
  interrupted := sound.interrupted
  destroying := destroying
  preparing := sound.preparing
  unpublished := fun _ => sound.unpublished hmain
  monitored := sound.monitored
  withdrawn := fun _ h => sound.withdrawn hmain (h.imp_left withdrawn)

theorem Sound.bump (sound : Sound st) (room : Room st.connectionGeneration) {main : MainPhase}
    (unwithdrawn : ¬ main.Withdrawn) (hmain : st.main ≠ .destroyWithdrawing)
    (destroying : main = .destroying ∨ main = .destroyCancelling ∨ main = .destroyWithdrawing →
      st.stopRequested = true) :
    Sound { st with connectionGeneration := st.connectionGeneration + 1, main } where
  queued := fun generation hmem => Counter.le_succ_of_le room (sound.queued generation hmem)
  running := Counter.le_succ_of_le room sound.running
  bumped := fun _ => ⟨Counter.lt_succ_of_le room sound.running,
    fun generation hmem => Counter.lt_succ_of_le room (sound.queued generation hmem)⟩
  interrupted := fun h => Counter.lt_succ_of_lt room (sound.interrupted h)
  destroying := destroying
  preparing := sound.preparing
  unpublished := fun _ => sound.unpublished hmain
  monitored := sound.monitored
  withdrawn := fun _ h => sound.withdrawn hmain (.inr (h.resolve_left unwithdrawn))

theorem Sound.withdraw (sound : Sound st) {main : MainPhase} (bumped : st.main.Bumped)
    (hmain : main = .cancelling ∨ main = .removing) :
    Sound { st with handle := 0, main } where
  queued := sound.queued
  running := sound.running
  bumped := fun _ => sound.bumped bumped
  interrupted := sound.interrupted
  destroying := by rcases hmain with rfl | rfl <;> simp
  preparing := fun _ => rfl
  unpublished := fun _ _ => rfl
  monitored := fun _ _ => .inr rfl
  withdrawn := fun _ _ _ => rfl

/-- The task is cancelled or the executor shut down. Unless that is the step of `onDestroy` before
it takes the handle away, there is no handle any more that an attempt could leave behind. -/
theorem Sound.cancel (sound : Sound st) {main : MainPhase} {interrupted : Bool}
    {queued : List UInt64} (task : Option UInt64) (destroyed : Bool) (bumped : st.main.Bumped)
    (kept : ∀ generation ∈ queued, generation ∈ st.queued)
    (hmain : main = .idle ∧ st.main.Withdrawn ∧ st.main ≠ .destroyWithdrawing ∨
      main = .destroyWithdrawing ∧ st.main = .destroyCancelling) :
    Sound { st with interrupted, queued, task, destroyed, main } where
  queued := fun generation hmem => sound.queued generation (kept generation hmem)
  running := sound.running
  bumped := fun _ => ⟨(sound.bumped bumped).1,
    fun generation hmem => (sound.bumped bumped).2 generation (kept generation hmem)⟩
  interrupted := fun _ => (sound.bumped bumped).1
  destroying := by
    rcases hmain with ⟨rfl, -⟩ | ⟨rfl, hbefore⟩
    · simp
    · exact fun _ => sound.destroying (.inr (.inl hbefore))
  preparing := sound.preparing
  unpublished := by
    rcases hmain with ⟨-, -, hbefore⟩ | ⟨rfl, -⟩
    · exact fun _ => sound.unpublished hbefore
    · exact fun h => absurd rfl h
  monitored := sound.monitored
  withdrawn := by
    rcases hmain with ⟨-, hwithdrawn, hbefore⟩ | ⟨rfl, -⟩
    · exact fun _ _ => sound.withdrawn hbefore (.inl hwithdrawn)
    · exact fun h => absurd rfl h

theorem Sound.mainStep (sound : Sound st) (room : Room st.connectionGeneration) :
    Sound st.mainStep := by
  cases hmain : st.main with
  | idle =>
    simp only [Service.mainStep, hmain]
    exact sound
  | setting since =>
    simp only [Service.mainStep, hmain]
    exact sound.withMain st.posted true _ st.stopRequested False.elim False.elim (by simp)
      (by simp [hmain])
  | bumping =>
    simp only [Service.mainStep, hmain]
    exact sound.bump room id (by simp [hmain]) (by simp)
  | withdrawing =>
    simp only [Service.mainStep, hmain]
    exact sound.withdraw (hmain ▸ trivial) (.inl rfl)
  | cancelling =>
    simp only [Service.mainStep, hmain, cancelTask]
    exact sound.cancel none st.destroyed (hmain ▸ trivial) (fun _ => List.mem_of_mem_filter)
      (.inl ⟨rfl, hmain ▸ trivial, by simp [hmain]⟩)
  | destroying =>
    simp only [Service.mainStep, hmain]
    exact sound.bump room id (by simp [hmain]) fun _ => sound.destroying (.inl hmain)
  | destroyCancelling =>
    simp only [Service.mainStep, hmain, cancelTask]
    exact sound.cancel st.task st.destroyed (hmain ▸ trivial) (fun _ => List.mem_of_mem_filter)
      (.inr ⟨rfl, hmain⟩)
  | destroyWithdrawing =>
    simp only [Service.mainStep, hmain]
    exact sound.withdraw (hmain ▸ trivial) (.inr rfl)
  | removing =>
    simp only [Service.mainStep, hmain]
    exact sound.withMain none _ _ st.stopRequested (fun _ => hmain ▸ trivial)
      (fun _ => hmain ▸ trivial) (by simp) (by simp [hmain])
  | shuttingDown =>
    simp only [Service.mainStep, hmain]
    exact sound.cancel st.task true (hmain ▸ trivial) (fun _ h => absurd h List.not_mem_nil)
      (.inl ⟨rfl, hmain ▸ trivial, by simp [hmain]⟩)

theorem Sound.startCommand (sound : Sound st) (room : Room st.connectionGeneration)
    (hmain : st.main = .idle) : Sound st.startCommand := by
  rw [Service.startCommand]
  split_ifs
  · refine ⟨?_, Counter.le_succ_of_le room sound.running, ?_, ?_, ?_, sound.preparing,
      sound.unpublished, sound.monitored, sound.withdrawn⟩
    · intro generation hmem
      rcases List.mem_append.mp hmem with hold | hnew
      · exact Counter.le_succ_of_le room (sound.queued generation hold)
      · rw [List.mem_singleton.mp hnew]
        exact UInt64.le_refl _
    · intro h
      rw [hmain] at h
      exact h.elim
    · exact fun h => Counter.lt_succ_of_lt room (sound.interrupted h)
    · simp [hmain]
  · exact sound

theorem Sound.runnable (sound : Sound st) (hmain : st.main = .idle) : Sound st.runnable := by
  rw [Service.runnable]
  split
  · exact sound
  · split_ifs
    · exact sound.withMain none _ _ _ False.elim False.elim (by simp) (by simp [hmain])
    · exact sound.withMain none _ _ _ id id sound.destroying (by simp [hmain])

theorem Sound.step (sound : Sound st) (room : Room st.connectionGeneration)
    (event : ServiceEvent) : Sound (st.step event).1 := by
  cases event with
  | startCommand =>
    rw [Service.step]
    split_ifs with hserves
    · exact sound.startCommand room hserves.1
    · exact sound
  | disconnect =>
    rw [Service.step]
    split_ifs with hserves
    · exact sound.withMain st.posted _ _ true False.elim False.elim (by simp)
        (by simp [hserves.1])
    · exact sound
  | destroy =>
    rw [Service.step]
    split_ifs with hserves
    · exact sound.withMain st.posted _ _ true False.elim False.elim (fun _ => rfl)
        (by simp [hserves.1])
    · exact sound
  | main => exact sound.mainStep room
  | callback networks =>
    rw [Service.step]
    split_ifs
    · exact ⟨sound.queued, sound.running, sound.bumped, sound.interrupted, sound.destroying,
        sound.preparing, sound.unpublished, sound.monitored, sound.withdrawn⟩
    · exact sound
  | signal =>
    rw [Service.step, signal]
    split
    · exact sound
    · exact ⟨sound.queued, sound.running, sound.bumped, sound.interrupted, sound.destroying,
        sound.preparing, sound.unpublished, sound.monitored, sound.withdrawn⟩
  | runnable =>
    rw [Service.step]
    split_ifs with hmain
    · exact sound.runnable hmain
    · exact sound
  | advance ok prepared => exact sound.advance ok prepared

theorem sound_created (selected : Option Network) : Sound (created selected) where
  queued := by simp [created]
  running := UInt64.le_refl 0
  bumped := False.elim
  interrupted := by simp [created]
  destroying := by simp [created]
  preparing := fun _ => rfl
  unpublished := fun _ _ => rfl
  monitored := fun _ h => (Option.some_ne_none _ h.symm).elim
  withdrawn := fun _ _ h => h.elim

theorem connectionGeneration_step (st : Service) (event : ServiceEvent) :
    (st.step event).1.connectionGeneration = st.connectionGeneration ∨
      (st.step event).1.connectionGeneration = st.connectionGeneration + 1 := by
  cases event with
  | startCommand =>
    simp only [step, startCommand]
    split_ifs
    · exact .inr rfl
    · exact .inl rfl
    · exact .inl rfl
  | disconnect | destroy =>
    simp only [step]
    split_ifs <;> exact .inl rfl
  | main =>
    simp only [step, mainStep]
    split <;> first | exact .inl rfl | exact .inr rfl
  | callback networks =>
    simp only [step]
    split_ifs <;> exact .inl rfl
  | signal =>
    simp only [step, signal]
    split <;> exact .inl rfl
  | runnable =>
    simp only [step, runnable]
    cases st.posted <;> split_ifs <;> exact .inl rfl
  | advance ok prepared =>
    left
    simp only [step, advance]
    split
    · rw [dequeue]
      split <;> rfl
    all_goals rfl

/-- An attempt that has not published its handle runs without one, whatever the other threads have
done: a runnable that runs then sets no flag. Between two attempts there is none either, except
while `onDestroy` has cancelled the task and has not yet taken the handle away. -/
theorem handle_eq_zero_of_unpublished (selected : Option Network) (events : List ServiceEvent)
    (few : events.length < 2 ^ 64) :
    (((created selected).run events).phase.Preparing →
        ((created selected).run events).handle = 0) ∧
      (((created selected).run events).main ≠ .destroyWithdrawing →
        ((created selected).run events).phase.Unpublished →
          ((created selected).run events).handle = 0) := by
  have sound : Sound ((created selected).run events) :=
    Counter.run_invariant connectionGeneration_step Sound
      (fun _ event sound room => sound.step room event) (sound_created selected)
      (by simpa [created] using few)
  exact ⟨sound.preparing, sound.unpublished⟩

/-- A first attempt publishes a handle, is disconnected, and returns. -/
def disconnected : List ServiceEvent :=
  .startCommand :: List.replicate 7 (.advance true 5) ++ [.disconnect, .main, .main, .main] ++
    [.advance true 5, .advance false 5, .advance true 5, .advance false 5]

theorem second_attempt_handle :
    ((created (some 1)).run (disconnected.take 7)).handle = 5 ∧
      ((created (some 1)).run
        (disconnected ++ .startCommand :: List.replicate 5 (.advance true 6))).phase =
          .publishing 6 ∧
      ((created (some 1)).run
        (disconnected ++ .startCommand :: List.replicate 5 (.advance true 6))).handle = 0 := by
  have hphase : ((created (some 1)).run
      (disconnected ++ .startCommand :: List.replicate 5 (.advance true 6))).phase =
        .publishing 6 := by
    decide +kernel
  exact ⟨by decide +kernel, hphase,
    (handle_eq_zero_of_unpublished (some 1) _ (by decide)).1 (hphase ▸ trivial)⟩

end Service

end MouseVpn.Android
