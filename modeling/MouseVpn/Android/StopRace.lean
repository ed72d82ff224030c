import MouseVpn.Android.SessionToken
import MouseVpn.Lib.Counter

/-!
# Whether `stop` is final

A `stop` that finds the session in the map ends it for good. A `stop` that comes while another
call holds it finds nothing, and returns. No run considered here is long enough for the handles to
wrap around.
-/

namespace MouseVpn.Android.State

open MouseVpn.Lib Function Tokens
open MouseVpn.Lib.Counter (Room)

variable {Pending : Type} {st st' : State Pending} {handle handle' : Handle} {i : ℕ}
  {call call' : Call Pending}

structure Tracked (handle : Handle) (st : State Pending) : Prop where
  issued : handle < st.nextHandle
  sole : Sole (st.held handle)
  worker : ∀ p session, st.held handle p = some (.running session) →
    ∃ alive, st.workers[session.worker]? = some ⟨handle, alive⟩
  holder : ∀ w : ℕ, st.workers[w]? = some ⟨handle, true⟩ →
    ∃ p, st.held handle p = some (.running ⟨w⟩)

structure Quiet (handle : Handle) (st : State Pending) : Prop where
  issued : handle < st.nextHandle
  noPending : ∀ p session, st.held handle p ≠ some (.pending session)
  notRunning : ¬ st.Running handle

theorem running_iff : st.Running handle ↔ ∃ w : ℕ, st.workers[w]? = some ⟨handle, true⟩ :=
  List.mem_iff_getElem?

theorem isAlive_iff {w : ℕ} {alive : Bool} (h : st.workers[w]? = some ⟨handle, alive⟩) :
    st.isAlive w = alive := by
  rw [isAlive, h]

theorem advance_shape (st : State Pending) (i : ℕ) (spawns : Bool) :
    st.advance i spawns = st ∨ ∃ registry workers entry,
      st.advance i spawns = ⟨st.nextHandle, registry, st.calls.set i entry, workers⟩ := by
  cases at_i : st.calls[i]? with
  | none =>
    left
    simp only [advance, at_i]
  | some entry =>
    obtain ⟨handle, call⟩ := entry
    cases call with
    | starting =>
      simp only [advance, at_i, takePending]
      split <;> exact .inr ⟨_, _, _, rfl⟩
    | taken session =>
      simp only [advance, at_i]
      split <;> exact .inr ⟨_, _, _, rfl⟩
    | spawned session =>
      simp only [advance, at_i]
      exact .inr ⟨_, _, _, rfl⟩
    | takenRunning session =>
      simp only [advance, at_i]
      exact .inr ⟨_, _, _, rfl⟩
    | stopping =>
      simp only [advance, at_i, removeEntry]
      split <;> exact .inr ⟨_, _, _, rfl⟩
    | joining session =>
      simp only [advance, at_i, join]
      split
      · exact .inl rfl
      · exact .inr ⟨_, _, _, rfl⟩
    | started ok =>
      left
      simp only [advance, at_i]
    | stopped =>
      left
      simp only [advance, at_i]

theorem nextHandle_step (st : State Pending) (event : Event Pending) :
    (st.step event).1.nextHandle = st.nextHandle ∨
      (st.step event).1.nextHandle = st.nextHandle + 1 := by
  cases event with
  | prepare session => exact .inr rfl
  | callStart handle' => exact .inl rfl
  | callStop handle' => exact .inl rfl
  | advance i spawns =>
    rw [step]
    rcases advance_shape st i spawns with h | ⟨registry, workers, entry, h⟩
    · exact .inl (by rw [h])
    · exact .inl (by rw [h])
  | workerExits w => exact .inl rfl

theorem step_issued (issued : handle < st.nextHandle) (room : Room st.nextHandle)
    (event : Event Pending) : handle < (st.step event).1.nextHandle := by
  rcases nextHandle_step st event with h | h
  · exact h ▸ issued
  · exact h ▸ Counter.lt_succ_of_lt room issued

theorem step_call (at_i : st.calls[i]? = some (handle, call)) (event : Event Pending)
    (other : ∀ spawns, event ≠ .advance i spawns) :
    (st.step event).1.calls[i]? = some (handle, call) := by
  obtain ⟨hlt, -⟩ := List.getElem?_eq_some_iff.1 at_i
  cases event with
  | prepare session => exact at_i
  | callStart handle' => exact (List.getElem?_append_left hlt).trans at_i
  | callStop handle' => exact (List.getElem?_append_left hlt).trans at_i
  | advance j spawns =>
    have hne : j ≠ i := fun h => other spawns (by rw [h])
    rw [step]
    rcases advance_shape st j spawns with h | ⟨registry, workers, entry, h⟩
    · rw [h]
      exact at_i
    · rw [h]
      exact (List.getElem?_set_ne hne).trans at_i
  | workerExits w => exact at_i

theorem Tracked.holder_at (tracked : Tracked handle st) {p : Option ℕ} {w : ℕ}
    (some_p : st.held handle p ≠ none) (hw : st.workers[w]? = some ⟨handle, true⟩) :
    st.held handle p = some (.running ⟨w⟩) := by
  obtain ⟨x, hx⟩ := tracked.holder w hw
  have hxp : x = p := by
    apply tracked.sole x p _ some_p
    rw [hx]
    exact Option.some_ne_none _
  rw [← hxp, hx]

theorem Tracked.step (tracked : Tracked handle st) (room : Room st.nextHandle)
    (event : Event Pending) : Tracked handle (st.step event).1 := by
  have issued := step_issued tracked.issued room event
  have hmoves := step_moves tracked.issued event
  generalize (st.step event).1 = st' at issued hmoves
  have hknown : ∀ {session}, Keeps handle st st' →
      (∃ p, st.held handle p = some (.running session)) →
      ∃ alive, st'.workers[session.worker]? = some ⟨handle, alive⟩ := by
    intro session keeps hheld
    obtain ⟨p, hp⟩ := hheld
    obtain ⟨alive, hw⟩ := tracked.worker p session hp
    exact keeps.known session.worker alive hw
  cases hmoves with
  | stay held_eq keeps =>
    refine ⟨issued, ?_, ?_, ?_⟩ <;> rw [held_eq]
    · exact tracked.sole
    · intro p session hp
      exact hknown keeps ⟨p, hp⟩
    · intro w hw
      exact tracked.holder w (keeps.alive w hw)
  | move p q some_p held_eq keeps =>
    refine ⟨issued, ?_, ?_, ?_⟩ <;> rw [held_eq]
    · exact tracked.sole.moved q some_p
    · intro x session hx
      exact hknown keeps (mem_moved hx)
    · intro w hw
      exact ⟨q, by rw [moved_self, tracked.holder_at some_p (keeps.alive w hw)]⟩
  | drop p idle held_eq keeps =>
    refine ⟨issued, ?_, ?_, ?_⟩ <;> rw [held_eq]
    · exact tracked.sole.dropped p
    · intro x session hx
      exact hknown keeps ⟨x, (mem_dropped hx).2⟩
    · intro w hw
      have hw' := keeps.alive w hw
      obtain ⟨x, hx⟩ := tracked.holder w hw'
      -- a session that is dropped has no worker that runs
      have hxp : x ≠ p := by
        intro h
        have hdead := idle ⟨w⟩ (h ▸ hx)
        rw [isAlive_iff hw'] at hdead
        exact Bool.noConfusion hdead
      exact ⟨x, by rw [update_of_ne hxp, hx]⟩
  | spawn p session pending held_eq workers_eq =>
    have some_p : st.held handle p ≠ none := by
      rw [pending]
      exact Option.some_ne_none _
    -- the pending session is the only one, so that no worker runs yet
    have hfirst : ∀ w : ℕ, st.workers[w]? ≠ some ⟨handle, true⟩ := by
      intro w hw
      have hrunning := tracked.holder_at some_p hw
      rw [pending] at hrunning
      cases hrunning
    have hnew : st'.workers[st.workers.length]? = some ⟨handle, true⟩ := by
      rw [workers_eq, List.getElem?_concat_length]
    have hplace : ∀ x, update (st.held handle) p (some (.running ⟨st.workers.length⟩)) x ≠ none →
        x = p := by
      intro x hx
      by_contra hxp
      rw [update_of_ne hxp] at hx
      exact hxp (tracked.sole x p hx some_p)
    refine ⟨issued, ?_, ?_, ?_⟩ <;> rw [held_eq]
    · exact tracked.sole.replaced some_p _
    · intro x session hx
      have hxp := hplace x (by rw [hx]; exact Option.some_ne_none _)
      rw [hxp, update_self] at hx
      cases hx
      exact ⟨true, hnew⟩
    · intro w hw
      refine ⟨p, ?_⟩
      rw [update_self]
      rw [workers_eq, List.getElem?_append] at hw
      split_ifs at hw with hlt
      · exact absurd hw (hfirst w)
      · rw [List.getElem?_singleton] at hw
        split_ifs at hw with hzero
        have hwl : w = st.workers.length := by omega
        rw [hwl]

theorem Quiet.step (quiet : Quiet handle st) (room : Room st.nextHandle) (event : Event Pending) :
    Quiet handle (st.step event).1 := by
  have issued := step_issued quiet.issued room event
  have hmoves := step_moves quiet.issued event
  generalize (st.step event).1 = st' at issued hmoves
  have hstill : Keeps handle st st' → ¬ st'.Running handle := by
    intro keeps hrunning
    obtain ⟨w, hw⟩ := running_iff.1 hrunning
    exact quiet.notRunning (running_iff.2 ⟨w, keeps.alive w hw⟩)
  cases hmoves with
  | stay held_eq keeps =>
    refine ⟨issued, ?_, hstill keeps⟩
    rw [held_eq]
    exact quiet.noPending
  | move p q some_p held_eq keeps =>
    refine ⟨issued, ?_, hstill keeps⟩
    rw [held_eq]
    intro x session hx
    obtain ⟨y, hy⟩ := mem_moved hx
    exact quiet.noPending y session hy
  | drop p idle held_eq keeps =>
    refine ⟨issued, ?_, hstill keeps⟩
    rw [held_eq]
    intro x session hx
    exact quiet.noPending x session (mem_dropped hx).2
  | spawn p session pending held_eq workers_eq => exact absurd pending (quiet.noPending p session)

theorem Tracked.quiet_of_empty (tracked : Tracked handle st)
    (empty : ∀ p, st.held handle p = none) : Quiet handle st := by
  refine ⟨tracked.issued, ?_, ?_⟩
  · intro p session hp
    rw [empty p] at hp
    cases hp
  · intro hrunning
    obtain ⟨w, hw⟩ := running_iff.1 hrunning
    obtain ⟨p, hp⟩ := tracked.holder w hw
    rw [empty p] at hp
    cases hp

theorem exists_call_of_held {entry : Entry Pending} (h : st.held handle (some i) = some entry) :
    ∃ call, st.calls[i]? = some (handle, call) ∧ callHeld call = some entry := by
  obtain ⟨⟨handle', call⟩, at_i, hheld⟩ := Option.bind_eq_some_iff.1 h
  split_ifs at hheld with heq
  exact ⟨call, by rw [at_i, ← heq], hheld⟩

theorem inFlight_of_held {entry : Entry Pending}
    (h : st.held handle (some i) = some entry)
    (live : ∀ session, entry = .running session → st.isAlive session.worker = true) :
    st.InFlight handle := by
  obtain ⟨call, at_i, hheld⟩ := exists_call_of_held h
  refine ⟨call, List.mem_of_getElem? at_i, ?_⟩
  cases call with
  | taken session => trivial
  | spawned session =>
    cases hheld
    exact live session rfl
  | takenRunning session =>
    cases hheld
    exact live session rfl
  | joining session =>
    cases hheld
    exact live session rfl
  | starting => cases hheld
  | started ok => cases hheld
  | stopping => cases hheld
  | stopped => cases hheld

theorem Tracked.quiet_of_not_inFlight (tracked : Tracked handle st)
    (entry : st.registry.lookup handle = none) (idle : ¬ st.InFlight handle) :
    Quiet handle st := by
  refine ⟨tracked.issued, ?_, ?_⟩
  · intro p session hp
    cases p with
    | none =>
      rw [held, entry] at hp
      cases hp
    | some j =>
      apply idle
      apply inFlight_of_held hp
      intro running hrunning
      cases hrunning
  · intro hrunning
    obtain ⟨w, hw⟩ := running_iff.1 hrunning
    obtain ⟨p, hp⟩ := tracked.holder w hw
    cases p with
    | none =>
      rw [held, entry] at hp
      cases hp
    | some j =>
      apply idle
      apply inFlight_of_held hp
      intro running heq
      cases heq
      exact isAlive_iff hw

/-- A `stop` of the handle has ended its session, or holds it until its worker ends. -/
def Ended (handle : Handle) (i : ℕ) (st : State Pending) : Prop :=
  Quiet handle st ∨
    Tracked handle st ∧ ∃ session, st.calls[i]? = some (handle, .joining session)

theorem Ended.step (ended : Ended handle i st) (room : Room st.nextHandle)
    (event : Event Pending) : Ended handle i (st.step event).1 := by
  rcases ended with quiet | ⟨tracked, session, at_i⟩
  · exact .inl (quiet.step room event)
  · have tracked' := tracked.step room event
    by_cases hown : ∃ spawns, event = .advance i spawns
    · obtain ⟨spawns, rfl⟩ := hown
      have hholds : st.held handle (some i) ≠ none := by
        rw [held_call at_i]
        exact Option.some_ne_none _
      revert tracked'
      simp only [State.step, advance, at_i, join]
      intro tracked'
      split_ifs at tracked' ⊢
      · exact .inr ⟨tracked, session, at_i⟩
      · left
        apply tracked'.quiet_of_empty
        rw [held_setCall_none st at_i _ rfl]
        exact tracked.sole.dropped_eq_none hholds
    · refine .inr ⟨tracked', session, step_call at_i event ?_⟩
      intro spawns heq
      exact hown ⟨spawns, heq⟩

theorem ended_of_not_inFlight (tracked : Tracked handle st)
    (at_i : st.calls[i]? = some (handle, .stopping)) (idle : ¬ st.InFlight handle)
    (room : Room st.nextHandle) (spawns : Bool) :
    Ended handle i (st.step (.advance i spawns)).1 := by
  cases entry : st.registry.lookup handle with
  | none => exact .inl ((tracked.quiet_of_not_inFlight entry idle).step room _)
  | some found =>
    have tracked' := tracked.step room (.advance i spawns)
    have hholds : st.held handle none ≠ none := by
      rw [held, entry]
      exact Option.some_ne_none _
    revert tracked'
    cases found with
    | pending session =>
      simp only [step, advance, at_i, removeEntry, entry]
      intro tracked'
      left
      apply tracked'.quiet_of_empty
      rw [held_removePending at_i]
      exact tracked.sole.dropped_eq_none hholds
    | running session =>
      simp only [step, advance, at_i, removeEntry, entry]
      intro tracked'
      obtain ⟨hlt, -⟩ := List.getElem?_eq_some_iff.1 at_i
      exact .inr ⟨tracked', session, List.getElem?_set_self hlt⟩

theorem Prepared.tracked (prepared : st.Prepared handle) : Tracked handle st := by
  have hcalls : ∀ j, st.held handle (some j) = none := by
    intro j
    by_contra hne
    obtain ⟨entry, hentry⟩ := Option.ne_none_iff_exists'.1 hne
    obtain ⟨call, at_j, -⟩ := exists_call_of_held hentry
    exact prepared.noCall call (List.mem_of_getElem? at_j)
  refine ⟨prepared.issued, ?_, ?_, ?_⟩
  · intro p q hp hq
    cases p with
    | some j => exact absurd (hcalls j) hp
    | none =>
      cases q with
      | some j => exact absurd (hcalls j) hq
      | none => rfl
  · intro p session hp
    cases p with
    | some j =>
      rw [hcalls j] at hp
      cases hp
    | none =>
      obtain ⟨pending, hpending⟩ := prepared.entry
      rw [held, hpending] at hp
      cases hp
  · intro w hw
    exact absurd (List.mem_of_getElem? hw) (prepared.noWorker true)

theorem lookup_eq_none_of_inFlight (tracked : Tracked handle st) (inFlight : st.InFlight handle) :
    st.registry.lookup handle = none := by
  obtain ⟨call, hmem, hcall⟩ := inFlight
  obtain ⟨j, at_j⟩ := List.mem_iff_getElem?.1 hmem
  have hj : st.held handle (some j) ≠ none := by
    rw [held_call at_j]
    cases call with
    | taken session => exact Option.some_ne_none _
    | spawned session => exact Option.some_ne_none _
    | takenRunning session => exact Option.some_ne_none _
    | joining session => exact Option.some_ne_none _
    | starting => exact hcall.elim
    | started ok => exact hcall.elim
    | stopping => exact hcall.elim
    | stopped => exact hcall.elim
  exact tracked.sole.eq_none hj (Option.some_ne_none j).symm

theorem running_of_held (tracked : Tracked handle st) {p : Option ℕ} {session : SpawnedSession}
    (h : st.held handle p = some (.running session)) (live : st.isAlive session.worker = true) :
    st.Running handle := by
  obtain ⟨alive, hw⟩ := tracked.worker p session h
  rw [isAlive_iff hw] at live
  exact running_iff.2 ⟨session.worker, by rw [hw, live]⟩

theorem stop_overtaken (tracked : Tracked handle st)
    (at_i : st.calls[i]? = some (handle, .stopping)) (inFlight : st.InFlight handle)
    (spawns : Bool) :
    ∃ later, later.length ≤ 1 ∧
      ((st.step (.advance i spawns)).1.run later).StopReturned handle i ∧
      ((st.step (.advance i spawns)).1.run later).Running handle := by
  obtain ⟨hlt, -⟩ := List.getElem?_eq_some_iff.1 at_i
  have hstop : (st.step (.advance i spawns)).1 = st.setCall i handle .stopped := by
    simp only [step, advance, at_i, removeEntry, lookup_eq_none_of_inFlight tracked inFlight]
  have hreturned : (st.setCall i handle .stopped).calls[i]? = some (handle, .stopped) :=
    List.getElem?_set_self hlt
  rw [hstop]
  obtain ⟨call, hmem, hcall⟩ := inFlight
  obtain ⟨j, at_j⟩ := List.mem_iff_getElem?.1 hmem
  have hlive : ∀ session, callHeld call = some (.running session) →
      st.isAlive session.worker = true → (st.setCall i handle .stopped).Running handle := by
    intro session hsession live
    have running : st.Running handle :=
      running_of_held tracked ((held_call at_j).trans hsession) live
    exact running
  cases call with
  | taken session =>
    -- the start goes on, and makes the worker
    have hij : i ≠ j := by
      intro h
      rw [← h, at_i] at at_j
      cases at_j
    have at_j' : (st.setCall i handle .stopped).calls[j]? = some (handle, .taken session) :=
      (List.getElem?_set_ne hij).trans at_j
    refine ⟨[.advance j true], Nat.le_refl _, ?_, ?_⟩
    · apply step_call hreturned
      intro flag h
      cases h
      exact hij rfl
    · change (State.advance _ j true).Running handle
      simp only [advance, at_j', if_true]
      exact List.mem_append_right _ (List.mem_singleton_self _)
  | spawned session => exact ⟨[], Nat.zero_le _, hreturned, hlive session rfl hcall⟩
  | takenRunning session => exact ⟨[], Nat.zero_le _, hreturned, hlive session rfl hcall⟩
  | joining session => exact ⟨[], Nat.zero_le _, hreturned, hlive session rfl hcall⟩
  | starting => exact hcall.elim
  | started ok => exact hcall.elim
  | stopping => exact hcall.elim
  | stopped => exact hcall.elim

/-- A `stop` of a prepared handle, whatever runs before it and beside it, leaves no session that
runs, at its return and as long as the handles do not wrap around, exactly if no other call holds
the session of the handle at the moment at which the `stop` takes the lock. -/
theorem stop_final_iff {st : State Pending} (prepared : st.Prepared handle)
    (before : List (Event Pending)) (at_i : (st.run before).calls[i]? = some (handle, .stopping))
    (spawns : Bool) (few : st.nextHandle.toNat + before.length + 2 < 2 ^ 64) :
    (∀ later, st.nextHandle.toNat + before.length + 1 + later.length < 2 ^ 64 →
        ((st.run before).run (.advance i spawns :: later)).StopReturned handle i →
        ¬ ((st.run before).run (.advance i spawns :: later)).Running handle) ↔
      ¬ (st.run before).InFlight handle := by
  have tracked : Tracked handle (st.run before) :=
    Counter.run_invariant nextHandle_step (Tracked handle) (fun _ event h room => h.step room event)
      prepared.tracked (by omega)
  have hcount : (st.run before).nextHandle.toNat ≤ st.nextHandle.toNat + before.length :=
    Counter.toNat_run_le nextHandle_step st before
  constructor
  · intro final inFlight
    obtain ⟨later, hlength, returned, running⟩ := stop_overtaken tracked at_i inFlight spawns
    exact final later (by omega) returned running
  · intro idle later hlater returned running
    have hstopped : ((st.run before).step (.advance i spawns)).1.nextHandle.toNat ≤
        (st.run before).nextHandle.toNat + 1 :=
      Counter.toNat_run_le nextHandle_step (st.run before) [.advance i spawns]
    have ended : Ended handle i ((st.run before).run (.advance i spawns :: later)) :=
      Counter.run_invariant nextHandle_step (Ended handle i)
        (fun _ event h room => h.step room event)
        (ended_of_not_inFlight tracked at_i idle (by unfold Room; omega) spawns) (by omega)
    rcases ended with quiet | ⟨-, session, joining⟩
    · exact quiet.notRunning running
    · rw [StopReturned, joining] at returned
      cases returned

theorem prepared_first : (insertPending empty ()).Prepared 1 := by
  refine ⟨by decide, ⟨(), rfl⟩, ?_, ?_⟩
  · intro call hmem
    exact absurd hmem List.not_mem_nil
  · intro alive hmem
    exact absurd hmem List.not_mem_nil

/-- A `start` returns, and a `stop` after it waits for the worker. -/
theorem stop_after_start_final :
    let st := ((insertPending empty ()).run [.callStart 1, .advance 0 true, .advance 0 true,
      .advance 0 true, .callStop 1]).run [.advance 1 true, .workerExits 0, .advance 1 true]
    st.StopReturned 1 1 ∧ ¬ st.Running 1 := by
  have idle : ¬ ((insertPending empty ()).run [.callStart 1, .advance 0 true, .advance 0 true,
      .advance 0 true, .callStop 1]).InFlight 1 := by
    intro inFlight
    obtain ⟨call, hmem, hcall⟩ := inFlight
    change (1, call) ∈ [(1, Call.started true), (1, Call.stopping)] at hmem
    rcases List.mem_cons.1 hmem with h | h
    · cases h
      exact hcall
    · cases List.mem_singleton.1 h
      exact hcall
  exact ⟨rfl, (stop_final_iff prepared_first _ rfl true (by decide)).2 idle
    [.workerExits 0, .advance 1 true] (by decide) rfl⟩

/-- A `start` takes the prepared session, a `stop` finds no entry and returns, and the `start`
goes on: the session runs, and is in the map as running, with nobody left to stop it. -/
theorem start_outlives_stop :
    (insertPending empty ()).Prepared 1 ∧
      let st := (insertPending empty ()).run [.callStart 1, .advance 0 true, .callStop 1,
        .advance 1 true, .advance 0 true, .advance 0 true]
      st.StopReturned 1 1 ∧ st.calls[0]? = some (1, .started true) ∧ st.Running 1 ∧
        st.registry.lookup 1 = some (.running ⟨0⟩) :=
  ⟨prepared_first, rfl, rfl, List.mem_singleton_self _, rfl⟩

end MouseVpn.Android.State
