import MouseVpn.Lib.Counter
import MouseVpn.Linux.Reconnect

/-!
# Whose request is taken

A request carries the generation that the worker reads after its send has failed. Taken as
true, the request belongs to the current generation by its tag. Whether the send belongs to it
depends on what the packet loop has done between the send and the reading. No run considered here
is long enough for the generation to wrap around.
-/

namespace MouseVpn.Linux.State

open MouseVpn.Lib
open MouseVpn.Lib.Counter (Room)

variable {st st' : State} {error : SendError} {tag : UInt64}

def handling : WorkerPhase → Option SendError
  | .draining => none
  | .drained => none
  | .polling => none
  | .sending => none
  | .failed error => some error
  | .loaded error _ => some error

inductive Effect (st st' : State) : Prop
  | none (h : st' = st)
  | worker (idle : handling st'.worker = Option.none) (requested : st'.requested = st.requested)
      (loop : st'.loop = st.loop) (generation : st'.generation = st.generation)
      (failures : st'.failures = st.failures)
  | failed (h : st' = { st with
      worker := .failed ⟨st.failures, st.workerTransport⟩, failures := st.failures + 1 })
  | loaded (error : SendError) (before : st.worker = .failed error)
      (h : st' = { st with worker := .loaded error st.generation })
  | stored (error : SendError) (generation : UInt64) (before : st.worker = .loaded error generation)
      (h : st' = { st with requested := ⟨generation, some error⟩, worker := .draining })
  | swapped (before : st.loop = .running)
      (h : st' = { st with loop := .swapped st.requested, requested := .cleared })
  | loop (worker : st'.worker = st.worker) (failures : st'.failures = st.failures)
      (requested : st'.requested = st.requested ∨ st'.requested = .cleared)
      (unswapped : ∀ requested, st'.loop ≠ .swapped requested)
      (generation : st'.generation = st.generation + 1 ∨
        st'.generation = st.generation ∧ (st.Replacing → st'.Replacing))

theorem handling_ite (c : Prop) [Decidable c] {a b : WorkerPhase} (ha : handling a = none)
    (hb : handling b = none) : handling (if c then a else b) = none := by
  split_ifs
  · exact ha
  · exact hb

theorem Effect.outside {phase : LoopPhase} (before : st.loop = phase) (notQueued : phase ≠ .queued)
    (notReplaced : phase ≠ .replaced) (worker : st'.worker = st.worker)
    (failures : st'.failures = st.failures) (generation : st'.generation = st.generation)
    (requested : st'.requested = st.requested ∨ st'.requested = .cleared)
    (unswapped : ∀ requested, st'.loop ≠ .swapped requested) : Effect st st' := by
  refine .loop worker failures requested unswapped (.inr ⟨generation, ?_⟩)
  intro hreplacing
  rcases hreplacing with h | h
  · exact absurd (before.symm.trans h) notQueued
  · exact absurd (before.symm.trans h) notReplaced

theorem step_effect (st : State) (event : Event) : Effect st (st.step event).1 := by
  cases event with
  | tryRecv =>
    simp only [step, tryRecv]
    split
    case h_1 => exact .worker rfl rfl rfl rfl rfl
    case h_2 transport channel before _ =>
      refine .worker ?_ rfl rfl rfl rfl
      rw [before]
      rfl
    case h_3 => exact .none rfl
  | checkPaused =>
    simp only [step, checkPaused]
    split
    · exact .worker (handling_ite _ rfl rfl) rfl rfl rfl rfl
    · exact .worker (handling_ite _ rfl rfl) rfl rfl rfl rfl
    · exact .none rfl
  | nothingToSend =>
    simp only [step, nothingToSend]
    split
    · exact .worker rfl rfl rfl rfl rfl
    · exact .worker rfl rfl rfl rfl rfl
    · exact .none rfl
  | send peerUnavailable =>
    simp only [step, send]
    split
    · split_ifs
      · exact .failed rfl
      · exact .worker rfl rfl rfl rfl rfl
    · exact .none rfl
  | loadGeneration =>
    simp only [step, loadGeneration]
    split
    case h_1 error before => exact .loaded error before rfl
    case h_2 => exact .none rfl
  | storeRequest =>
    simp only [step, storeRequest]
    split
    case h_1 error generation before => exact .stored error generation before rfl
    case h_2 => exact .none rfl
  | swapRequest =>
    simp only [step, swapRequest]
    split
    case h_1 before => exact .swapped before rfl
    case h_2 => exact .none rfl
  | compareGeneration =>
    simp only [step, compareGeneration]
    split
    case h_1 requested before =>
      exact .outside before LoopPhase.noConfusion LoopPhase.noConfusion rfl rfl rfl (.inl rfl)
        fun _ => LoopPhase.noConfusion
    case h_2 => exact .none rfl
  | startReconnect =>
    simp only [step, startReconnect]
    split
    case h_1 before =>
      exact .outside before LoopPhase.noConfusion LoopPhase.noConfusion rfl rfl rfl (.inl rfl)
        fun _ => LoopPhase.noConfusion
    case h_2 => exact .none rfl
  | queueTransport =>
    simp only [step, queueTransport]
    split
    case h_1 before =>
      exact .loop rfl rfl (.inl rfl) (fun _ => LoopPhase.noConfusion)
        (.inr ⟨rfl, fun _ => .inl rfl⟩)
    case h_2 => exact .none rfl
  | replaceTransport =>
    simp only [step, replaceTransport]
    split
    case h_1 before =>
      exact .loop rfl rfl (.inl rfl) (fun _ => LoopPhase.noConfusion)
        (.inr ⟨rfl, fun _ => .inr rfl⟩)
    case h_2 => exact .none rfl
  | advanceGeneration =>
    simp only [step, advanceGeneration]
    split
    case h_1 before =>
      exact .loop rfl rfl (.inl rfl) (fun _ => LoopPhase.noConfusion) (.inl rfl)
    case h_2 => exact .none rfl
  | clearRequest =>
    simp only [step, clearRequest]
    split
    case h_1 before =>
      exact .outside before LoopPhase.noConfusion LoopPhase.noConfusion rfl rfl rfl (.inr rfl)
        fun _ => LoopPhase.noConfusion
    case h_2 => exact .none rfl
  | endReconnect =>
    simp only [step, endReconnect]
    split
    case h_1 before =>
      exact .outside before LoopPhase.noConfusion LoopPhase.noConfusion rfl rfl rfl (.inl rfl)
        fun _ => LoopPhase.noConfusion
    case h_2 before =>
      exact .outside before LoopPhase.noConfusion LoopPhase.noConfusion rfl rfl rfl (.inl rfl)
        fun _ => LoopPhase.noConfusion
    case h_3 => exact .none rfl

theorem generation_step (st : State) (event : Event) :
    (st.step event).1.generation = st.generation ∨
      (st.step event).1.generation = st.generation + 1 := by
  have heffect := step_effect st event
  generalize (st.step event).1 = st' at heffect
  cases heffect with
  | worker idle requested loop generation failures => exact .inl generation
  | loop worker failures requested unswapped generation =>
    exact generation.elim .inr fun h => .inl h.1
  | none heq | failed heq | loaded _ _ heq | stored _ _ _ heq | swapped _ heq =>
    exact .inl (heq ▸ rfl)

def raised (st : State) (error : SendError) : Prop :=
  st.requested.raisedBy = some error ∨
    ∃ requested, st.loop = .swapped requested ∧ requested.raisedBy = some error

structure Numbered (st : State) : Prop where
  positive : 0 < st.generation
  handled : ∀ error, handling st.worker = some error → error.number < st.failures
  stored : ∀ error, st.raised error → error.number < st.failures
  fresh : ∀ error error', handling st.worker = some error → st.raised error' →
    error'.number < error.number

theorem raised_start (error : SendError) : ¬ start.raised error := by
  intro h
  rcases h with h | ⟨requested, h, -⟩ <;> cases h

theorem numbered_start : start.Numbered :=
  ⟨by decide, fun _ h => (nomatch h), fun error h => absurd h (raised_start error),
    fun _ error' _ h => absurd h (raised_start error')⟩

theorem raised_congr (requested : st'.requested = st.requested) (loop : st'.loop = st.loop)
    (h : st'.raised error) : st.raised error := by
  rw [raised, requested, loop] at h
  exact h

theorem Numbered.step (h : st.Numbered) (room : Room st.generation) (event : Event) :
    (st.step event).1.Numbered := by
  have heffect := step_effect st event
  generalize (st.step event).1 = st' at heffect
  cases heffect with
  | none heq => exact heq ▸ h
  | worker idle requested loop generation failures =>
    refine ⟨generation ▸ h.positive, ?_, ?_, ?_⟩
    · intro error herror
      rw [idle] at herror
      cases herror
    · intro error hraised
      rw [failures]
      exact h.stored error (raised_congr requested loop hraised)
    · intro error error' herror
      rw [idle] at herror
      cases herror
  | failed heq =>
    subst heq
    refine ⟨h.positive, ?_, ?_, ?_⟩
    · intro error herror
      cases herror
      exact Nat.lt_succ_self _
    · intro error hraised
      exact Nat.lt_succ_of_lt (h.stored error hraised)
    · intro error error' herror hraised
      cases herror
      exact h.stored error' hraised
  | loaded error before heq =>
    subst heq
    have hsame : ∀ other, handling (.loaded error st.generation) = some other →
        handling st.worker = some other := by
      intro other hother
      rw [before]
      exact hother
    exact ⟨h.positive, fun other hother => h.handled other (hsame other hother), h.stored,
      fun other other' hother => h.fresh other other' (hsame other hother)⟩
  | stored error generation before heq =>
    subst heq
    have hhandled : handling st.worker = some error := by
      rw [before]
      rfl
    refine ⟨h.positive, fun _ hother => (nomatch hother), ?_, fun _ _ hother => (nomatch hother)⟩
    intro other hraised
    rcases hraised with hnew | hold
    · cases hnew
      exact h.handled _ hhandled
    · exact h.stored other (.inr hold)
  | swapped before heq =>
    subst heq
    have hold : ∀ other, raised { st with loop := .swapped st.requested, requested := .cleared }
        other → st.raised other := by
      intro other hraised
      rcases hraised with hnone | ⟨requested, hloop, hraised⟩
      · cases hnone
      · cases hloop
        exact .inl hraised
    exact ⟨h.positive, h.handled, fun other hother => h.stored other (hold other hother),
      fun other other' hother hraised => h.fresh other other' hother (hold other' hraised)⟩
  | loop worker failures requested unswapped generation =>
    have hold : ∀ other, st'.raised other → st.raised other := by
      intro other hraised
      rcases hraised with hvariable | ⟨value, hloop, -⟩
      · rcases requested with heq | heq
        · rw [heq] at hvariable
          exact .inl hvariable
        · rw [heq] at hvariable
          cases hvariable
      · exact absurd hloop (unswapped value)
    refine ⟨?_, ?_, ?_, ?_⟩
    · rcases generation with heq | ⟨heq, -⟩
      · exact heq ▸ Counter.lt_succ_of_lt room h.positive
      · exact heq ▸ h.positive
    · rw [worker, failures]
      exact h.handled
    · intro other hraised
      rw [failures]
      exact h.stored other (hold other hraised)
    · rw [worker]
      exact fun other other' hother hraised => h.fresh other other' hother (hold other' hraised)

structure Tagged (error : SendError) (tag : UInt64) (st : State) : Prop where
  past : error.number < st.failures
  notFailed : st.worker ≠ .failed error
  worker : ∀ generation, st.worker = .loaded error generation → generation = tag
  requested : st.requested.raisedBy = some error → st.requested.value = tag
  loop : ∀ requested, st.loop = .swapped requested → requested.raisedBy = some error →
    requested.value = tag

theorem Tagged.step (h : Tagged error tag st) (event : Event) :
    Tagged error tag (st.step event).1 := by
  have heffect := step_effect st event
  generalize (st.step event).1 = st' at heffect
  cases heffect with
  | none heq => exact heq ▸ h
  | worker idle requested loop generation failures =>
    refine ⟨failures ▸ h.past, ?_, ?_, ?_, ?_⟩
    · intro heq
      rw [heq] at idle
      cases idle
    · intro other heq
      rw [heq] at idle
      cases idle
    · rw [requested]
      exact h.requested
    · rw [loop]
      exact h.loop
  | failed heq =>
    subst heq
    refine ⟨Nat.lt_succ_of_lt h.past, ?_, fun _ hother => (nomatch hother), h.requested, h.loop⟩
    intro hfailed
    have hnumber := congrArg SendError.number (WorkerPhase.failed.inj hfailed)
    exact Nat.ne_of_gt h.past hnumber
  | loaded other before heq =>
    subst heq
    refine ⟨h.past, fun hother => (nomatch hother), ?_, h.requested, h.loop⟩
    intro generation hloaded
    -- another error is at hand: the request of this one has been stored
    exact absurd ((WorkerPhase.loaded.inj hloaded).1 ▸ before) h.notFailed
  | stored other generation before heq =>
    subst heq
    refine ⟨h.past, fun hother => (nomatch hother), fun _ hother => (nomatch hother), ?_, h.loop⟩
    intro hraised
    exact h.worker generation (Option.some.inj hraised ▸ before)
  | swapped before heq =>
    subst heq
    refine ⟨h.past, h.notFailed, h.worker, fun hnone => (nomatch hnone), ?_⟩
    intro requested hloop hraised
    cases hloop
    exact h.requested hraised
  | loop worker failures requested unswapped generation =>
    refine ⟨failures ▸ h.past, worker ▸ h.notFailed, ?_, ?_, ?_⟩
    · rw [worker]
      exact h.worker
    · intro hraised
      rcases requested with heq | heq
      · rw [heq] at hraised ⊢
        exact h.requested hraised
      · rw [heq] at hraised
        cases hraised
    · intro value hloop
      exact absurd hloop (unswapped value)

def Superseded (tag : UInt64) (st : State) : Prop :=
  tag < st.generation ∨ tag = st.generation ∧ st.Replacing

theorem Superseded.step (h : Superseded tag st) (room : Room st.generation) (event : Event) :
    Superseded tag (st.step event).1 := by
  have heffect := step_effect st event
  generalize (st.step event).1 = st' at heffect
  have hsame : st'.generation = st.generation → st'.loop = st.loop → Superseded tag st' := by
    intro hgeneration hloop
    rw [Superseded, Replacing, hgeneration, hloop]
    exact h
  cases heffect with
  | none heq => exact heq ▸ h
  | worker idle requested loop generation failures => exact hsame generation loop
  | failed heq => exact hsame (heq ▸ rfl) (heq ▸ rfl)
  | loaded error before heq => exact hsame (heq ▸ rfl) (heq ▸ rfl)
  | stored error generation before heq => exact hsame (heq ▸ rfl) (heq ▸ rfl)
  | swapped before heq =>
    subst heq
    rcases h with hlt | ⟨-, hmid⟩
    · exact .inl hlt
    · rcases hmid with hmid | hmid <;> rw [before] at hmid <;> cases hmid
  | loop worker failures requested unswapped generation =>
    rcases h with hlt | ⟨heq, hmid⟩
    · left
      rcases generation with hnext | ⟨hnext, -⟩
      · exact hnext ▸ Counter.lt_succ_of_lt room hlt
      · exact hnext ▸ hlt
    · rcases generation with hnext | ⟨hnext, hkept⟩
      · exact .inl (hnext ▸ Counter.lt_succ_of_le room (heq ▸ UInt64.le_refl _))
      · exact .inr ⟨heq.trans hnext.symm, hkept hmid⟩

theorem tagged_loaded (numbered : st.Numbered) (failed : st.worker = .failed error) :
    Tagged error st.generation (st.step .loadGeneration).1 := by
  have hhandled : handling st.worker = some error := by
    rw [failed]
    rfl
  have hnot : ¬ st.raised error := fun hraised =>
    Nat.lt_irrefl _ (numbered.fresh error error hhandled hraised)
  have hload : (st.step .loadGeneration).1 = { st with worker := .loaded error st.generation } := by
    simp only [step, loadGeneration, failed]
  rw [hload]
  refine ⟨numbered.handled error hhandled, fun h => (nomatch h), ?_, ?_, ?_⟩
  · intro generation hloaded
    exact (WorkerPhase.loaded.inj hloaded).2.symm
  · intro hraised
    exact absurd (.inl hraised) hnot
  · intro requested hloop hraised
    exact absurd (.inr ⟨requested, hloop, hraised⟩) hnot

theorem accepts_iff : st.Accepts error ↔
    ∃ value, st.loop = .swapped ⟨value, some error⟩ ∧ value ≠ 0 ∧ value = st.generation := by
  constructor
  · intro h
    obtain ⟨⟨value, hloop⟩, htrue⟩ := h
    refine ⟨value, hloop, ?_⟩
    simpa [step, compareGeneration, hloop, accepts] using htrue
  · intro h
    obtain ⟨value, hloop, hne, heq⟩ := h
    refine ⟨⟨value, hloop⟩, ?_⟩
    simpa [step, compareGeneration, hloop, accepts] using ⟨hne, heq⟩

/-- The steps by which the loop gets from a phase to its next `take_reconnect_request`, if the
generation does not advance on the way. -/
def backToRunning : LoopPhase → List Event
  | .running => []
  | .swapped _ => [.compareGeneration]
  | .reconnecting => [.endReconnect]
  | .queued => []
  | .replaced => []
  | .advanced => [.clearRequest, .endReconnect]
  | .cleared => [.endReconnect]

theorem length_backToRunning (phase : LoopPhase) : (backToRunning phase).length ≤ 2 := by
  cases phase <;> simp [backToRunning]

theorem run_backToRunning (unreplaced : ¬ st.Replacing) :
    (st.run (backToRunning st.loop)).loop = .running ∧
      (st.run (backToRunning st.loop)).generation = st.generation ∧
      (st.run (backToRunning st.loop)).worker = st.worker := by
  cases hloop : st.loop with
  | running => exact ⟨hloop, rfl, rfl⟩
  | swapped requested =>
    simp [backToRunning, run, Machine.run_cons, step, compareGeneration, hloop]
  | reconnecting => simp [backToRunning, run, Machine.run_cons, step, endReconnect, hloop]
  | queued => exact absurd (.inl hloop) unreplaced
  | replaced => exact absurd (.inr hloop) unreplaced
  | advanced =>
    simp [backToRunning, run, Machine.run_cons, step, clearRequest, endReconnect, hloop]
  | cleared => simp [backToRunning, run, Machine.run_cons, step, endReconnect, hloop]

theorem accepts_stored (running : st.loop = .running)
    (loaded : st.worker = .loaded error st.generation) (positive : 0 < st.generation) :
    (st.run [.storeRequest, .swapRequest]).Accepts error ∧
      (st.run [.storeRequest, .swapRequest]).generation = st.generation := by
  have hrun : st.run [.storeRequest, .swapRequest] = { st with
      requested := .cleared, worker := .draining,
      loop := .swapped ⟨st.generation, some error⟩ } := by
    simp [run, Machine.run_cons, step, storeRequest, swapRequest, loaded, running]
  rw [hrun]
  exact ⟨accepts_iff.2 ⟨st.generation, rfl, (UInt64.ne_of_lt positive).symm, rfl⟩, rfl⟩

theorem exists_accepts (numbered : st.Numbered) (failed : st.worker = .failed error)
    (unreplaced : ¬ st.Replacing) :
    ∃ later, later.length ≤ 4 ∧ ((st.step .loadGeneration).1.run later).Accepts error ∧
      ((st.step .loadGeneration).1.run later).generation = st.generation := by
  obtain ⟨next, hnext⟩ : ∃ next, next = (st.step .loadGeneration).1 := ⟨_, rfl⟩
  have hload : next = { st with worker := .loaded error st.generation } := by
    rw [hnext]
    simp only [step, loadGeneration, failed]
  have hmid : ¬ next.Replacing := by
    rw [hload]
    exact unreplaced
  have hgeneration : next.generation = st.generation := by rw [hload]
  have hworker : next.worker = .loaded error st.generation := by rw [hload]
  obtain ⟨hrunning, hsame, hkept⟩ := run_backToRunning hmid
  rw [hgeneration] at hsame
  obtain ⟨haccepts, hlast⟩ := accepts_stored hrunning (by rw [hkept, hworker, hsame])
    (hsame ▸ numbered.positive)
  refine ⟨backToRunning next.loop ++ [.storeRequest, .swapRequest], ?_, ?_⟩
  · have hlength := length_backToRunning next.loop
    simp only [List.length_append, List.length_cons, List.length_nil]
    omega
  rw [← hnext, run, Machine.run_append]
  exact ⟨haccepts, hlast.trans hsame⟩

/-- The worker has seen a send fail and reads the generation next. In every run from there that is
too short for the generation to wrap around, `take_reconnect_request` accepts the request of this
send only while the transport of the send is the one of the current generation, exactly if it is so
when the generation is read, or the loop is about to advance the generation. -/
theorem accepts_current_iff (events : List Event)
    (failed : (start.run events).worker = .failed error) (few : events.length + 6 < 2 ^ 64) :
    (∀ later, events.length + later.length + 2 < 2 ^ 64 →
        ((start.run events).run (.loadGeneration :: later)).Accepts error →
        error.transport = ((start.run events).run (.loadGeneration :: later)).generation) ↔
      error.transport = (start.run events).generation ∨ (start.run events).Replacing := by
  have hstart : start.generation.toNat = 1 := rfl
  have numbered : (start.run events).Numbered :=
    Counter.run_invariant generation_step Numbered (fun _ event h room => h.step room event)
      numbered_start (by omega)
  have hcount : (start.run events).generation.toNat ≤ start.generation.toNat + events.length :=
    Counter.toNat_run_le generation_step start events
  generalize start.run events = st at failed numbered hcount
  have htagged : ∀ later, Tagged error st.generation (st.run (.loadGeneration :: later)) := by
    intro later
    exact Machine.run_invariant step (Tagged error st.generation) (fun _ event h => h.step event)
      (tagged_loaded numbered failed) later
  constructor
  · intro current
    by_contra hnot
    rw [not_or] at hnot
    obtain ⟨later, hlength, haccepts, hgeneration⟩ := exists_accepts numbered failed hnot.2
    exact hnot.1 ((current later (by omega) haccepts).trans hgeneration)
  · intro h later hlater haccepts
    obtain ⟨value, hloop, -, hvalue⟩ := accepts_iff.1 haccepts
    have htag : value = st.generation := (htagged later).loop _ hloop rfl
    rcases h with hcurrent | hmid
    · rw [hcurrent, ← htag, hvalue]
    · have hsuperseded : Superseded st.generation (st.run (.loadGeneration :: later)) :=
        Counter.run_invariant generation_step (Superseded st.generation)
          (fun _ event h room => h.step room event)
          (Or.inr ⟨rfl, hmid⟩ : Superseded st.generation st) (by rw [List.length_cons]; omega)
      rcases hsuperseded with hlt | ⟨-, hreplacing⟩
      · exact absurd (htag.symm.trans hvalue) (UInt64.ne_of_lt hlt)
      · rcases hreplacing with hphase | hphase <;> rw [hloop] at hphase <;> cases hphase

def overtakenSend : List Event :=
  [.tryRecv, .checkPaused, .checkPaused, .startReconnect, .queueTransport, .replaceTransport,
    .advanceGeneration, .clearRequest, .endReconnect, .send true]

/-- The send on the first transport ends after the generation was advanced, and its request is
accepted against the second one. -/
theorem stale_send_accepted :
    (start.run overtakenSend).worker = .failed ⟨0, 1⟩ ∧
      let st := start.run (overtakenSend ++ [.loadGeneration, .storeRequest, .swapRequest])
      st.generation = 2 ∧ st.loopTransport = 2 ∧ (st.step .compareGeneration).2 = some true ∧
        st.Accepts ⟨0, 1⟩ :=
  ⟨rfl, rfl, rfl, rfl, ⟨2, rfl⟩, rfl⟩

/-- A send on the current transport. -/
theorem prompt_send_current :
    let st := (start.run [.tryRecv, .checkPaused, .checkPaused, .send true]).run
      [.loadGeneration, .storeRequest, .swapRequest]
    st.Accepts ⟨0, 1⟩ ∧ 1 = st.generation :=
  have accepted : ((start.run [.tryRecv, .checkPaused, .checkPaused, .send true]).run
      [.loadGeneration, .storeRequest, .swapRequest]).Accepts ⟨0, 1⟩ := ⟨⟨1, rfl⟩, rfl⟩
  ⟨accepted, (accepts_current_iff [.tryRecv, .checkPaused, .checkPaused, .send true] rfl
    (by decide)).2 (.inl rfl) [.storeRequest, .swapRequest] (by decide) accepted⟩

end MouseVpn.Linux.State
