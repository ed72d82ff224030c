import MouseVpn.Lib.Counter
import MouseVpn.Lib.RustStr

/-!
# The status of the helper processes

Every connection of the Windows interface runs in a helper process, and a reader thread turns
the lines that the helper prints into the snapshot that the interface shows. A counter of
generations tells a reader whether its helper is still the current one. The commands run one at
a time under the lock of the child slot. Each acquisition of the lock of the snapshot and each
access to the counter is one step here; only readers hold the lock over several steps.
-/

namespace MouseVpn.Gui

open MouseVpn.Lib
open MouseVpn.Lib.Counter (Room)

inductive ConnectionState
  | disconnected
  | connecting
  | connected
  | disconnecting
  | error
  deriving DecidableEq, Repr

structure ConnectionSnapshot where
  state : ConnectionState
  message : String
  profileId : Option String
  deriving DecidableEq, Repr

namespace ConnectionSnapshot

def default : ConnectionSnapshot := ⟨.disconnected, "VPN выключен", none⟩

def connecting (id : String) : ConnectionSnapshot :=
  ⟨.connecting, "Настраиваем Wintun и маршруты…", some id⟩

def disconnecting (current : ConnectionSnapshot) : ConnectionSnapshot :=
  { current with state := .disconnecting, message := "Восстанавливаем маршруты и DNS…" }

def exited (current : ConnectionSnapshot) (success : Bool) : ConnectionSnapshot :=
  if current.state = .disconnecting || success then default
  else if current.state ≠ .error then
    { current with state := .error, message := "VPN-процесс неожиданно завершился" }
  else current

def readLine (current : ConnectionSnapshot) (logPath : Option String) (line : String) :
    ConnectionSnapshot :=
  if line = "MOUSEVPN_STATE=connected" then
    { current with state := .connected, message := "Защищённое соединение установлено" }
  else if line = "MOUSEVPN_STATE=reconnecting" then
    { current with state := .connecting, message := "Связь потеряна, переподключаемся…" }
  else if line = "MOUSEVPN_STATE=reconnected" then
    { current with state := .connected, message := "Соединение восстановлено" }
  else if line = "MOUSEVPN_STATE=restarting" ∨ line = "MOUSEVPN_STATE=failed_closed" then
    { current with
      state := .connecting
      message :=
        if "Восстанавливаем VPN:".toList.isPrefixOf current.message.toList then current.message
        else "Перезапускаем сетевой туннель без утечки трафика…" }
  else
    match Str.stripPrefix line.toList "MOUSEVPN_RUNTIME_WARNING=".toList with
    | some message =>
      { current with
        state := .connecting
        message := "Восстанавливаем VPN: " ++ String.ofList message }
    | none =>
      match Str.stripPrefix line.toList "MOUSEVPN_ERROR=".toList with
      | some message =>
        { current with
          state := .error
          message :=
            match logPath with
            | none => String.ofList message
            | some path => String.ofList message ++ "\nЖурнал: " ++ path }
      | none => current

end ConnectionSnapshot

inductive ReaderPhase
  /-- In `lines`. -/
  | waiting
  | read (line : String)
  | checked (line : String)
  | locked (line : String)
  /-- The second look, under the lock, has found its own generation as well. -/
  | verified (line : String)
  | finished
  deriving DecidableEq, Repr

def ReaderPhase.Holding : ReaderPhase → Prop
  | .waiting => False
  | .read _ => False
  | .checked _ => False
  | .locked _ => True
  | .verified _ => True
  | .finished => False

structure Reader where
  generation : UInt64
  logPath : Option String
  phase : ReaderPhase
  deriving DecidableEq, Repr

inductive CommandPhase
  | idle
  /-- `connect_profile_inner` has started the helper process. -/
  | connectSpawned (id : String)
  | connectStored (id : String)
  | connectRemembered (id : String)
  | connectAdvanced (id : String) (readerGeneration : UInt64)
  | disconnectSent
  | disconnectAdvanced
  /-- `connection_status_inner` has found that the process has ended. -/
  | statusExited (success : Bool)
  | statusAdvanced (success : Bool)
  | statusReading
  deriving DecidableEq, Repr

/-- The answer of `try_wait`. -/
inductive ChildStatus
  | running
  | exited (success : Bool)
  | failed (error : String)
  deriving DecidableEq, Repr

structure AppState where
  child : Option ℕ
  snapshot : ConnectionSnapshot
  generation : UInt64
  lastProfileId : Option String
  command : CommandPhase
  readers : List Reader
  holder : Option ℕ
  deriving DecidableEq, Repr

abbrev Answer := Option (Except String ConnectionSnapshot)

inductive GuiMove
  | connect (id : String) (helper : ChildStatus) (spawned : Except String Unit)
  | disconnect (sent : Except String Unit)
  | status (helper : ChildStatus)
  /-- The next step of the command that has begun; the path is that of the log, if it opens. -/
  | command (logPath : Option String)
  /-- The next step of a reader; the line is what the helper prints next, if it does. -/
  | reader (i : ℕ) (line : Option String)

namespace AppState

def default : AppState := ⟨none, .default, 0, none, .idle, [], none⟩

/-- `connect_profile_inner` up to the start of the process. An ended process leaves the slot,
and the counter stays. -/
def connect (st : AppState) (id : String) (helper : ChildStatus) (spawned : Except String Unit) :
    AppState × Answer :=
  match st.child, helper with
  | some _, .running => (st, some (.error "VPN уже запущен"))
  | some _, .failed error => (st, some (.error error))
  | _, _ =>
    match spawned with
    | .error error =>
      ({ st with child := none }, some (.error ("Не удалось запустить Windows helper: " ++ error)))
    | .ok () => ({ st with child := none, command := .connectSpawned id }, none)

def disconnect (st : AppState) (sent : Except String Unit) : AppState × Answer :=
  match st.child, sent with
  | none, _ => (st, some (.error "VPN уже выключен"))
  | some _, .error error => (st, some (.error error))
  | some _, .ok () => ({ st with command := .disconnectSent }, none)

def status (st : AppState) (helper : ChildStatus) : AppState × Answer :=
  match st.child, helper with
  | some _, .failed error => (st, some (.error error))
  | some _, .exited success => ({ st with command := .statusExited success }, none)
  | _, _ => ({ st with command := .statusReading }, none)

def commandStep (st : AppState) (logPath : Option String) : AppState × Answer :=
  match st.command with
  | .idle => (st, none)
  | .connectSpawned id =>
    if st.holder = none then
      ({ st with snapshot := .connecting id, command := .connectStored id }, none)
    else (st, none)
  | .connectStored id =>
    ({ st with lastProfileId := some id, command := .connectRemembered id }, none)
  | .connectRemembered id =>
    ({ st with
      generation := st.generation + 1
      command := .connectAdvanced id (st.generation + 1) }, none)
  | .connectAdvanced id readerGeneration =>
    ({ st with
      readers := st.readers ++ [⟨readerGeneration, logPath, .waiting⟩]
      child := some st.readers.length
      command := .idle }, some (.ok (.connecting id)))
  | .disconnectSent =>
    ({ st with generation := st.generation + 1, command := .disconnectAdvanced }, none)
  | .disconnectAdvanced =>
    if st.holder = none then
      ({ st with snapshot := st.snapshot.disconnecting, command := .idle },
        some (.ok st.snapshot.disconnecting))
    else (st, none)
  | .statusExited success =>
    ({ st with
      generation := st.generation + 1
      child := none
      command := .statusAdvanced success }, none)
  | .statusAdvanced success =>
    if st.holder = none then
      ({ st with snapshot := st.snapshot.exited success, command := .statusReading }, none)
    else (st, none)
  | .statusReading =>
    if st.holder = none then ({ st with command := .idle }, some (.ok st.snapshot))
    else (st, none)

def setPhase (st : AppState) (i : ℕ) (r : Reader) (phase : ReaderPhase) : AppState :=
  { st with readers := st.readers.set i { r with phase } }

def readerStep (st : AppState) (i : ℕ) (r : Reader) (line : Option String) : AppState :=
  match r.phase with
  | .waiting =>
    match line with
    | some line => st.setPhase i r (.read line)
    | none => st.setPhase i r .finished
  | .read line =>
    st.setPhase i r (if st.generation = r.generation then .checked line else .waiting)
  | .checked line =>
    if st.holder = none then { st.setPhase i r (.locked line) with holder := some i } else st
  | .locked line =>
    if st.generation = r.generation then st.setPhase i r (.verified line)
    else { st.setPhase i r .waiting with holder := none }
  | .verified line =>
    { st.setPhase i r .waiting with
      snapshot := st.snapshot.readLine r.logPath line
      holder := none }
  | .finished => st

def step (st : AppState) (move : GuiMove) : AppState × Answer :=
  match move with
  | .connect id helper spawned =>
    if st.command = .idle then st.connect id helper spawned else (st, none)
  | .disconnect sent => if st.command = .idle then st.disconnect sent else (st, none)
  | .status helper => if st.command = .idle then st.status helper else (st, none)
  | .command logPath => st.commandStep logPath
  | .reader i line =>
    match st.readers[i]? with
    | none => (st, none)
    | some r => (st.readerStep i r line, none)

def run (st : AppState) (moves : List GuiMove) : AppState := Machine.run step st moves

end AppState

namespace AppState

variable {st st' : AppState}

def Drawn (st : AppState) : Prop :=
  ∀ id generation, st.command = .connectAdvanced id generation → generation = st.generation

def Held (st : AppState) : Prop :=
  ∀ i r, st.readers[i]? = some r → r.phase.Holding → st.holder = some i

structure CommandChange (st st' : AppState) : Prop where
  holder : st'.holder = st.holder
  generation : st'.generation = st.generation ∨ st'.generation = st.generation + 1
  readers : st'.readers = st.readers ∨ ∃ id generation logPath,
    st.command = .connectAdvanced id generation ∧
      st'.readers = st.readers ++ [⟨generation, logPath, .waiting⟩]
  drawn : st.Drawn → st'.Drawn

/-- What a step of reader `i` leaves of them. -/
structure ReaderChange (i : ℕ) (st st' : AppState) : Prop where
  generation : st'.generation = st.generation
  command : st'.command = st.command
  readers : ∃ r phase, st.readers[i]? = some r ∧ st'.readers = st.readers.set i { r with phase } ∧
    (st.Held → phase.Holding → st'.holder = some i) ∧
    (∀ line, phase = .verified line → r.generation = st.generation) ∧
    (r.phase = .finished → phase = .finished) ∧
    (st'.snapshot ≠ st.snapshot → ∃ line, r.phase = .verified line)
  holder : st.Held → ∀ j, j ≠ i → st.holder = some j → st'.holder = some j

theorem CommandChange.generation_le (h : CommandChange st st') (room : Room st.generation) :
    st.generation ≤ st'.generation := by
  rcases h.generation with hsame | hnext
  · rw [hsame]
    exact UInt64.le_refl _
  · rw [hnext]
    exact Counter.le_succ_of_le room (UInt64.le_refl _)

theorem CommandChange.ofSame (hreaders : st'.readers = st.readers)
    (hholder : st'.holder = st.holder)
    (hgeneration : st'.generation = st.generation ∨ st'.generation = st.generation + 1)
    (hcommand : ∀ id generation, st'.command ≠ .connectAdvanced id generation) :
    CommandChange st st' :=
  ⟨hholder, hgeneration, Or.inl hreaders,
    fun _ id generation h => absurd h (hcommand id generation)⟩

theorem CommandChange.refl (st : AppState) : CommandChange st st :=
  ⟨rfl, .inl rfl, .inl rfl, id⟩

theorem connect_change (st : AppState) (id : String) (helper : ChildStatus)
    (spawned : Except String Unit) : CommandChange st (st.connect id helper spawned).1 := by
  unfold connect
  split
  · exact .refl st
  · exact .refl st
  · split
    · exact ⟨rfl, .inl rfl, .inl rfl, fun h => h⟩
    · exact .ofSame rfl rfl (.inl rfl) (by simp)

theorem disconnect_change (st : AppState) (sent : Except String Unit) :
    CommandChange st (st.disconnect sent).1 := by
  unfold disconnect
  split
  · exact .refl st
  · exact .refl st
  · exact .ofSame rfl rfl (.inl rfl) (by simp)

theorem status_change (st : AppState) (helper : ChildStatus) :
    CommandChange st (st.status helper).1 := by
  unfold status
  split
  · exact .refl st
  · exact .ofSame rfl rfl (.inl rfl) (by simp)
  · exact .ofSame rfl rfl (.inl rfl) (by simp)

theorem commandStep_change (st : AppState) (logPath : Option String) :
    CommandChange st (st.commandStep logPath).1 := by
  cases hc : st.command with
  | idle =>
    simp only [commandStep, hc]
    exact .refl st
  -- the steps that wait for the lock of the snapshot
  | connectSpawned id | disconnectAdvanced | statusAdvanced success | statusReading =>
    simp only [commandStep, hc]
    split_ifs
    · exact .ofSame rfl rfl (.inl rfl) (by simp)
    · exact .refl st
  | connectStored id =>
    simp only [commandStep, hc]
    exact .ofSame rfl rfl (.inl rfl) (by simp)
  | connectRemembered id =>
    simp only [commandStep, hc]
    refine ⟨rfl, .inr rfl, .inl rfl, ?_⟩
    intro _ id' generation h
    cases h
    rfl
  | connectAdvanced id generation =>
    simp only [commandStep, hc]
    exact ⟨rfl, .inl rfl, .inr ⟨id, generation, logPath, hc, rfl⟩, by simp [Drawn]⟩
  | disconnectSent | statusExited success =>
    simp only [commandStep, hc]
    exact .ofSame rfl rfl (.inr rfl) (by simp)

theorem set_of_getElem? {readers : List Reader} {i : ℕ} {r : Reader} (h : readers[i]? = some r) :
    readers.set i r = readers := by
  obtain ⟨hi, rfl⟩ := List.getElem?_eq_some_iff.mp h
  exact List.set_getElem_self hi

theorem readerStep_change {i : ℕ} {r : Reader} (hr : st.readers[i]? = some r)
    (line : Option String) : ReaderChange i st (st.readerStep i r line) := by
  have hkeep := set_of_getElem? hr
  obtain ⟨generation, logPath, phase⟩ := r
  cases phase with
  | waiting =>
    cases line with
    | none =>
      exact ⟨rfl, rfl, ⟨_, .finished, hr, rfl, fun _ => nofun, nofun, nofun, absurd rfl⟩,
        fun _ _ _ => id⟩
    | some line =>
      exact ⟨rfl, rfl, ⟨_, .read line, hr, rfl, fun _ => nofun, nofun, nofun, absurd rfl⟩,
        fun _ _ _ => id⟩
  | finished =>
    exact ⟨rfl, rfl,
      ⟨_, .finished, hr, hkeep.symm, fun _ => nofun, nofun, fun _ => rfl, absurd rfl⟩,
      fun _ _ _ => id⟩
  | read line =>
    refine ⟨rfl, rfl, ⟨_, _, hr, rfl, ?_, ?_, nofun, absurd rfl⟩, fun _ _ _ => id⟩
    · split_ifs <;> exact fun _ => False.elim
    · intro line'
      split_ifs <;> exact nofun
  | checked line =>
    simp only [readerStep]
    split_ifs with hfree
    · refine ⟨rfl, rfl, ⟨_, .locked line, hr, rfl, fun _ _ => rfl, nofun, nofun, absurd rfl⟩, ?_⟩
      intro _ j _ hj
      rw [hfree] at hj
      cases hj
    · exact ⟨rfl, rfl, ⟨_, .checked line, hr, hkeep.symm, fun _ => nofun, nofun, nofun, absurd rfl⟩,
        fun _ _ _ => id⟩
  | locked line =>
    have hmine : st.Held → st.holder = some i := fun hh => hh i _ hr trivial
    simp only [readerStep]
    split_ifs with hcurrent
    · exact ⟨rfl, rfl, ⟨_, .verified line, hr, rfl, fun hh _ => hmine hh,
        fun _ _ => hcurrent.symm, nofun, absurd rfl⟩, fun _ _ _ => id⟩
    · refine ⟨rfl, rfl, ⟨_, .waiting, hr, rfl, fun _ => nofun, nofun, nofun, absurd rfl⟩, ?_⟩
      intro hh j hne hj
      exact absurd (Option.some.inj (hj.symm.trans (hmine hh))) hne
  | verified line =>
    have hmine : st.Held → st.holder = some i := fun hh => hh i _ hr trivial
    refine ⟨rfl, rfl,
      ⟨_, .waiting, hr, rfl, fun _ => nofun, nofun, nofun, fun _ => ⟨line, rfl⟩⟩, ?_⟩
    intro hh j hne hj
    exact absurd (Option.some.inj (hj.symm.trans (hmine hh))) hne

theorem step_change (st : AppState) (move : GuiMove) :
    (CommandChange st (st.step move).1 ∧ ∀ i line, move = .reader i line → (st.step move).1 = st) ∨
      ∃ i line, move = .reader i line ∧ ReaderChange i st (st.step move).1 := by
  have hsame : CommandChange st st := .refl st
  cases move with
  | connect id helper spawned =>
    refine Or.inl ⟨?_, by simp⟩
    rw [step]
    split_ifs
    · exact connect_change st id helper spawned
    · exact hsame
  | disconnect sent =>
    refine Or.inl ⟨?_, by simp⟩
    rw [step]
    split_ifs
    · exact disconnect_change st sent
    · exact hsame
  | status helper =>
    refine Or.inl ⟨?_, by simp⟩
    rw [step]
    split_ifs
    · exact status_change st helper
    · exact hsame
  | command logPath => exact Or.inl ⟨commandStep_change st logPath, by simp⟩
  | reader i line =>
    rw [step]
    cases hr : st.readers[i]? with
    | none => exact Or.inl ⟨hsame, fun _ _ _ => rfl⟩
    | some r => exact Or.inr ⟨i, line, rfl, readerStep_change hr line⟩

theorem generation_step (st : AppState) (move : GuiMove) :
    (st.step move).1.generation = st.generation ∨
      (st.step move).1.generation = st.generation + 1 := by
  rcases step_change st move with ⟨h, -⟩ | ⟨i, line, -, h⟩
  · exact h.generation
  · exact .inl h.generation

structure Sound (st : AppState) : Prop where
  drawn : st.Drawn
  held : st.Held
  bounded : ∀ r ∈ st.readers, r.generation ≤ st.generation

theorem Sound.default : Sound AppState.default :=
  ⟨by simp [Drawn, AppState.default], by simp [Held, AppState.default], by simp [AppState.default]⟩

theorem Sound.ofCommand (hs : st.Sound) (room : Room st.generation) (h : CommandChange st st') :
    st'.Sound := by
  refine ⟨h.drawn hs.drawn, ?_, ?_⟩
  · intro i r hr hholding
    rw [h.holder]
    rcases h.readers with hsame | ⟨id, generation, logPath, -, happend⟩
    · rw [hsame] at hr
      exact hs.held i r hr hholding
    · rw [happend, List.getElem?_append] at hr
      split_ifs at hr
      · exact hs.held i r hr hholding
      · have hnew := List.mem_of_getElem? hr
        rw [List.mem_singleton] at hnew
        rw [hnew] at hholding
        exact hholding.elim
  · intro r hr
    rcases h.readers with hsame | ⟨id, generation, logPath, hcommand, happend⟩
    · rw [hsame] at hr
      exact UInt64.le_trans (hs.bounded r hr) (h.generation_le room)
    · rw [happend, List.mem_append, List.mem_singleton] at hr
      rcases hr with hold | rfl
      · exact UInt64.le_trans (hs.bounded r hold) (h.generation_le room)
      · exact (hs.drawn id generation hcommand).trans_le (h.generation_le room)

theorem Sound.ofReader (hs : st.Sound) {i : ℕ} (h : ReaderChange i st st') : st'.Sound := by
  obtain ⟨r, phase, hr, hset, hholding, -⟩ := h.readers
  refine ⟨?_, ?_, ?_⟩
  · intro id generation hc
    rw [h.command] at hc
    rw [h.generation]
    exact hs.drawn id generation hc
  · intro j r' hj hphase
    rw [hset, List.getElem?_set] at hj
    split_ifs at hj with hij hlt
    · cases hj
      exact hij ▸ hholding hs.held hphase
    · exact h.holder hs.held j (Ne.symm hij) (hs.held j r' hj hphase)
  · intro r' hr'
    rw [h.generation]
    rw [hset] at hr'
    rcases List.mem_or_eq_of_mem_set hr' with hold | rfl
    · exact hs.bounded r' hold
    · exact hs.bounded r (List.mem_of_getElem? hr)

theorem Sound.step (hs : st.Sound) (room : Room st.generation) (move : GuiMove) :
    (st.step move).1.Sound := by
  rcases step_change st move with ⟨h, -⟩ | ⟨i, line, -, h⟩
  · exact hs.ofCommand room h
  · exact hs.ofReader h

theorem sound_run {moves : List GuiMove} (few : moves.length < 2 ^ 64) :
    (AppState.default.run moves).Sound :=
  Counter.run_invariant generation_step Sound (fun _ move h room => h.step room move) .default
    (by rwa [show AppState.default.generation.toNat = 0 from rfl, Nat.zero_add])

end AppState

def Reader.Stale (generation : UInt64) (r : Reader) : Prop :=
  r.phase = .finished ∨ r.generation < generation ∧ ∀ line, r.phase ≠ .verified line

namespace AppState

variable {st st' : AppState} {n k : ℕ}

/-- A line of one of the first `k` helpers changes the snapshot. -/
def Overwrites (k : ℕ) (st : AppState) (move : GuiMove) : Prop :=
  ∃ i line, move = .reader i line ∧ i < k ∧ (st.step move).1.snapshot ≠ st.snapshot

/-- In the next `n` moves, no line of one of the first `k` helpers changes the snapshot. -/
def Silent (n k : ℕ) (st : AppState) : Prop :=
  ∀ later, later.length ≤ n → Machine.Obeys step (fun st move => ¬ Overwrites k st move) st later

def Outdated (k : ℕ) (st : AppState) : Prop :=
  k ≤ st.readers.length ∧ ∀ i, i < k → ∀ r, st.readers[i]? = some r → r.Stale st.generation

theorem Outdated.ofCommand (ho : st.Outdated k) (room : Room st.generation)
    (h : CommandChange st st') : st'.Outdated k := by
  have hold : ∀ i, i < k → ∀ r, st.readers[i]? = some r → r.Stale st'.generation := by
    intro i hi r hr
    rcases ho.2 i hi r hr with hfinished | ⟨hlt, hphase⟩
    · exact Or.inl hfinished
    · exact Or.inr ⟨UInt64.lt_of_lt_of_le hlt (h.generation_le room), hphase⟩
  rcases h.readers with hsame | ⟨id, generation, logPath, -, happend⟩
  · rw [Outdated, hsame]
    exact ⟨ho.1, hold⟩
  · rw [Outdated, happend, List.length_append]
    refine ⟨ho.1.trans (Nat.le_add_right _ _), ?_⟩
    intro i hi r hr
    rw [List.getElem?_append_left (hi.trans_le ho.1)] at hr
    exact hold i hi r hr

theorem Outdated.ofReader (ho : st.Outdated k) {i : ℕ} (h : ReaderChange i st st') :
    st'.Outdated k := by
  obtain ⟨r, phase, hr, hset, -, hverified, hfinished, -⟩ := h.readers
  rw [Outdated, hset, List.length_set, h.generation]
  refine ⟨ho.1, ?_⟩
  intro j hj r' hr'
  rw [List.getElem?_set] at hr'
  split_ifs at hr' with hij hlt
  · cases hr'
    rcases ho.2 i (hij ▸ hj) r hr with hdone | ⟨hlow, -⟩
    · exact Or.inl (hfinished hdone)
    · refine Or.inr ⟨hlow, ?_⟩
      intro line hline
      exact absurd (hverified line hline) (UInt64.ne_of_lt hlow)
  · exact ho.2 j hj r' hr'

theorem Outdated.obeys (hs : st.Sound) (ho : st.Outdated k) {later : List GuiMove}
    (room : Machine.Obeys step (fun st _ => Room st.generation) st later) :
    Machine.Obeys step (fun st move => ¬ Overwrites k st move) st later := by
  induction later generalizing st with
  | nil => trivial
  | cons move later ih =>
    rcases step_change st move with ⟨h, hidle⟩ | ⟨i, line, hmove, h⟩
    · refine ⟨?_, ih (hs.step room.1 move) (ho.ofCommand room.1 h) room.2⟩
      intro ⟨i, line, hmove, hi, hchanged⟩
      rw [hidle i line hmove] at hchanged
      exact hchanged rfl
    · refine ⟨?_, ih (hs.step room.1 move) (ho.ofReader h) room.2⟩
      intro ⟨i', line', hmove', hi, hchanged⟩
      obtain ⟨rfl, -⟩ := GuiMove.reader.inj (hmove.symm.trans hmove')
      obtain ⟨r, phase, hr, -, -, -, -, hwrites⟩ := h.readers
      obtain ⟨written, hphase⟩ := hwrites hchanged
      rcases ho.2 i hi r hr with hdone | ⟨-, hnot⟩
      · rw [hdone] at hphase
        cases hphase
      · exact hnot written hphase

theorem Outdated.silent (hs : st.Sound) (ho : st.Outdated k)
    (few : st.generation.toNat + n < 2 ^ 64) : st.Silent n k := by
  intro later hlater
  exact ho.obeys hs (Counter.obeys_room generation_step (by omega))

theorem Silent.mono {m : ℕ} (h : st.Silent n k) (hm : m ≤ n) : st.Silent m k :=
  fun later hlater => h later (hlater.trans hm)

section Current

variable {i : ℕ} {r : Reader} {line : String}

theorem Silent.reader (h : st.Silent (n + 1) k) (hi : i < k) (hr : st.readers[i]? = some r)
    (line : Option String) :
    (st.readerStep i r line).snapshot = st.snapshot ∧ (st.readerStep i r line).Silent n k := by
  have hstep : (st.step (.reader i line)).1 = st.readerStep i r line := by
    simp only [AppState.step, hr]
  refine ⟨?_, ?_⟩
  · by_contra hchanged
    refine (h [.reader i line] (Nat.le_add_left 1 n)).1 ⟨i, line, rfl, hi, ?_⟩
    rwa [hstep]
  · intro later hlater
    have hobeys := (h (.reader i line :: later) (Nat.succ_le_succ hlater)).2
    rwa [hstep] at hobeys

theorem getElem?_setPhase (hr : st.readers[i]? = some r) (phase : ReaderPhase) :
    (st.setPhase i r phase).readers[i]? = some { r with phase } := by
  obtain ⟨hi, -⟩ := List.getElem?_eq_some_iff.mp hr
  exact List.getElem?_set_self hi

theorem setPhase_setPhase (phase phase' : ReaderPhase) :
    (st.setPhase i r phase).setPhase i { r with phase } phase' = st.setPhase i r phase' := by
  simp only [setPhase, List.set_set]

theorem Silent.checked (h : st.Silent (n + 3) k) (hi : i < k) (hr : st.readers[i]? = some r)
    (hphase : r.phase = .checked line) (hg : st.generation = r.generation)
    (hfree : st.holder = none) :
    st.snapshot.readLine r.logPath line = st.snapshot ∧ (st.setPhase i r .waiting).Silent n k := by
  have hlock : st.readerStep i r none =
      { st.setPhase i r (.locked line) with holder := some i } := by
    simp only [readerStep, hphase, hfree, if_true]
  have hlocked := (h.reader hi hr none).2
  rw [hlock] at hlocked
  have hverify : AppState.readerStep { st.setPhase i r (.locked line) with holder := some i } i
      { r with phase := .locked line } none =
        { st.setPhase i r (.verified line) with holder := some i } := by
    simp only [readerStep, setPhase, hg, if_true, List.set_set]
  have hverified := (hlocked.reader hi (getElem?_setPhase hr (.locked line)) none).2
  rw [hverify] at hverified
  obtain ⟨hsame, hwritten⟩ := hverified.reader hi (getElem?_setPhase hr (.verified line)) none
  have hread : st.snapshot.readLine r.logPath line = st.snapshot := hsame
  have hwrite : AppState.readerStep { st.setPhase i r (.verified line) with holder := some i } i
      { r with phase := .verified line } none = st.setPhase i r .waiting := by
    simp only [readerStep, setPhase, List.set_set, hread, ← hfree]
  rw [hwrite] at hwritten
  exact ⟨hread, hwritten⟩

theorem Silent.read (h : st.Silent (n + 4) k) (hi : i < k) (hr : st.readers[i]? = some r)
    (hphase : r.phase = .read line) (hg : st.generation = r.generation)
    (hfree : st.holder = none) :
    st.snapshot.readLine r.logPath line = st.snapshot ∧ (st.setPhase i r .waiting).Silent n k := by
  have hcheck : st.readerStep i r none = st.setPhase i r (.checked line) := by
    simp only [readerStep, hphase, hg, if_true]
  have hchecked := (h.reader hi hr none).2
  rw [hcheck] at hchecked
  have hdone := hchecked.checked hi (getElem?_setPhase hr (.checked line)) rfl hg hfree
  rwa [setPhase_setPhase] at hdone

theorem Silent.waiting (h : st.Silent (n + 5) k) (hi : i < k) (hr : st.readers[i]? = some r)
    (hphase : r.phase = .waiting) (hg : st.generation = r.generation)
    (hfree : st.holder = none) : st.snapshot.state = .connected := by
  have hnext : st.readerStep i r (some "MOUSEVPN_STATE=connected") =
      st.setPhase i r (.read "MOUSEVPN_STATE=connected") := by
    simp only [readerStep, hphase]
  have hreads := (h.reader hi hr (some "MOUSEVPN_STATE=connected")).2
  rw [hnext] at hreads
  have hsame := (hreads.read hi (getElem?_setPhase hr _) rfl hg hfree).1
  exact (congrArg ConnectionSnapshot.state hsame).symm

theorem Silent.current (h : st.Silent 9 k) (hs : st.Sound) (hi : i < k)
    (hr : st.readers[i]? = some r) (hg : st.generation = r.generation) (hfree : st.holder = none)
    (hconnecting : st.snapshot.state ≠ .connected) : r.phase = .finished := by
  have hwaiting : ∀ n, ¬ (st.setPhase i r .waiting).Silent (n + 5) k := fun n hafter =>
    hconnecting (hafter.waiting hi (getElem?_setPhase hr .waiting) rfl hg hfree)
  have hheld : ¬ r.phase.Holding := by
    intro hholding
    have := hs.held i r hr hholding
    rw [hfree] at this
    cases this
  cases hphase : r.phase with
  | waiting => exact absurd (h.waiting hi hr hphase hg hfree) hconnecting
  | read line => exact absurd (h.read hi hr hphase hg hfree).2 (hwaiting 0)
  | checked line => exact absurd (h.checked hi hr hphase hg hfree).2 (hwaiting 1)
  | locked line =>
    rw [hphase] at hheld
    exact absurd trivial hheld
  | verified line =>
    rw [hphase] at hheld
    exact absurd trivial hheld
  | finished => rfl

end Current

theorem outdated_of_free (hs : st.Sound) (hfree : st.holder = none)
    (h : ∀ r ∈ st.readers, r.phase = .finished ∨ r.generation ≠ st.generation) :
    st.Outdated st.readers.length := by
  refine ⟨Nat.le_refl _, ?_⟩
  intro i _ r hr
  have hmem := List.mem_of_getElem? hr
  rcases h r hmem with hfinished | hne
  · exact Or.inl hfinished
  · refine Or.inr ⟨UInt64.lt_of_le_of_ne (hs.bounded r hmem) hne, ?_⟩
    intro line hline
    have hmine := hs.held i r hr (by rw [hline]; trivial)
    rw [hfree] at hmine
    cases hmine

/-- When the connecting snapshot of a new helper is stored, the earlier helpers are silenced exactly
if the counter has already left the generation of every reader that still runs: if a disconnect or
a status command has advanced it since the connect before. They stay silent until the counter can
have wrapped around, and otherwise one of them can be heard within nine moves. -/
theorem stale_helpers_silent_iff (moves : List GuiMove) {id : String} (logPath : Option String)
    (hspawned : (AppState.default.run moves).command = .connectSpawned id)
    (hfree : (AppState.default.run moves).holder = none) {n : ℕ} (hn : 9 ≤ n)
    (few : moves.length + n < 2 ^ 64) :
    ((AppState.default.run moves).step (.command logPath)).1.snapshot = .connecting id ∧
      (((AppState.default.run moves).step (.command logPath)).1.Silent n
          (AppState.default.run moves).readers.length ↔
        ∀ r ∈ (AppState.default.run moves).readers,
          r.phase = .finished ∨ r.generation ≠ (AppState.default.run moves).generation) := by
  have hs : (AppState.default.run moves).Sound := sound_run (by omega)
  have hcount : (AppState.default.run moves).generation.toNat ≤ 0 + moves.length :=
    Counter.toNat_run_le generation_step AppState.default moves
  generalize AppState.default.run moves = st at hspawned hfree hs hcount ⊢
  have hstore : (st.step (.command logPath)).1 =
      { st with snapshot := .connecting id, command := .connectStored id } := by
    simp only [AppState.step, commandStep, hspawned, hfree, if_true]
  have hsound := hs.step (show st.generation.toNat + 1 < 2 ^ 64 by omega) (.command logPath)
  rw [hstore] at hsound ⊢
  refine ⟨rfl, ?_, ?_⟩
  · intro hsilent r hr
    rw [or_iff_not_imp_right, not_not]
    intro hg
    obtain ⟨i, hi, hri⟩ := List.getElem_of_mem hr
    have hr' : st.readers[i]? = some r := List.getElem?_eq_some_iff.mpr ⟨hi, hri⟩
    have hconnecting : ConnectionState.connecting ≠ .connected := by decide
    exact (hsilent.mono hn).current hsound hi hr' hg.symm hfree hconnecting
  · intro h
    exact (outdated_of_free hsound hfree h).silent hsound
      (show st.generation.toNat + n < _ by omega)

section Sample

def firstConnection : List GuiMove :=
  .connect "a" .running (.ok ()) :: List.replicate 4 (.command none)

def noticedExit : List GuiMove :=
  firstConnection ++ .status (.exited false) :: List.replicate 3 (.command none) ++
    [.connect "b" .running (.ok ())]

theorem noticed_exit_silences :
    (AppState.default.run noticedExit).command = .connectSpawned "b" ∧
      (AppState.default.run noticedExit).readers.length = 1 ∧
      ((AppState.default.run noticedExit).step (.command none)).1.snapshot = .connecting "b" ∧
      ((AppState.default.run noticedExit).step (.command none)).1.Silent (2 ^ 63)
        (AppState.default.run noticedExit).readers.length := by
  have hspawned : (AppState.default.run noticedExit).command = .connectSpawned "b" := by
    decide +kernel
  have hfree : (AppState.default.run noticedExit).holder = none := by decide +kernel
  have houtdated : ∀ r ∈ (AppState.default.run noticedExit).readers, r.phase = .finished ∨
      r.generation ≠ (AppState.default.run noticedExit).generation := by
    decide +kernel
  obtain ⟨hstored, hiff⟩ := stale_helpers_silent_iff noticedExit none hspawned hfree
    (show 9 ≤ 2 ^ 63 by decide) (by decide)
  exact ⟨hspawned, by decide +kernel, hstored, hiff.mpr houtdated⟩

def unnoticedExit : List GuiMove :=
  firstConnection ++ [.connect "b" (.exited false) (.ok ()), .command none]

def lateLine : List GuiMove :=
  .reader 0 (some "MOUSEVPN_STATE=connected") :: List.replicate 4 (.reader 0 none)

/-- The dead helper announces a connection to the new server. -/
theorem late_line_overwrites :
    (AppState.default.run unnoticedExit).snapshot = .connecting "b" ∧
      (AppState.default.run unnoticedExit).command = .connectStored "b" ∧
      ((AppState.default.run unnoticedExit).run lateLine).snapshot =
        ⟨.connected, "Защищённое соединение установлено", some "b"⟩ := by
  decide +kernel

end Sample

end AppState

end MouseVpn.Gui
