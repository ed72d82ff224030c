import MouseVpn.Server.RateIsolation

/-!
# Newcomers at a full table

A source without a counter is turned away when the table holds `maximumClients` counters. These need
not be live: a counter that expires after the last cleanup stays in the table until the next one.
With a window of at least two ticks some run therefore turns a newcomer away while every counter has
expired.
-/

namespace MouseVpn.Server.HandshakeLimiter

open MouseVpn.Lib

def liveCounters (limiter : HandshakeLimiter) (now : ℕ) : ℕ :=
  Expiry.liveCount Counter.started limiter.window now limiter.clients

/-- The newcomers that a limiter with these settings turns away are those that find
`maximumClients` live counters. -/
def TurnsAwayOnlyWhenLive (maximumAttempts : UInt32) (window maximumClients : ℕ) : Prop :=
  ∀ calls call, Ordered (calls ++ [call]) →
    (Machine.run step (start maximumAttempts window maximumClients) calls).rejectedFull call =
      true →
    maximumClients ≤
      (Machine.run step (start maximumAttempts window maximumClients) calls).liveCounters call.now

/-- The window of a counter has ended after the last cleanup, and no cleanup is due now. -/
def Lingers (limiter : HandshakeLimiter) (now : ℕ) : Prop :=
  ∃ last, limiter.lastCleanup = some last ∧ now - last < limiter.window ∧
    (limiter.operations + 1) % cleanupInterval ≠ 0 ∧
    ∃ address counter, limiter.clients.lookup address = some counter ∧
      last < counter.started + limiter.window ∧ counter.started + limiter.window ≤ now

theorem liveCounters_prepare (limiter : HandshakeLimiter) (now : ℕ) :
    (limiter.prepare now).liveCounters now = limiter.liveCounters now := by
  rw [liveCounters, liveCounters, prepare_window]
  obtain ⟨hclients, -⟩ | ⟨hclients, -⟩ := limiter.prepare_cases now
  · rw [hclients, Expiry.liveCount, Expiry.sweep_eq_self]
    · rfl
    · intro address counter hfound
      exact (Expiry.lookup_of_lookup_sweep hfound).2
  · rw [hclients]

theorem length_of_rejectedFull {limiter : HandshakeLimiter} {call : Call}
    (h : limiter.rejectedFull call = true) :
    (limiter.prepare call.now).clients.lookup call.address = none ∧
      limiter.maximumClients ≤ (limiter.prepare call.now).clients.keys.length := by
  simpa [rejectedFull, tableFull] using h

theorem live_of_rejectedFull_iff {limiter : HandshakeLimiter} {call : Call}
    (hbound : limiter.clients.keys.length ≤ limiter.maximumClients)
    (h : limiter.rejectedFull call = true) :
    limiter.maximumClients ≤ limiter.liveCounters call.now ↔
      ∀ address counter, (limiter.prepare call.now).clients.lookup address = some counter →
        call.now - counter.started < limiter.window := by
  have hfull := (length_of_rejectedFull h).2
  have hlength : (limiter.prepare call.now).clients.keys.length = limiter.maximumClients :=
    Nat.le_antisymm (Nat.le_trans (limiter.prepare_length_le call.now) hbound) hfull
  rw [← liveCounters_prepare, ← hlength, liveCounters, Expiry.length_le_liveCount_iff]
  simp only [Expiry.live_iff, prepare_window]

def LiveAtCleanup (limiter : HandshakeLimiter) (now : ℕ) : Prop :=
  ∀ last, limiter.lastCleanup = some last → last ≤ now ∧
    ∀ address counter, limiter.clients.lookup address = some counter →
      last < counter.started + limiter.window

theorem liveAtCleanup_prepare {limiter : HandshakeLimiter} {now : ℕ}
    (h : LiveAtCleanup limiter now) :
    LiveAtCleanup (limiter.prepare now) now := by
  intro last hlast
  rw [prepare_window]
  obtain ⟨hclients, hcleanup⟩ | ⟨hclients, hcleanup, -⟩ := limiter.prepare_cases now
  · rw [hcleanup] at hlast
    obtain rfl := Option.some.inj hlast
    refine ⟨Nat.le_refl _, ?_⟩
    intro address counter hfound
    rw [hclients] at hfound
    have hlive := (Expiry.lookup_of_lookup_sweep hfound).2
    rw [Expiry.live_iff] at hlive
    omega
  · rw [hcleanup] at hlast
    rw [hclients]
    exact h last hlast

theorem liveAtCleanup_step {limiter : HandshakeLimiter} {call : Call}
    (hwindow : 0 < limiter.window) (h : LiveAtCleanup limiter call.now) :
    LiveAtCleanup (limiter.step call).1 call.now := by
  have hprepared := liveAtCleanup_prepare h
  obtain ⟨-, hstep⟩ | ⟨-, hstep⟩ := limiter.step_cases call
  · rw [hstep]
    exact hprepared
  · rw [hstep]
    intro last hlast
    obtain ⟨hle, hcounters⟩ := hprepared last hlast
    refine ⟨hle, ?_⟩
    intro address counter hfound
    rw [setCounter, HashMap.lookup_insert_ite] at hfound
    split_ifs at hfound with haddress
    · obtain rfl := Option.some.inj hfound
      rw [attempt_started]
      cases hlive : limiter.counterAt call.address call.now with
      | none =>
        change last < call.now + (limiter.prepare call.now).window
        rw [prepare_window]
        omega
      | some old =>
        rw [← counterAt_prepare limiter call.address (Nat.le_refl call.now)] at hlive
        exact hcounters call.address old (Expiry.current_eq_some.mp hlive).1
    · exact hcounters address counter hfound

theorem liveAtCleanup_run {limiter : HandshakeLimiter} (hwindow : 0 < limiter.window)
    (hnew : limiter.lastCleanup = none) {calls : List Call} {call : Call}
    (hordered : Ordered (calls ++ [call])) :
    LiveAtCleanup (Machine.run step limiter calls) call.now := by
  have hinv := Machine.run_induction step
    (fun is l => Ordered is → ∀ now, (∀ d ∈ is, d.now ≤ now) → LiveAtCleanup l now)
    (by
      intro _ now _ last hlast
      rw [hnew] at hlast
      cases hlast)
    (by
      intro is i ih his now hnow
      obtain ⟨hpast, -, hbefore⟩ := List.pairwise_append.mp his
      have hi := liveAtCleanup_step (by rw [run_window]; exact hwindow)
        (ih hpast i.now (fun d hd => hbefore d hd i (by simp)))
      intro last hlast
      obtain ⟨hle, hcounters⟩ := hi last hlast
      exact ⟨Nat.le_trans hle (hnow i (by simp)), hcounters⟩) calls
  obtain ⟨hpast, -, hbefore⟩ := List.pairwise_append.mp hordered
  exact hinv hpast call.now (fun d hd => hbefore d hd call (by simp))

theorem prepared_live_iff {limiter : HandshakeLimiter} {now : ℕ}
    (h : 0 < limiter.window → LiveAtCleanup limiter now) :
    (∀ address counter, (limiter.prepare now).clients.lookup address = some counter →
      now - counter.started < limiter.window) ↔ ¬ limiter.Lingers now := by
  constructor
  · rintro hlive ⟨last, hlast, hrecent, hoperations, address, counter, hfound, -, hexpired⟩
    rw [prepare_of_recent hlast hrecent hoperations] at hlive
    have := hlive address counter hfound
    omega
  · intro hnot address counter hfound
    by_contra hexpired
    obtain ⟨hclients, -⟩ | ⟨hclients, -, ⟨last, hlast, hrecent⟩, hoperations⟩ :=
      limiter.prepare_cases now
    · rw [hclients] at hfound
      exact hexpired ((Expiry.live_iff _ _).mp (Expiry.lookup_of_lookup_sweep hfound).2)
    · rw [hclients] at hfound
      obtain ⟨-, hcounters⟩ := h (by omega) last hlast
      exact hnot ⟨last, hlast, hrecent, hoperations, address, counter, hfound,
        hcounters address counter hfound, by omega⟩

theorem not_lingers_of_short {limiter : HandshakeLimiter} (hshort : limiter.window ≤ 1) (now : ℕ) :
    ¬ limiter.Lingers now := by
  rintro ⟨last, -, hrecent, -, address, counter, -, hafter, hexpired⟩
  omega

section Flood

variable (address : ℕ → IpAddr)

def flood : ℕ → List Call
  | 0 => []
  | n + 1 => flood n ++ [⟨address n, 0⟩]

def stall : ℕ → List Call
  | 0 => []
  | k + 1 => stall k ++ [⟨address 0, 1⟩]

def floodRun (n : ℕ) : List Call := flood address n ++ stall address (4096 - n % 4096)

/-- The table holds the counters of the first `n` addresses, all started at time zero. -/
structure Flooded (size n operations : ℕ) (limiter : HandshakeLimiter) : Prop where
  maximumClients : limiter.maximumClients = size
  length : limiter.clients.keys.length = n
  started : ∀ a counter, limiter.clients.lookup a = some counter → counter.started = 0
  present : ∀ i ≤ size, (limiter.clients.lookup (address i)).isSome = decide (i < n)
  operations : limiter.operations = UInt64.ofNat operations

variable {address} {size n operations : ℕ} {limiter : HandshakeLimiter}

theorem Flooded.prepare_clients (h : Flooded address size n operations limiter) {now : ℕ}
    (hnow : now < limiter.window) : (limiter.prepare now).clients = limiter.clients := by
  obtain ⟨hclients, -⟩ | ⟨hclients, -⟩ := limiter.prepare_cases now
  · rw [hclients]
    apply Expiry.sweep_eq_self
    intro a counter hfound
    rw [Expiry.live_iff, h.started a counter hfound]
    exact hnow
  · exact hclients

theorem ofNat_succ (k : ℕ) : UInt64.ofNat k + 1 = UInt64.ofNat (k + 1) := by
  rw [UInt64.ofNat_add]
  rfl

theorem ofNat_mod_interval (k : ℕ) : UInt64.ofNat k % cleanupInterval = 0 ↔ k % 4096 = 0 := by
  rw [← UInt64.toNat_inj, UInt64.toNat_mod, UInt64.toNat_ofNat']
  change k % 2 ^ 64 % 4096 = 0 ↔ _
  rw [Nat.mod_mod_of_dvd _ (by decide)]

theorem Flooded.attempt_started_zero (h : Flooded address size n operations limiter) {i now : ℕ}
    (hi : i ≤ size) (hnow : now < limiter.window) (hcase : i < n ∨ now = 0) :
    (attempt limiter.maximumAttempts (limiter.counterAt (address i) now) now).1.started = 0 := by
  rw [attempt_started]
  cases hlive : limiter.counterAt (address i) now with
  | some old => exact h.started _ old (Expiry.current_eq_some.mp hlive).1
  | none =>
    rcases hcase with hlt | hzero
    · have hpresent := h.present i hi
      rw [decide_eq_true hlt, Option.isSome_iff_exists] at hpresent
      obtain ⟨counter, hfound⟩ := hpresent
      have hcurrent : limiter.counterAt (address i) now = some counter := by
        apply Expiry.current_eq_some.mpr
        refine ⟨hfound, ?_⟩
        rw [Expiry.live_iff, h.started _ counter hfound]
        exact hnow
      rw [hlive] at hcurrent
      cases hcurrent
    · exact hzero

theorem Flooded.setCounter (h : Flooded address size n operations limiter)
    (distinct : ∀ i ≤ size, ∀ j ≤ size, address i = address j → i = j) {i : ℕ} (hi : i < size)
    (hle : i ≤ n) {counter : Counter} (hstarted : counter.started = 0) :
    Flooded address size (max n (i + 1)) operations
      (limiter.setCounter (address i) counter) where
  maximumClients := h.maximumClients
  length := by
    have hpresent := h.present i (Nat.le_of_lt hi)
    have hlength := h.length
    rw [HandshakeLimiter.setCounter]
    by_cases hlt : i < n
    · rw [decide_eq_true hlt] at hpresent
      rw [HashMap.length_insert_of_some counter hpresent]
      omega
    · rw [decide_eq_false hlt, Option.isSome_eq_false_iff, Option.isNone_iff_eq_none] at hpresent
      rw [HashMap.length_insert_of_none counter hpresent]
      omega
  started := by
    intro a c hfound
    rw [HandshakeLimiter.setCounter, HashMap.lookup_insert_ite] at hfound
    split_ifs at hfound with ha
    · rw [← Option.some.inj hfound]
      exact hstarted
    · exact h.started a c hfound
  present := by
    intro j hj
    rw [HandshakeLimiter.setCounter, HashMap.lookup_insert_ite]
    by_cases hij : address j = address i
    · obtain rfl := distinct j hj i (Nat.le_of_lt hi) hij
      rw [if_pos rfl, decide_eq_true (by omega)]
      rfl
    · have hne : j ≠ i := fun heq => hij (congrArg address heq)
      rw [if_neg hij, h.present j hj]
      exact decide_eq_decide.mpr (by omega)
  operations := h.operations

theorem Flooded.prepare (h : Flooded address size n operations limiter) {now : ℕ}
    (hnow : now < limiter.window) :
    Flooded address size n (operations + 1) (limiter.prepare now) where
  maximumClients := (limiter.prepare_maximumClients now).trans h.maximumClients
  length := by rw [h.prepare_clients hnow, h.length]
  started := by
    rw [h.prepare_clients hnow]
    exact h.started
  present := by
    rw [h.prepare_clients hnow]
    exact h.present
  operations := by rw [prepare_operations, h.operations, ofNat_succ]

theorem Flooded.call (h : Flooded address size n operations limiter)
    (distinct : ∀ i ≤ size, ∀ j ≤ size, address i = address j → i = j) {i now : ℕ}
    (hnow : now < limiter.window) (hi : i < size) (hle : i ≤ n) (hcase : i < n ∨ now = 0) :
    Flooded address size (max n (i + 1)) (operations + 1) (limiter.step ⟨address i, now⟩).1 ∧
      (limiter.step ⟨address i, now⟩).1.lastCleanup = (limiter.prepare now).lastCleanup := by
  have hprepared := h.prepare hnow
  have hroom : limiter.rejectedFull ⟨address i, now⟩ = false := by
    rw [rejectedFull, tableFull, hprepared.maximumClients, hprepared.length]
    by_cases hlt : i < n
    · have hpresent := hprepared.present i (Nat.le_of_lt hi)
      rw [decide_eq_true hlt, Option.isSome_iff_ne_none] at hpresent
      simp [hpresent]
    · simp
      omega
  obtain ⟨hfull, -⟩ | ⟨-, hstep⟩ := limiter.step_cases ⟨address i, now⟩
  · rw [hroom] at hfull
    cases hfull
  · rw [hstep]
    exact ⟨hprepared.setCounter distinct hi hle
      (h.attempt_started_zero (Nat.le_of_lt hi) hnow hcase), rfl⟩

variable (maximumAttempts : UInt32) {window : ℕ}

theorem flooded_flood (distinct : ∀ i ≤ size, ∀ j ≤ size, address i = address j → i = j)
    (hwindow : 1 < window) (hn : n ≤ size) :
    Flooded address size n n
        (Machine.run step (start maximumAttempts window size) (flood address n)) ∧
      (0 < n →
        (Machine.run step (start maximumAttempts window size)
          (flood address n)).lastCleanup = some 0) := by
  induction n with
  | zero =>
    refine ⟨⟨rfl, rfl, ?_, fun i _ => rfl, rfl⟩, fun h => absurd h (Nat.lt_irrefl 0)⟩
    intro a counter hfound
    cases hfound
  | succ n ih =>
    obtain ⟨hflooded, hlast⟩ := ih (by omega)
    have hzero : 0 < (Machine.run step (start maximumAttempts window size)
        (flood address n)).window := by
      rw [run_window]
      exact Nat.lt_trans Nat.zero_lt_one hwindow
    obtain ⟨hcall, hcleanup⟩ := hflooded.call distinct hzero hn (Nat.le_refl n) (Or.inr rfl)
    rw [flood, Machine.run_concat]
    refine ⟨by simpa using hcall, fun _ => ?_⟩
    rw [hcleanup]
    obtain ⟨-, hprepared⟩ | ⟨-, hprepared, ⟨last, hsome, -⟩, -⟩ :=
      (Machine.run step (start maximumAttempts window size) (flood address n)).prepare_cases 0
    · exact hprepared
    · rw [hprepared]
      cases n with
      | zero => cases hsome
      | succ n => exact hlast (Nat.succ_pos n)

theorem flooded_stall (distinct : ∀ i ≤ size, ∀ j ≤ size, address i = address j → i = j)
    (hwindow : 1 < window) (hsize : 0 < size) {k : ℕ} (hk : k ≤ 4096 - size % 4096) :
    Flooded address size size (size + k)
        (Machine.run step (start maximumAttempts window size)
          (flood address size ++ stall address k)) ∧
      (Machine.run step (start maximumAttempts window size)
          (flood address size ++ stall address k)).lastCleanup =
        some (if k = 4096 - size % 4096 then 1 else 0) := by
  induction k with
  | zero =>
    rw [stall, List.append_nil, if_neg (by omega)]
    obtain ⟨hflooded, hlast⟩ := flooded_flood maximumAttempts distinct hwindow (Nat.le_refl size)
    exact ⟨hflooded, hlast hsize⟩
  | succ k ih =>
    obtain ⟨hflooded, hlast⟩ := ih (by omega)
    rw [if_neg (by omega)] at hlast
    rw [stall, ← List.append_assoc, Machine.run_concat]
    generalize hrun : Machine.run step (start maximumAttempts window size)
      (flood address size ++ stall address k) = limiter at hflooded hlast ⊢
    have hlimiter : limiter.window = window := by
      rw [← hrun, run_window]
      rfl
    obtain ⟨hcall, hcleanup⟩ := hflooded.call distinct (by rw [hlimiter]; exact hwindow) hsize
      (Nat.zero_le size) (Or.inl hsize)
    refine ⟨by simpa [Nat.max_eq_left hsize, Nat.add_assoc] using hcall, ?_⟩
    rw [hcleanup]
    have hinterval := ofNat_mod_interval (size + k + 1)
    rw [← ofNat_succ, ← hflooded.operations] at hinterval
    by_cases hdone : k + 1 = 4096 - size % 4096
    · rw [if_pos hdone]
      exact prepare_of_interval (hinterval.mpr (by omega))
    · rw [if_neg hdone, prepare_of_recent hlast (by rw [hlimiter]; omega)
        (fun hzero => by have hmultiple := hinterval.mp hzero; omega)]
      exact hlast

theorem mem_flood {k : ℕ} {call : Call} (h : call ∈ flood address k) : call.now = 0 := by
  induction k with
  | zero => cases h
  | succ k ih =>
    rcases List.mem_append.mp h with hold | hnew
    · exact ih hold
    · rw [List.mem_singleton.mp hnew]

theorem mem_stall {k : ℕ} {call : Call} (h : call ∈ stall address k) : call.now = 1 := by
  induction k with
  | zero => cases h
  | succ k ih =>
    rcases List.mem_append.mp h with hold | hnew
    · exact ih hold
    · rw [List.mem_singleton.mp hnew]

theorem floodRun_ordered (hwindow : 1 < window) :
    Ordered (floodRun address size ++ [⟨address size, window⟩]) := by
  have hflood : Ordered (flood address size) := List.pairwise_of_forall_mem_list
    (fun c hc d _ => by rw [mem_flood hc]; exact Nat.zero_le _)
  have hstall : Ordered (stall address (4096 - size % 4096)) := List.pairwise_of_forall_mem_list
    (fun c hc d hd => by rw [mem_stall hc, mem_stall hd])
  apply List.pairwise_append.mpr
  refine ⟨?_, List.pairwise_singleton _ _, ?_⟩
  · apply List.pairwise_append.mpr
    exact ⟨hflood, hstall, fun c hc d _ => by rw [mem_flood hc]; exact Nat.zero_le _⟩
  · intro c hc d hd
    rw [List.mem_singleton.mp hd]
    rcases List.mem_append.mp hc with hc | hc
    · rw [mem_flood hc]
      exact Nat.zero_le _
    · rw [mem_stall hc]
      exact Nat.le_of_lt hwindow

theorem floodRun_rejects (distinct : ∀ i ≤ size, ∀ j ≤ size, address i = address j → i = j)
    (hwindow : 1 < window) (hsize : 0 < size) :
    (Machine.run step (start maximumAttempts window size)
        (floodRun address size)).rejectedFull ⟨address size, window⟩ = true ∧
      (Machine.run step (start maximumAttempts window size)
        (floodRun address size)).liveCounters window = 0 := by
  obtain ⟨hflooded, hlast⟩ := flooded_stall maximumAttempts distinct hwindow hsize
    (Nat.le_refl (4096 - size % 4096))
  rw [if_pos rfl] at hlast
  rw [floodRun]
  generalize hrun : Machine.run step (start maximumAttempts window size)
    (flood address size ++ stall address (4096 - size % 4096)) = limiter at hflooded hlast ⊢
  have hlimiter : limiter.window = window := by
    rw [← hrun, run_window]
    rfl
  constructor
  · have hinterval := ofNat_mod_interval (size + (4096 - size % 4096) + 1)
    rw [← ofNat_succ, ← hflooded.operations] at hinterval
    have hmultiple : (size + (4096 - size % 4096) + 1) % 4096 ≠ 0 := by omega
    have habsent := hflooded.present size (Nat.le_refl size)
    rw [decide_eq_false (Nat.lt_irrefl size)] at habsent
    rw [rejectedFull, prepare_of_recent hlast (by rw [hlimiter]; change window - 1 < window; omega)
      (fun hzero => hmultiple (hinterval.mp hzero)), tableFull]
    simp only [hflooded.length, hflooded.maximumClients, Nat.le_refl, decide_true, Bool.and_true,
      Option.isNone_iff_eq_none]
    rw [Option.isSome_eq_false_iff, Option.isNone_iff_eq_none] at habsent
    exact habsent
  · rw [liveCounters, Expiry.liveCount, List.length_eq_zero_iff, List.eq_nil_iff_forall_not_mem]
    intro a ha
    rw [← AList.mem_keys, ← AList.lookup_isSome, Option.isSome_iff_exists] at ha
    obtain ⟨counter, hcounter⟩ := ha
    obtain ⟨hfound, hlive⟩ := Expiry.lookup_of_lookup_sweep hcounter
    rw [Expiry.live_iff, hflooded.started a counter hfound, hlimiter] at hlive
    exact absurd hlive (Nat.lt_irrefl window)

end Flood

theorem exists_addresses : ∃ address : ℕ → IpAddr,
    ∀ i < 2 ^ 128, ∀ j < 2 ^ 128, address i = address j → i = j := by
  refine ⟨fun i => .v6 ⟨BigEndian.beBytes 16 i, BigEndian.beBytes_length 16 i⟩, ?_⟩
  intro i hi j hj heq
  have hbytes : BigEndian.beBytes 16 i = BigEndian.beBytes 16 j := by
    simpa using heq
  have hnat := congrArg BigEndian.beNat hbytes
  rw [BigEndian.beNat_beBytes, BigEndian.beNat_beBytes] at hnat
  change i % 2 ^ 128 = j % 2 ^ 128 at hnat
  rwa [Nat.mod_eq_of_lt hi, Nat.mod_eq_of_lt hj] at hnat

theorem live_of_turned_away_iff {maximumAttempts : UInt32} {window maximumClients : ℕ}
    {calls : List Call} {call : Call} (hordered : Ordered (calls ++ [call])) (hrejected :
      (Machine.run step (start maximumAttempts window maximumClients) calls).rejectedFull call =
        true) :
    maximumClients ≤ (Machine.run step (start maximumAttempts window maximumClients)
        calls).liveCounters call.now ↔
      ¬ (Machine.run step (start maximumAttempts window maximumClients) calls).Lingers
        call.now := by
  have hempty : (start maximumAttempts window maximumClients).clients.keys.length ≤
      (start maximumAttempts window maximumClients).maximumClients := Nat.zero_le _
  have hbound := run_length hempty calls
  rw [← run_maximumClients _ calls] at hbound
  have hlive := live_of_rejectedFull_iff hbound hrejected
  rw [run_maximumClients] at hlive
  refine hlive.trans (prepared_live_iff fun hwindow => ?_)
  exact liveAtCleanup_run (by rwa [run_window] at hwindow) rfl hordered

theorem turnsAway_of_short {maximumAttempts : UInt32} {window maximumClients : ℕ}
    (hshort : window ≤ 1) : TurnsAwayOnlyWhenLive maximumAttempts window maximumClients := by
  intro calls call hordered hrejected
  rw [live_of_turned_away_iff hordered hrejected]
  exact not_lingers_of_short (by rw [run_window]; exact hshort) call.now

theorem exists_wrong_rejection {maximumAttempts : UInt32} {window maximumClients : ℕ}
    (fits : maximumClients < 2 ^ 64) (hwindow : 1 < window) (hclients : 0 < maximumClients) :
    ¬ TurnsAwayOnlyWhenLive maximumAttempts window maximumClients := by
  intro hright
  obtain ⟨address, hdistinct⟩ := exists_addresses
  have distinct : ∀ i ≤ maximumClients, ∀ j ≤ maximumClients, address i = address j → i = j :=
    fun i hi j hj => hdistinct i (by omega) j (by omega)
  obtain ⟨hrejected, hnone⟩ := floodRun_rejects maximumAttempts distinct hwindow hclients
  have hlive := hright _ _ (floodRun_ordered hwindow) hrejected
  rw [hnone] at hlive
  omega

/-- A newcomer that is turned away has found `maximumClients` live counters exactly when no
counter has expired between the last cleanup and the call, or the call itself cleans up. This is so
in every run exactly for windows of at most one tick and for tables without places. -/
theorem newcomers_turned_away_iff (maximumAttempts : UInt32) (window maximumClients : ℕ)
    (fits : maximumClients < 2 ^ 64) :
    (∀ calls call, Ordered (calls ++ [call]) →
      let limiter := Machine.run step (start maximumAttempts window maximumClients) calls
      limiter.rejectedFull call = true →
      (maximumClients ≤ limiter.liveCounters call.now ↔ ¬ limiter.Lingers call.now)) ∧
    (TurnsAwayOnlyWhenLive maximumAttempts window maximumClients ↔
      window ≤ 1 ∨ maximumClients = 0) := by
  constructor
  · intro calls call hordered limiter hrejected
    exact live_of_turned_away_iff hordered hrejected
  · constructor
    · intro hright
      by_contra hcontra
      exact exists_wrong_rejection fits (by omega) (by omega) hright
    · rintro (hshort | hzero)
      · exact turnsAway_of_short hshort
      · intro calls call _ _
        rw [hzero]
        exact Nat.zero_le _

/-- The limiter of the server. -/
theorem newcomers_turned_away_by_server :
    ¬ TurnsAwayOnlyWhenLive 50 60000000000 defaultMaxClients := by
  rw [(newcomers_turned_away_iff 50 60000000000 defaultMaxClients (by decide)).2]
  decide

/-- Two places and a window of 60: the counter of the second source expires at 90, after the
cleanup at 60, and the newcomer at 100 is turned away while one counter is live. -/
theorem newcomer_turned_away_early :
    let source := fun n => IpAddr.v4 ⟨192, 0, 2, n⟩
    let calls : List Call := [⟨source 1, 0⟩, ⟨source 2, 30⟩, ⟨source 3, 60⟩]
    let newcomer : Call := ⟨source 4, 100⟩
    let limiter := Machine.run step (start 50 60 2) calls
    Ordered (calls ++ [newcomer]) ∧ limiter.rejectedFull newcomer = true ∧
      limiter.liveCounters newcomer.now = 1 ∧ limiter.maximumClients = 2 := by
  decide +kernel

end MouseVpn.Server.HandshakeLimiter
