import MouseVpn.Lib.Expiry
import MouseVpn.Lib.Machine
import MouseVpn.Lib.RustStd

/-!
# The handshake limiter

One counter for each source address, with a window that starts at its first attempt. Counters of
past windows are removed by a cleanup, which any call may carry out, and a table that is full
turns newcomers away. Times are nanoseconds of the monotonic clock.
-/

namespace MouseVpn.Server

open MouseVpn.Lib

structure Counter where
  started : ℕ
  attempts : UInt32
  deriving DecidableEq, Repr

def defaultMaxClients : ℕ := 65536

def cleanupInterval : UInt64 := 4096

structure HandshakeLimiter where
  clients : HashMap IpAddr Counter
  maximumAttempts : UInt32
  window : ℕ
  maximumClients : ℕ
  operations : UInt64
  lastCleanup : Option ℕ

namespace HandshakeLimiter

def new (maximumAttempts : UInt32) (window : ℕ) : HandshakeLimiter :=
  ⟨∅, maximumAttempts, window, defaultMaxClients, 0, none⟩

def cleanupDue (limiter : HandshakeLimiter) (now : ℕ) : Bool :=
  (match limiter.lastCleanup with
    | none => true
    | some last => decide (limiter.window ≤ now - last)) ||
    limiter.operations % cleanupInterval == 0

def prepare (limiter : HandshakeLimiter) (now : ℕ) : HandshakeLimiter :=
  let limiter := { limiter with operations := limiter.operations + 1 }
  if limiter.cleanupDue now then
    { limiter with
      clients := Expiry.sweep Counter.started limiter.window now limiter.clients
      lastCleanup := some now }
  else limiter

def tableFull (limiter : HandshakeLimiter) (address : IpAddr) : Bool :=
  (limiter.clients.lookup address).isNone &&
    decide (limiter.maximumClients ≤ limiter.clients.keys.length)

def setCounter (limiter : HandshakeLimiter) (address : IpAddr) (counter : Counter) :
    HandshakeLimiter :=
  { limiter with clients := limiter.clients.insert address counter }

/-- `entry(address).or_insert` and what is done to the counter. -/
def count (limiter : HandshakeLimiter) (address : IpAddr) (now : ℕ) : HandshakeLimiter × Bool :=
  let counter := (limiter.clients.lookup address).getD ⟨now, 0⟩
  let counter := if limiter.window ≤ now - counter.started then ⟨now, 0⟩ else counter
  if limiter.maximumAttempts ≤ counter.attempts then
    (limiter.setCounter address counter, false)
  else
    -- The attempts are below a `u32`, so that the increment does not overflow.
    (limiter.setCounter address { counter with attempts := counter.attempts + 1 }, true)

def allowAt (limiter : HandshakeLimiter) (address : IpAddr) (now : ℕ) : HandshakeLimiter × Bool :=
  let limiter := limiter.prepare now
  if limiter.tableFull address then (limiter, false) else limiter.count address now

def start (maximumAttempts : UInt32) (window maximumClients : ℕ) : HandshakeLimiter :=
  { new maximumAttempts window with maximumClients := maximumClients }

structure Call where
  address : IpAddr
  now : ℕ
  deriving DecidableEq, Repr

def step (limiter : HandshakeLimiter) (call : Call) : HandshakeLimiter × Bool :=
  limiter.allowAt call.address call.now

def Ordered (calls : List Call) : Prop := calls.Pairwise fun c d => c.now ≤ d.now

instance (calls : List Call) : Decidable (Ordered calls) :=
  inferInstanceAs (Decidable (calls.Pairwise fun c d => c.now ≤ d.now))

def rejectedFull (limiter : HandshakeLimiter) (call : Call) : Bool :=
  (limiter.prepare call.now).tableFull call.address

def counterAt (limiter : HandshakeLimiter) (address : IpAddr) (now : ℕ) : Option Counter :=
  Expiry.current Counter.started limiter.window limiter.clients address now

@[simp] theorem prepare_maximumAttempts (limiter : HandshakeLimiter) (now : ℕ) :
    (limiter.prepare now).maximumAttempts = limiter.maximumAttempts := by
  simp only [prepare]
  split <;> rfl

@[simp] theorem prepare_window (limiter : HandshakeLimiter) (now : ℕ) :
    (limiter.prepare now).window = limiter.window := by
  simp only [prepare]
  split <;> rfl

@[simp] theorem prepare_maximumClients (limiter : HandshakeLimiter) (now : ℕ) :
    (limiter.prepare now).maximumClients = limiter.maximumClients := by
  simp only [prepare]
  split <;> rfl

@[simp] theorem prepare_operations (limiter : HandshakeLimiter) (now : ℕ) :
    (limiter.prepare now).operations = limiter.operations + 1 := by
  simp only [prepare]
  split <;> rfl

theorem prepare_cases (limiter : HandshakeLimiter) (now : ℕ) :
    ((limiter.prepare now).clients =
        Expiry.sweep Counter.started limiter.window now limiter.clients ∧
      (limiter.prepare now).lastCleanup = some now) ∨
    ((limiter.prepare now).clients = limiter.clients ∧
      (limiter.prepare now).lastCleanup = limiter.lastCleanup ∧
      (∃ last, limiter.lastCleanup = some last ∧ now - last < limiter.window) ∧
      (limiter.operations + 1) % cleanupInterval ≠ 0) := by
  cases hdue : cleanupDue { limiter with operations := limiter.operations + 1 } now with
  | true =>
    left
    simp only [prepare, hdue, if_true, and_self]
  | false =>
    right
    simp only [prepare, hdue, Bool.false_eq_true, if_false, true_and]
    simp only [cleanupDue, Bool.or_eq_false_iff, beq_eq_false_iff_ne] at hdue
    refine ⟨?_, hdue.2⟩
    cases hlast : limiter.lastCleanup with
    | none =>
      rw [hlast] at hdue
      cases hdue.1
    | some last =>
      rw [hlast] at hdue
      exact ⟨last, rfl, by simpa using hdue.1⟩

theorem prepare_of_interval {limiter : HandshakeLimiter} {now : ℕ}
    (h : (limiter.operations + 1) % cleanupInterval = 0) :
    (limiter.prepare now).lastCleanup = some now := by
  obtain ⟨-, hlast⟩ | ⟨-, -, -, hinterval⟩ := limiter.prepare_cases now
  · exact hlast
  · exact absurd h hinterval

theorem prepare_of_recent {limiter : HandshakeLimiter} {now last : ℕ}
    (hlast : limiter.lastCleanup = some last) (hrecent : now - last < limiter.window)
    (h : (limiter.operations + 1) % cleanupInterval ≠ 0) :
    limiter.prepare now = { limiter with operations := limiter.operations + 1 } := by
  have hdue : cleanupDue { limiter with operations := limiter.operations + 1 } now = false := by
    simp [cleanupDue, hlast, h, hrecent]
  simp only [prepare, hdue, Bool.false_eq_true, if_false]

theorem lookup_of_lookup_prepare {limiter : HandshakeLimiter} {now : ℕ} {address : IpAddr}
    {counter : Counter} (h : (limiter.prepare now).clients.lookup address = some counter) :
    limiter.clients.lookup address = some counter := by
  simp only [prepare] at h
  split at h
  · exact (Expiry.lookup_of_lookup_sweep h).1
  · exact h

theorem prepare_length_le (limiter : HandshakeLimiter) (now : ℕ) :
    (limiter.prepare now).clients.keys.length ≤ limiter.clients.keys.length := by
  simp only [prepare]
  split
  · exact Expiry.sweep_length_le _ _ _ _
  · exact Nat.le_refl _

@[simp] theorem counterAt_prepare (limiter : HandshakeLimiter) (address : IpAddr)
    {now later : ℕ} (h : now ≤ later) :
    (limiter.prepare now).counterAt address later = limiter.counterAt address later := by
  simp only [counterAt, prepare_window]
  simp only [prepare]
  split
  · exact Expiry.current_sweep h _ _
  · rfl

def attempt (maximumAttempts : UInt32) (counter : Option Counter) (now : ℕ) : Counter × Bool :=
  let counter := counter.getD ⟨now, 0⟩
  if maximumAttempts ≤ counter.attempts then (counter, false)
  else ({ counter with attempts := counter.attempts + 1 }, true)

theorem count_eq (limiter : HandshakeLimiter) (address : IpAddr) (now : ℕ) :
    limiter.count address now =
      (limiter.setCounter address
          (attempt limiter.maximumAttempts (limiter.counterAt address now) now).1,
        (attempt limiter.maximumAttempts (limiter.counterAt address now) now).2) := by
  have hcounter :
      (if limiter.window ≤ now - ((limiter.clients.lookup address).getD ⟨now, 0⟩).started
      then ⟨now, 0⟩ else (limiter.clients.lookup address).getD ⟨now, 0⟩) =
      (limiter.counterAt address now).getD ⟨now, 0⟩ := by
    rw [counterAt, Expiry.current]
    cases limiter.clients.lookup address with
    | none =>
      rw [Option.filter_none, Option.getD_none, ite_self]
    | some counter =>
      rw [Option.filter_some, Option.getD_some]
      by_cases h : limiter.window ≤ now - counter.started
      · rw [if_pos h, if_neg (by rw [Expiry.live_iff]; omega), Option.getD_none]
      · rw [if_neg h, if_pos (by rw [Expiry.live_iff]; omega), Option.getD_some]
  simp only [count, hcounter, attempt]
  split <;> rfl

theorem step_cases (limiter : HandshakeLimiter) (call : Call) :
    (limiter.rejectedFull call = true ∧ limiter.step call = (limiter.prepare call.now, false)) ∨
      (limiter.rejectedFull call = false ∧
        limiter.step call =
          ((limiter.prepare call.now).setCounter call.address
              (attempt limiter.maximumAttempts
                (limiter.counterAt call.address call.now) call.now).1,
            (attempt limiter.maximumAttempts
              (limiter.counterAt call.address call.now) call.now).2)) := by
  have hstep : limiter.step call = if limiter.rejectedFull call
      then (limiter.prepare call.now, false)
      else (limiter.prepare call.now).count call.address call.now := rfl
  cases h : limiter.rejectedFull call with
  | true =>
    rw [h, if_pos rfl] at hstep
    exact Or.inl ⟨rfl, hstep⟩
  | false =>
    rw [h, if_neg Bool.false_ne_true, count_eq, prepare_maximumAttempts,
      counterAt_prepare _ _ (Nat.le_refl _)] at hstep
    exact Or.inr ⟨rfl, hstep⟩

@[simp] theorem step_maximumAttempts (limiter : HandshakeLimiter) (call : Call) :
    (limiter.step call).1.maximumAttempts = limiter.maximumAttempts := by
  obtain ⟨-, h⟩ | ⟨-, h⟩ := limiter.step_cases call <;> simp [h, setCounter]

@[simp] theorem step_window (limiter : HandshakeLimiter) (call : Call) :
    (limiter.step call).1.window = limiter.window := by
  obtain ⟨-, h⟩ | ⟨-, h⟩ := limiter.step_cases call <;> simp [h, setCounter]

@[simp] theorem step_maximumClients (limiter : HandshakeLimiter) (call : Call) :
    (limiter.step call).1.maximumClients = limiter.maximumClients := by
  obtain ⟨-, h⟩ | ⟨-, h⟩ := limiter.step_cases call <;> simp [h, setCounter]

theorem counterAt_setCounter_of_ne (limiter : HandshakeLimiter) {address other : IpAddr}
    (counter : Counter) (h : address ≠ other) (now : ℕ) :
    (limiter.setCounter other counter).counterAt address now = limiter.counterAt address now :=
  Expiry.current_congr (AList.lookup_insert_ne h) now

theorem counterAt_step (limiter : HandshakeLimiter) {call : Call} {address : IpAddr}
    (h : call.address = address → limiter.rejectedFull call = true) {later : ℕ}
    (hlater : call.now ≤ later) :
    (limiter.step call).1.counterAt address later = limiter.counterAt address later := by
  obtain ⟨-, hstep⟩ | ⟨hcounts, hstep⟩ := limiter.step_cases call
  · rw [hstep]
    exact counterAt_prepare _ _ hlater
  · have hne : address ≠ call.address := by
      intro heq
      rw [h heq.symm] at hcounts
      cases hcounts
    rw [hstep, counterAt_setCounter_of_ne _ _ hne]
    exact counterAt_prepare _ _ hlater

theorem lookup_step_self {limiter : HandshakeLimiter} {call : Call}
    (h : limiter.rejectedFull call = false) :
    (limiter.step call).1.clients.lookup call.address =
      some (attempt limiter.maximumAttempts
        (limiter.counterAt call.address call.now) call.now).1 := by
  obtain ⟨hfull, -⟩ | ⟨-, hstep⟩ := limiter.step_cases call
  · rw [h] at hfull
    cases hfull
  · rw [hstep]
    exact AList.lookup_insert _

theorem answer_eq {limiter : HandshakeLimiter} {call : Call}
    (h : limiter.rejectedFull call = false) :
    (limiter.step call).2 =
      (attempt limiter.maximumAttempts
        (limiter.counterAt call.address call.now) call.now).2 := by
  obtain ⟨hfull, -⟩ | ⟨-, hstep⟩ := limiter.step_cases call
  · rw [h] at hfull
    cases hfull
  · rw [hstep]

theorem lookup_step {limiter : HandshakeLimiter} {call : Call} {address : IpAddr}
    {counter : Counter} (h : (limiter.step call).1.clients.lookup address = some counter) :
    limiter.clients.lookup address = some counter ∨
      (address = call.address ∧ limiter.rejectedFull call = false ∧
        counter = (attempt limiter.maximumAttempts
          (limiter.counterAt call.address call.now) call.now).1) := by
  obtain ⟨-, hstep⟩ | ⟨hcounts, hstep⟩ := limiter.step_cases call
  · rw [hstep] at h
    exact Or.inl (lookup_of_lookup_prepare h)
  · rw [hstep, setCounter, HashMap.lookup_insert_ite] at h
    split_ifs at h with heq
    · exact Or.inr ⟨heq, hcounts, (Option.some.inj h).symm⟩
    · exact Or.inl (lookup_of_lookup_prepare h)

theorem attempt_started (maximumAttempts : UInt32) (counter : Option Counter) (now : ℕ) :
    (attempt maximumAttempts counter now).1.started = (counter.elim now Counter.started) := by
  cases counter with
  | none => simp only [attempt]; split <;> rfl
  | some counter => simp only [attempt]; split <;> rfl

theorem tableFull_eq_false {limiter : HandshakeLimiter} {address : IpAddr}
    (h : limiter.tableFull address = false) :
    (limiter.clients.lookup address).isSome = true ∨
      limiter.clients.lookup address = none ∧
        limiter.clients.keys.length < limiter.maximumClients := by
  cases hfound : limiter.clients.lookup address with
  | some counter => exact Or.inl rfl
  | none => exact Or.inr ⟨rfl, by simpa [tableFull, hfound] using h⟩

theorem setCounter_length {limiter : HandshakeLimiter} {address : IpAddr} {counter : Counter}
    (hlength : limiter.clients.keys.length ≤ limiter.maximumClients)
    (hroom : limiter.tableFull address = false) :
    (limiter.setCounter address counter).clients.keys.length ≤ limiter.maximumClients := by
  rw [setCounter]
  rcases tableFull_eq_false hroom with hsome | ⟨hnone, hlt⟩
  · rw [HashMap.length_insert_of_some counter hsome]
    exact hlength
  · rw [HashMap.length_insert_of_none counter hnone]
    exact hlt

theorem step_length {limiter : HandshakeLimiter} (call : Call)
    (h : limiter.clients.keys.length ≤ limiter.maximumClients) :
    (limiter.step call).1.clients.keys.length ≤ limiter.maximumClients := by
  have hprepared := Nat.le_trans (limiter.prepare_length_le call.now) h
  obtain ⟨-, hstep⟩ | ⟨hcounts, hstep⟩ := limiter.step_cases call
  · rw [hstep]
    exact hprepared
  · rw [← prepare_maximumClients limiter call.now] at hprepared ⊢
    rw [hstep]
    exact setCounter_length hprepared hcounts

end HandshakeLimiter

end MouseVpn.Server
