import MouseVpn.Server.RateLimit

/-!
# The limiter keeps its sources apart

What one source is answered depends on its own calls alone, as long as it is not turned away by
a full table. The calls of the others clean up and count operations, but they never change the
live counter of the source. Between two states this is the relation `Agree`: a run of all calls
and the run of one source's calls pass through states that agree.
-/

namespace MouseVpn.Server.HandshakeLimiter

open MouseVpn.Lib

def counts (address : IpAddr) (limiter : HandshakeLimiter) (call : Call) : Bool :=
  decide (call.address = address) && !limiter.rejectedFull call

def countedCalls (address : IpAddr) (limiter : HandshakeLimiter) (calls : List Call) : List Call :=
  Machine.collect step (fun l c => if l.counts address c then some c else none) limiter calls

def decisions (address : IpAddr) (limiter : HandshakeLimiter) (calls : List Call) : List Bool :=
  Machine.collect step (fun l c => if l.counts address c then some (l.step c).2 else none)
    limiter calls

def allowedCalls (address : IpAddr) (limiter : HandshakeLimiter) (calls : List Call) :
    List Call :=
  Machine.collect step
    (fun l c => if c.address = address ∧ (l.step c).2 = true then some c else none) limiter calls

def opens (address : IpAddr) (limiter : HandshakeLimiter) (call : Call) : Bool :=
  limiter.counts address call && (limiter.counterAt address call.now).isNone

/-- After the calls `pre`, `opening` opens a counter window of the source, and the calls `mid`
that follow it are made before that window ends. -/
structure CounterWindow (address : IpAddr) (limiter : HandshakeLimiter) (pre : List Call)
    (opening : Call) (mid : List Call) : Prop where
  opened : opens address (Machine.run step limiter pre) opening = true
  within : ∀ call ∈ mid, call.now < opening.now + limiter.window

theorem counts_iff {address : IpAddr} {limiter : HandshakeLimiter} {call : Call} :
    limiter.counts address call = true ↔
      call.address = address ∧ limiter.rejectedFull call = false := by
  simp [counts]

theorem not_counts_iff {address : IpAddr} {limiter : HandshakeLimiter} {call : Call} :
    limiter.counts address call = false ↔
      (call.address = address → limiter.rejectedFull call = true) := by
  rw [← Bool.not_eq_true, counts_iff]
  simp

theorem allowed_counts {address : IpAddr} {limiter : HandshakeLimiter} {call : Call}
    (haddress : call.address = address) (h : (limiter.step call).2 = true) :
    limiter.counts address call = true := by
  obtain ⟨-, hstep⟩ | ⟨hcounts, -⟩ := limiter.step_cases call
  · rw [hstep] at h
    cases h
  · exact counts_iff.mpr ⟨haddress, hcounts⟩

theorem run_maximumAttempts (limiter : HandshakeLimiter) (calls : List Call) :
    (Machine.run step limiter calls).maximumAttempts = limiter.maximumAttempts :=
  Machine.run_invariant step (fun l => l.maximumAttempts = limiter.maximumAttempts)
    (fun l c h => (l.step_maximumAttempts c).trans h) rfl calls

theorem run_window (limiter : HandshakeLimiter) (calls : List Call) :
    (Machine.run step limiter calls).window = limiter.window :=
  Machine.run_invariant step (fun l => l.window = limiter.window)
    (fun l c h => (l.step_window c).trans h) rfl calls

theorem run_maximumClients (limiter : HandshakeLimiter) (calls : List Call) :
    (Machine.run step limiter calls).maximumClients = limiter.maximumClients :=
  Machine.run_invariant step (fun l => l.maximumClients = limiter.maximumClients)
    (fun l c h => (l.step_maximumClients c).trans h) rfl calls

theorem run_length {limiter : HandshakeLimiter}
    (h : limiter.clients.keys.length ≤ limiter.maximumClients) (calls : List Call) :
    (Machine.run step limiter calls).clients.keys.length ≤ limiter.maximumClients := by
  have hinv := Machine.run_invariant step
    (fun l => l.clients.keys.length ≤ l.maximumClients)
    (fun l c hl => (l.step_maximumClients c).symm ▸ step_length c hl) h calls
  rw [run_maximumClients] at hinv
  exact hinv

/-- From `now` on the second limiter, which knows the source alone, answers the source as the
first one does. -/
structure Agree (address : IpAddr) (now : ℕ) (limiter alone : HandshakeLimiter) : Prop where
  maximumAttempts : limiter.maximumAttempts = alone.maximumAttempts
  window : limiter.window = alone.window
  maximumClients : limiter.maximumClients = alone.maximumClients
  counter : limiter.counterAt address now = alone.counterAt address now
  bounded : limiter.clients.keys.length ≤ limiter.maximumClients
  only : ∀ other counter, alone.clients.lookup other = some counter → other = address

namespace Agree

variable {address : IpAddr} {now : ℕ} {limiter alone : HandshakeLimiter}

theorem later (h : Agree address now limiter alone) {t : ℕ} (ht : now ≤ t) :
    Agree address t limiter alone := by
  refine { h with counter := ?_ }
  have hcounter := h.counter
  rw [counterAt, counterAt, h.window] at hcounter ⊢
  exact Expiry.current_eq_later ht hcounter

theorem skip (h : Agree address now limiter alone) {call : Call} (hnow : now ≤ call.now)
    (hcounts : limiter.counts address call = false) :
    Agree address call.now (limiter.step call).1 alone where
  maximumAttempts := (limiter.step_maximumAttempts call).trans h.maximumAttempts
  window := (limiter.step_window call).trans h.window
  maximumClients := (limiter.step_maximumClients call).trans h.maximumClients
  counter := by
    rw [counterAt_step limiter (not_counts_iff.mp hcounts) (Nat.le_refl _)]
    exact (h.later hnow).counter
  bounded := by
    rw [step_maximumClients]
    exact step_length call h.bounded
  only := h.only

theorem room (h : Agree address now limiter alone) {call : Call}
    (hcounts : limiter.counts address call = true) : alone.rejectedFull call = false := by
  obtain ⟨haddress, hroom⟩ := counts_iff.mp hcounts
  cases hfound : (alone.prepare call.now).clients.lookup call.address with
  | some counter => simp [rejectedFull, tableFull, hfound]
  | none =>
    have hempty : (alone.prepare call.now).clients.keys = [] := by
      apply List.eq_nil_iff_forall_not_mem.mpr
      intro other hother
      rw [← AList.mem_keys, ← AList.lookup_isSome, Option.isSome_iff_exists] at hother
      obtain ⟨counter, hcounter⟩ := hother
      have hother := h.only other counter (lookup_of_lookup_prepare hcounter)
      rw [hother, ← haddress, hfound] at hcounter
      cases hcounter
    have hpos : 0 < limiter.maximumClients := by
      rcases tableFull_eq_false hroom with hsome | ⟨-, hlt⟩
      · rw [AList.lookup_isSome, AList.mem_keys] at hsome
        have hlength := List.length_pos_of_mem hsome
        have hprepared := limiter.prepare_length_le call.now
        have hbounded := h.bounded
        omega
      · rw [prepare_maximumClients] at hlt
        omega
    rw [h.maximumClients] at hpos
    simp [rejectedFull, tableFull, hempty]
    omega

theorem attempt_eq (h : Agree address now limiter alone) {call : Call} (hnow : now ≤ call.now)
    (haddress : call.address = address) :
    attempt limiter.maximumAttempts (limiter.counterAt call.address call.now) call.now =
      attempt alone.maximumAttempts (alone.counterAt call.address call.now) call.now := by
  rw [h.maximumAttempts, haddress, (h.later hnow).counter]

theorem both (h : Agree address now limiter alone) {call : Call} (hnow : now ≤ call.now)
    (hcounts : limiter.counts address call = true) :
    (limiter.step call).2 = (alone.step call).2 ∧
      Agree address call.now (limiter.step call).1 (alone.step call).1 := by
  obtain ⟨haddress, hroom⟩ := counts_iff.mp hcounts
  have halone := h.room hcounts
  have hattempt := h.attempt_eq hnow haddress
  refine ⟨by rw [answer_eq hroom, answer_eq halone, hattempt], ?_⟩
  refine ⟨?_, ?_, ?_, ?_, ?_, ?_⟩
  · rw [step_maximumAttempts, step_maximumAttempts, h.maximumAttempts]
  · rw [step_window, step_window, h.window]
  · rw [step_maximumClients, step_maximumClients, h.maximumClients]
  · have hlookup : (limiter.step call).1.clients.lookup address =
        (alone.step call).1.clients.lookup address := by
      rw [← haddress, lookup_step_self hroom, lookup_step_self halone, hattempt]
    rw [counterAt, counterAt, step_window, step_window, h.window]
    exact Expiry.current_congr hlookup _
  · rw [step_maximumClients]
    exact step_length call h.bounded
  · intro other counter hfound
    rcases lookup_step hfound with hold | ⟨hother, -, -⟩
    · exact h.only other counter hold
    · exact hother.trans haddress

theorem decisions_eq (h : Agree address now limiter alone) {calls : List Call}
    (hordered : Ordered calls) (hnow : ∀ call ∈ calls, now ≤ call.now) :
    limiter.decisions address calls =
      Machine.outputs step alone (limiter.countedCalls address calls) := by
  induction calls generalizing now limiter alone with
  | nil => rfl
  | cons call calls ih =>
    obtain ⟨hfirst, hrest⟩ := List.pairwise_cons.mp hordered
    have hcall := hnow call List.mem_cons_self
    rw [decisions, countedCalls, Machine.collect_cons, Machine.collect_cons]
    cases hcounts : limiter.counts address call with
    | false => exact ih (h.skip hcall hcounts) hrest hfirst
    | true =>
      obtain ⟨hanswer, hagree⟩ := h.both hcall hcounts
      have htail := ih hagree hrest hfirst
      simp only [if_true, Option.toList_some, List.singleton_append]
      rw [Machine.outputs, Machine.observe, ← hanswer]
      exact congrArg _ htail

end Agree

theorem agree_start (address : IpAddr) (maximumAttempts : UInt32) (window maximumClients : ℕ) :
    Agree address 0 (start maximumAttempts window maximumClients)
      (start maximumAttempts window maximumClients) where
  maximumAttempts := rfl
  window := rfl
  maximumClients := rfl
  counter := rfl
  bounded := Nat.zero_le _
  only := by
    intro other counter hfound
    cases hfound

theorem toNat_succ_of_lt {x y : UInt32} (h : x < y) : (x + 1).toNat = x.toNat + 1 := by
  have hx := UInt32.lt_iff_toNat_lt.mp h
  have hy := y.toNat_lt
  rw [UInt32.toNat_add]
  exact Nat.mod_eq_of_lt (by change x.toNat + 1 < 2 ^ 32; omega)

theorem attempt_attempts (maximumAttempts : UInt32) (counter : Option Counter) (now : ℕ)
    (h : (counter.getD ⟨now, 0⟩).attempts ≤ maximumAttempts) :
    (attempt maximumAttempts counter now).1.attempts.toNat =
        (counter.getD ⟨now, 0⟩).attempts.toNat +
          (if (attempt maximumAttempts counter now).2 = true then 1 else 0) ∧
      (attempt maximumAttempts counter now).1.attempts ≤ maximumAttempts := by
  by_cases hspent : maximumAttempts ≤ (counter.getD ⟨now, 0⟩).attempts
  · have hattempt : attempt maximumAttempts counter now = (counter.getD ⟨now, 0⟩, false) :=
      if_pos hspent
    rw [hattempt]
    exact ⟨rfl, h⟩
  · have hattempt : attempt maximumAttempts counter now =
        ({ counter.getD ⟨now, 0⟩ with attempts := (counter.getD ⟨now, 0⟩).attempts + 1 }, true) :=
      if_neg hspent
    have hlt := UInt32.not_le.mp hspent
    rw [hattempt]
    refine ⟨toNat_succ_of_lt hlt, ?_⟩
    rw [UInt32.le_iff_toNat_le, toNat_succ_of_lt hlt]
    exact UInt32.lt_iff_toNat_lt.mp hlt

theorem allowedCalls_cons (address : IpAddr) (limiter : HandshakeLimiter) (call : Call)
    (calls : List Call) :
    (limiter.allowedCalls address (call :: calls)).length =
      (if call.address = address ∧ (limiter.step call).2 = true then 1 else 0) +
        ((limiter.step call).1.allowedCalls address calls).length := by
  rw [allowedCalls, Machine.collect_cons, List.length_append]
  congr 1
  split <;> rfl

theorem counter_of_counts {address : IpAddr} {limiter : HandshakeLimiter} {call : Call}
    (hcounts : limiter.counts address call = true)
    (hattempts : ((limiter.counterAt address call.now).getD ⟨call.now, 0⟩).attempts ≤
      limiter.maximumAttempts) :
    ∃ counter, (limiter.step call).1.clients.lookup address = some counter ∧
      counter.started = (limiter.counterAt address call.now).elim call.now Counter.started ∧
      counter.attempts ≤ limiter.maximumAttempts ∧
      counter.attempts.toNat =
        ((limiter.counterAt address call.now).getD ⟨call.now, 0⟩).attempts.toNat +
          (if call.address = address ∧ (limiter.step call).2 = true then 1 else 0) := by
  obtain ⟨haddress, hroom⟩ := counts_iff.mp hcounts
  obtain ⟨hcount, hbound⟩ := attempt_attempts limiter.maximumAttempts _ call.now hattempts
  refine ⟨_, haddress ▸ lookup_step_self hroom, attempt_started _ _ _, hbound, ?_⟩
  rw [answer_eq hroom, haddress, hcount]
  simp

theorem counter_of_live {address : IpAddr} {limiter : HandshakeLimiter} {counter : Counter}
    {call : Call} (hlive : limiter.counterAt address call.now = some counter)
    (hattempts : counter.attempts ≤ limiter.maximumAttempts) :
    ∃ next, (limiter.step call).1.clients.lookup address = some next ∧
      next.started = counter.started ∧ next.attempts ≤ limiter.maximumAttempts ∧
      next.attempts.toNat = counter.attempts.toNat +
        (if call.address = address ∧ (limiter.step call).2 = true then 1 else 0) := by
  cases hcounts : limiter.counts address call with
  | false =>
    have hsame := counterAt_step limiter (not_counts_iff.mp hcounts) (Nat.le_refl call.now)
    rw [hlive] at hsame
    have hrefused : ¬ (call.address = address ∧ (limiter.step call).2 = true) := by
      intro hallowed
      rw [allowed_counts hallowed.1 hallowed.2] at hcounts
      cases hcounts
    exact ⟨counter, (Expiry.current_eq_some.mp hsame).1, rfl, hattempts,
      by rw [if_neg hrefused]; rfl⟩
  | true =>
    obtain ⟨next, hnext, hstarted, hbound, hcount⟩ := counter_of_counts hcounts
      (by rw [hlive]; exact hattempts)
    rw [hlive] at hstarted hcount
    exact ⟨next, hnext, hstarted, hbound, hcount⟩

theorem allowed_of_live {address : IpAddr} {limiter : HandshakeLimiter} {counter : Counter}
    {calls : List Call} (hcounter : limiter.clients.lookup address = some counter)
    (hattempts : counter.attempts ≤ limiter.maximumAttempts)
    (hwithin : ∀ call ∈ calls,
      counter.started ≤ call.now ∧ call.now < counter.started + limiter.window) :
    (limiter.allowedCalls address calls).length + counter.attempts.toNat ≤
      limiter.maximumAttempts.toNat := by
  induction calls generalizing limiter counter with
  | nil =>
    rw [allowedCalls, Machine.collect_nil, List.length_nil, Nat.zero_add]
    exact UInt32.le_iff_toNat_le.mp hattempts
  | cons call calls ih =>
    obtain ⟨hstarted, hnow⟩ := hwithin call List.mem_cons_self
    have hlive : limiter.counterAt address call.now = some counter :=
      Expiry.current_eq_some.mpr ⟨hcounter, by rw [Expiry.live_iff]; omega⟩
    obtain ⟨next, hnext, hsame, hbound, hcount⟩ := counter_of_live hlive hattempts
    have htail := ih hnext (by rwa [step_maximumAttempts])
      (by
        intro d hd
        rw [hsame, step_window]
        exact hwithin d (List.mem_cons_of_mem _ hd))
    rw [step_maximumAttempts] at htail
    rw [allowedCalls_cons]
    omega

theorem CounterWindow.allowed_le {address : IpAddr} {limiter : HandshakeLimiter}
    {pre mid : List Call} {opening : Call} (h : CounterWindow address limiter pre opening mid)
    (hordered : Ordered (opening :: mid)) :
    ((Machine.run step limiter pre).allowedCalls address (opening :: mid)).length ≤
      limiter.maximumAttempts.toNat := by
  have hopened := h.opened
  rw [opens, Bool.and_eq_true, Option.isNone_iff_eq_none] at hopened
  obtain ⟨hcounts, hnone⟩ := hopened
  obtain ⟨counter, hfound, hstarted, hbound, hcount⟩ := counter_of_counts hcounts
    (by rw [hnone]; exact UInt32.le_iff_toNat_le.mpr (Nat.zero_le _))
  rw [hnone] at hstarted hcount
  have htail := allowed_of_live hfound (by rwa [step_maximumAttempts])
    (by
      intro d hd
      rw [hstarted, step_window, run_window]
      exact ⟨(List.pairwise_cons.mp hordered).1 d hd, h.within d hd⟩)
  rw [step_maximumAttempts, run_maximumAttempts] at htail
  rw [allowedCalls_cons]
  have hzero : ((none : Option Counter).getD ⟨opening.now, 0⟩).attempts.toNat = 0 := rfl
  omega

theorem counter_origin {address : IpAddr} {limiter : HandshakeLimiter} {calls : List Call}
    (hempty : limiter.clients.lookup address = none) {counter : Counter}
    (hfound : (Machine.run step limiter calls).clients.lookup address = some counter) :
    ∃ pre opening mid, calls = pre ++ opening :: mid ∧
      opens address (Machine.run step limiter pre) opening = true ∧
      opening.now = counter.started := by
  apply Machine.run_origin step
    (fun l started => ∃ c, l.clients.lookup address = some c ∧ c.started = started)
    (fun l call started => l.opens address call = true ∧ call.now = started)
  · rintro started ⟨c, hc, -⟩
    rw [hempty] at hc
    cases hc
  · rintro l call started ⟨c, hc, rfl⟩
    rcases lookup_step hc with hold | ⟨haddress, hroom, rfl⟩
    · exact Or.inl ⟨c, hold, rfl⟩
    · rw [attempt_started]
      cases hlive : l.counterAt call.address call.now with
      | some old =>
        left
        rw [haddress]
        exact ⟨old, (Expiry.current_eq_some.mp hlive).1, rfl⟩
      | none =>
        right
        refine ⟨?_, rfl⟩
        rw [opens, counts_iff.mpr ⟨haddress.symm, hroom⟩, haddress, hlive]
        rfl
  · exact ⟨counter, hfound, rfl⟩

theorem window_of_counts {address : IpAddr} {limiter : HandshakeLimiter} {calls : List Call}
    {call : Call} (hempty : limiter.clients.lookup address = none)
    (hordered : Ordered (calls ++ [call]))
    (hcounts : (Machine.run step limiter calls).counts address call = true) :
    ∃ pre opening mid, calls ++ [call] = pre ++ opening :: mid ∧
      CounterWindow address limiter pre opening mid := by
  cases hlive : (Machine.run step limiter calls).counterAt address call.now with
  | none =>
    refine ⟨calls, call, [], rfl, ⟨?_, List.forall_mem_nil _⟩⟩
    rw [opens, hcounts, hlive]
    rfl
  | some counter =>
    obtain ⟨hfound, halive⟩ := Expiry.current_eq_some.mp hlive
    obtain ⟨pre, opening, mid, rfl, hopens, hstarted⟩ := counter_origin hempty hfound
    refine ⟨pre, opening, mid ++ [call], by simp, ⟨hopens, ?_⟩⟩
    rw [Expiry.live_iff, run_window] at halive
    have hlast : ∀ d ∈ mid ++ [call], d.now ≤ call.now := by
      intro d hd
      rcases List.mem_append.mp hd with hmid | hcall
      · exact (List.pairwise_append.mp hordered).2.2 d (by simp [hmid]) call (by simp)
      · rw [List.mem_singleton.mp hcall]
    intro d hd
    have hle := hlast d hd
    omega

/-- In every run with a monotonic clock, the answers that a source gets depend on its own calls
alone, each of its counter windows allows at most `maximumAttempts` of them, every one of them
is made in such a window, and the table keeps within its size. -/
theorem limiter_isolates (maximumAttempts : UInt32) (window maximumClients : ℕ)
    (calls : List Call) (ordered : Ordered calls) (address : IpAddr) :
    let limiter := start maximumAttempts window maximumClients
    limiter.decisions address calls =
        Machine.outputs step limiter (limiter.countedCalls address calls) ∧
      (∀ pre opening mid post, calls = pre ++ opening :: mid ++ post →
        CounterWindow address limiter pre opening mid →
        ((Machine.run step limiter pre).allowedCalls address (opening :: mid)).length ≤
          maximumAttempts.toNat) ∧
      (∀ pre call post, calls = pre ++ call :: post →
        (Machine.run step limiter pre).counts address call = true →
        ∃ before opening mid, pre ++ [call] = before ++ opening :: mid ∧
          CounterWindow address limiter before opening mid) ∧
      (∀ pre post, calls = pre ++ post →
        (Machine.run step limiter pre).clients.keys.length ≤ maximumClients) := by
  intro limiter
  refine ⟨?_, ?_, ?_, ?_⟩
  · exact (agree_start address _ _ _).decisions_eq ordered (fun _ _ => Nat.zero_le _)
  · rintro pre opening mid post rfl hwindow
    apply hwindow.allowed_le
    exact ordered.sublist (by simp)
  · rintro pre call post rfl hcounts
    apply window_of_counts rfl _ hcounts
    exact ordered.sublist (by simp)
  · intro pre post _
    exact run_length (Nat.zero_le _) pre

/-- Two sources and one attempt a minute for each. -/
theorem limiter_isolates_two_sources :
    let first := IpAddr.v4 ⟨192, 0, 2, 1⟩
    let second := IpAddr.v4 ⟨192, 0, 2, 2⟩
    let calls := [⟨first, 0⟩, ⟨second, 30⟩, ⟨first, 40⟩, ⟨second, 60⟩, ⟨first, 61⟩]
    (start 1 60 2).decisions first calls = [true, false, true] ∧
      (start 1 60 2).decisions first calls =
        Machine.outputs step (start 1 60 2) ((start 1 60 2).countedCalls first calls) := by
  intro first second calls
  exact ⟨by decide +kernel, (limiter_isolates 1 60 2 calls (by decide) first).1⟩

end MouseVpn.Server.HandshakeLimiter
