import MouseVpn.Client.Liveness

/-!
# The discipline of reconnect attempts

Between two answers of the peer the retry instant is forgotten at most once, at the first
report that the connection is lost. Every other attempt waits for the backoff that the
attempt before it has set.
-/

namespace MouseVpn.Client

open MouseVpn.Lib

namespace LivenessPolicy

variable {p : LivenessPolicy}

def lostSince (events : List Event) : Bool :=
  events.foldl (fun lost event =>
    if event.answer then false else lost || event.call = .connectionLost) false

def lastAnswer (start : ℕ) (events : List Event) : ℕ :=
  events.foldl (fun last event => if event.answer then event.now else last) start

def hastyAttempts (p : LivenessPolicy) : Liveness → (due : Option ℕ) → List Event → ℕ
  | _, _, [] => 0
  | liveness, due, event :: events =>
    let next := (p.step liveness event).1
    if event.attempt then
      (if due.any fun instant => decide (event.now < instant) then 1 else 0) +
        hastyAttempts p next (some (event.now + next.backoff)) events
    else hastyAttempts p next due events

def attempts (events : List Event) : ℕ :=
  events.countP fun event => event.call = .reconnectAttempted

theorem action_reconnect_iff {liveness : Liveness} {now : ℕ} :
    p.action liveness now = .reconnect ↔ p.sessionTimeout ≤ now - liveness.peerActivity ∧
      ∀ last, liveness.retry = some last → liveness.backoff ≤ now - last := by
  rw [action]
  cases liveness.retry with
  | none => split_ifs <;> simp_all
  | some last => split_ifs <;> simp_all

theorem reports_run (start : ℕ) (events : List Event) :
    (p.run (p.new start) events).lost = lostSince events ∧
      (lostSince events = false →
        (p.run (p.new start) events).peerActivity = lastAnswer start events) := by
  refine Machine.run_induction p.step (fun events liveness => liveness.lost = lostSince events ∧
    (lostSince events = false → liveness.peerActivity = lastAnswer start events))
    ⟨rfl, fun _ => rfl⟩ ?_ events
  intro events event h
  obtain ⟨hlost, hactivity⟩ := h
  have hsince : lostSince (events ++ [event]) = if event.answer then false
      else lostSince events || event.call = .connectionLost := List.foldl_concat ..
  have hlast : lastAnswer start (events ++ [event]) =
      if event.answer then event.now else lastAnswer start events := List.foldl_concat ..
  rw [hsince, hlast, ← hlost]
  rw [← hlost] at hactivity
  obtain ⟨now, call⟩ := event
  cases call with
  | packetReceived =>
    cases hp : p.packetResetsRetry <;> simp [step, packetReceived, Event.answer, hp]
  | connectionLost =>
    cases hl : (Machine.run p.step (p.new start) events).lost <;>
      simp [step, connectionLost, Event.answer, hl]
  | reconnected => simp [step, reconnected, new, Event.answer]
  | keepaliveSent => simpa [step, keepaliveSent, Event.answer] using hactivity
  | reconnectAttempted => simpa [step, reconnectAttempted, Event.answer] using hactivity
  | networkUnavailable => simpa [step, networkUnavailable, Event.answer] using hactivity

section Backoff

variable (hmin : p.minReconnectBackoff ≤ p.maxReconnectBackoff)
include hmin

theorem backoff_step {liveness : Liveness} (h : p.minReconnectBackoff ≤ liveness.backoff ∧
      liveness.backoff ≤ p.maxReconnectBackoff) (event : Event) :
    p.minReconnectBackoff ≤ (p.step liveness event).1.backoff ∧
      (p.step liveness event).1.backoff ≤ p.maxReconnectBackoff := by
  obtain ⟨now, call⟩ := event
  cases call with
  | keepaliveSent => exact h
  | packetReceived =>
    cases hp : p.packetResetsRetry with
    | true => simpa [step, packetReceived, hp] using hmin
    | false => simpa [step, packetReceived, hp] using h
  | reconnectAttempted =>
    simp only [step, reconnectAttempted]
    omega
  | networkUnavailable => exact ⟨Nat.le_refl _, hmin⟩
  | connectionLost => cases hl : liveness.lost <;> simpa [step, connectionLost, hl] using h
  | reconnected => exact ⟨Nat.le_refl _, hmin⟩

theorem backoff_run (start : ℕ) (events : List Event) :
    p.minReconnectBackoff ≤ (p.run (p.new start) events).backoff ∧
      (p.run (p.new start) events).backoff ≤ p.maxReconnectBackoff :=
  Machine.run_invariant p.step (fun liveness => p.minReconnectBackoff ≤ liveness.backoff ∧
    liveness.backoff ≤ p.maxReconnectBackoff) (fun _ event h => backoff_step hmin h event)
    ⟨Nat.le_refl _, hmin⟩ events

end Backoff

theorem backoff_doubles {liveness : Liveness} (h : liveness.backoff ≤ p.maxReconnectBackoff)
    {events : List Event}
    (hevents : ∀ event ∈ events, event.answer = false ∧ event.call ≠ .networkUnavailable) :
    (p.run liveness events).backoff =
      min (2 ^ attempts events * liveness.backoff) p.maxReconnectBackoff := by
  induction events generalizing liveness with
  | nil => simp [run, attempts, h]
  | cons event events ih =>
    obtain ⟨hevent, hrest⟩ := List.forall_mem_cons.mp hevents
    rw [run, Machine.run_cons, ← run]
    obtain ⟨now, call⟩ := event
    cases call with
    | keepaliveSent => exact ih h hrest
    | connectionLost =>
      have hb : (p.step liveness ⟨now, .connectionLost⟩).1.backoff = liveness.backoff := by
        cases hl : liveness.lost <;> simp [step, connectionLost, hl]
      rw [ih (hb ▸ h) hrest, hb]
      rfl
    | reconnectAttempted =>
      have hb : (p.step liveness ⟨now, .reconnectAttempted⟩).1.backoff =
          min (liveness.backoff * 2) p.maxReconnectBackoff := rfl
      have hcount : attempts (⟨now, .reconnectAttempted⟩ :: events) = attempts events + 1 :=
        List.countP_cons_of_pos rfl
      have hone : 1 ≤ 2 ^ attempts events := Nat.one_le_two_pow
      rw [ih (hb ▸ Nat.min_le_right _ _) hrest, hb, hcount, Nat.pow_succ, Nat.mul_assoc,
        Nat.mul_comm 2]
      rcases Nat.le_total (liveness.backoff * 2) p.maxReconnectBackoff with hle | hle
      · rw [Nat.min_eq_left hle]
      · -- The bound was reached before, and doubling it does not leave it.
        rw [Nat.min_eq_right hle, Nat.min_eq_right (Nat.le_mul_of_pos_left _ hone),
          Nat.min_eq_right (hle.trans (Nat.le_mul_of_pos_left _ hone))]
    | packetReceived => simp [Event.answer] at hevent
    | networkUnavailable => simp at hevent
    | reconnected => simp [Event.answer] at hevent

theorem waiting_run {liveness : Liveness} {last : ℕ} (h : liveness.retry = some last)
    {events : List Event}
    (hevents : ∀ event ∈ events, event.attempt = false ∧ event.answer = false) :
    ((p.run liveness events).retry = some last ∧
        (p.run liveness events).backoff = liveness.backoff) ∨
      (liveness.lost = false ∧ ∃ event ∈ events, event.call = .connectionLost) := by
  induction events generalizing liveness with
  | nil => exact Or.inl ⟨h, rfl⟩
  | cons event events ih =>
    obtain ⟨hevent, hrest⟩ := List.forall_mem_cons.mp hevents
    rw [run, Machine.run_cons, ← run]
    obtain ⟨now, call⟩ := event
    cases call with
    | keepaliveSent =>
      have hretry : (p.step liveness ⟨now, .keepaliveSent⟩).1.retry = some last := h
      rcases ih hretry hrest with hsame | ⟨hlost, event, hmem, hcall⟩
      · exact Or.inl hsame
      · exact Or.inr ⟨hlost, event, List.mem_cons_of_mem _ hmem, hcall⟩
    | connectionLost =>
      cases hlost : liveness.lost with
      | false => exact Or.inr ⟨rfl, _, List.mem_cons_self, rfl⟩
      | true =>
        have hstep : (p.step liveness ⟨now, .connectionLost⟩).1 = liveness := by
          simp [step, connectionLost, hlost]
        rw [hstep]
        rcases ih h hrest with hsame | ⟨hno, -⟩
        · exact Or.inl hsame
        · exact absurd hno (by simp [hlost])
    | packetReceived => simp [Event.answer] at hevent
    | reconnected => simp [Event.answer] at hevent
    | reconnectAttempted => simp [Event.attempt] at hevent
    | networkUnavailable => simp [Event.attempt] at hevent

theorem step_attempt {event : Event} (h : event.attempt = true) (liveness : Liveness) :
    (p.step liveness event).1.retry = some event.now ∧
      (p.step liveness event).1.lost = liveness.lost := by
  obtain ⟨now, call⟩ := event
  cases call with
  | reconnectAttempted => exact ⟨rfl, rfl⟩
  | networkUnavailable => exact ⟨rfl, rfl⟩
  | _ => simp [Event.attempt] at h

theorem attempt_gap {start : ℕ} {pre mid post : List Event} {first next : Event}
    (hmin : p.minReconnectBackoff ≤ p.maxReconnectBackoff) (hpos : 0 < p.minReconnectBackoff)
    (hdue : Machine.Obeys p.step p.Due (p.new start) (pre ++ first :: (mid ++ next :: post)))
    (hfirst : first.attempt = true) (hnext : next.attempt = true)
    (hmid : ∀ event ∈ mid, event.attempt = false ∧ event.answer = false) :
    first.now + (p.run (p.new start) (pre ++ [first])).backoff ≤ next.now ∨
      (lostSince pre = false ∧ ∃ event ∈ mid, event.call = .connectionLost) := by
  obtain ⟨-, -, hdue⟩ := (Machine.obeys_append p.step).mp hdue
  obtain ⟨-, hdue, -⟩ := (Machine.obeys_append p.step).mp hdue
  obtain ⟨hretry, hlost⟩ := step_attempt (p := p) hfirst (p.run (p.new start) pre)
  have hbackoff := (backoff_run hmin start (pre ++ [first])).1
  rw [run, Machine.run_concat, ← run] at hbackoff ⊢
  rcases waiting_run hretry hmid with ⟨hsame, hequal⟩ | hloss
  · have hwait : (p.run (p.step (p.run (p.new start) pre) first).1 mid).backoff ≤
        next.now - first.now := (action_reconnect_iff.mp (hdue hnext)).2 first.now hsame
    rw [hequal] at hwait
    exact Or.inl (by omega)
  · rw [hlost, (reports_run start pre).1] at hloss
    exact Or.inr hloss

/-- What the instant `due` of the next regular attempt has to do with the state. -/
def Pending (liveness : Liveness) (due : Option ℕ) : Prop :=
  ∀ instant, due = some instant →
    (∃ last, liveness.retry = some last ∧ instant = last + liveness.backoff) ∨
      (liveness.retry = none ∧ liveness.lost = true)

theorem pending_none (liveness : Liveness) : Pending liveness none := by
  intro instant h
  cases h

def haste (liveness : Liveness) : ℕ :=
  if liveness.lost = true ∧ liveness.retry.isSome = true then 0 else 1

theorem haste_le_one (liveness : Liveness) : haste liveness ≤ 1 := by
  rw [haste]
  split_ifs <;> omega

theorem haste_attempt {liveness : Liveness} {due : Option ℕ} {event : Event}
    (hpos : 0 < liveness.backoff) (hattempt : event.attempt = true) (hdue : p.Due liveness event)
    (hpending : Pending liveness due) :
    (if due.any fun instant => decide (event.now < instant) then 1 else 0) +
      haste (p.step liveness event).1 ≤ haste liveness := by
  obtain ⟨hretry, hlost⟩ := step_attempt (p := p) hattempt liveness
  have hwait := (action_reconnect_iff.mp (hdue hattempt)).2
  rw [haste, haste, hretry, hlost]
  cases due with
  | none =>
    cases liveness.lost with
    | true => simp
    | false => simp
  | some instant =>
    rcases hpending instant rfl with ⟨last, hlast, rfl⟩ | ⟨hnone, htrue⟩
    · have hlate : ¬ event.now < last + liveness.backoff := by
        have := hwait last hlast
        omega
      cases liveness.lost with
      | true => simp [hlate]
      | false => simp [hlate]
    · simp only [hnone, htrue]
      split_ifs <;> simp_all

theorem haste_other {liveness : Liveness} {due : Option ℕ} {event : Event}
    (hattempt : event.attempt = false) (hanswer : event.answer = false)
    (hpending : Pending liveness due) :
    Pending (p.step liveness event).1 due ∧ haste (p.step liveness event).1 ≤ haste liveness := by
  obtain ⟨now, call⟩ := event
  cases call with
  | keepaliveSent => exact ⟨hpending, Nat.le_refl _⟩
  | connectionLost =>
    cases hlost : liveness.lost with
    | true =>
      have hstep : (p.step liveness ⟨now, .connectionLost⟩).1 = liveness := by
        simp [step, connectionLost, hlost]
      rw [hstep]
      exact ⟨hpending, Nat.le_refl _⟩
    | false =>
      have hbefore : haste liveness = 1 := by simp [haste, hlost]
      refine ⟨?_, hbefore ▸ haste_le_one _⟩
      intro instant _
      exact Or.inr (by simp [step, connectionLost, hlost])
  | packetReceived => simp [Event.answer] at hanswer
  | reconnected => simp [Event.answer] at hanswer
  | reconnectAttempted => simp [Event.attempt] at hattempt
  | networkUnavailable => simp [Event.attempt] at hattempt

theorem hastyAttempts_le {liveness : Liveness} {due : Option ℕ} {events : List Event}
    (hmin : p.minReconnectBackoff ≤ p.maxReconnectBackoff) (hpos : 0 < p.minReconnectBackoff)
    (hbackoff : p.minReconnectBackoff ≤ liveness.backoff ∧
      liveness.backoff ≤ p.maxReconnectBackoff)
    (hdue : Machine.Obeys p.step p.Due liveness events)
    (hanswer : ∀ event ∈ events, event.answer = false) (hpending : Pending liveness due) :
    hastyAttempts p liveness due events ≤ haste liveness := by
  induction events generalizing liveness due with
  | nil => exact Nat.zero_le _
  | cons event events ih =>
    obtain ⟨hevent, hrest⟩ := List.forall_mem_cons.mp hanswer
    have hnext := backoff_step hmin hbackoff event
    rw [hastyAttempts]
    cases hattempt : event.attempt with
    | true =>
      have hthis := haste_attempt (Nat.lt_of_lt_of_le hpos hbackoff.1) hattempt hdue.1 hpending
      have hpending' : Pending (p.step liveness event).1
          (some (event.now + (p.step liveness event).1.backoff)) := by
        intro instant hinstant
        exact Or.inl ⟨event.now, (step_attempt hattempt liveness).1,
          (Option.some.inj hinstant).symm⟩
      have hlater := ih hnext hdue.2 hrest hpending'
      simp only [if_true]
      omega
    | false =>
      obtain ⟨hpending', hthis⟩ := haste_other (p := p) hattempt hevent hpending
      simp only [Bool.false_eq_true, if_false]
      exact (ih hnext hdue.2 hrest hpending').trans hthis

theorem reconnect_backoff_discipline {second start : ℕ} {events : List Event}
    (hsecond : 0 < second)
    (hp : p = Linux.livenessPolicy second ∨ p = Windows.livenessPolicy second)
    (hdue : Machine.Obeys p.step p.Due (p.new start) events) :
    (∀ pre first mid next post, events = pre ++ first :: (mid ++ next :: post) →
      first.attempt = true → next.attempt = true →
      (∀ event ∈ mid, event.attempt = false ∧ event.answer = false) →
      first.now + (p.run (p.new start) (pre ++ [first])).backoff ≤ next.now ∨
        (lostSince pre = false ∧ ∃ event ∈ mid, event.call = .connectionLost)) ∧
    (∀ pre segment post, events = pre ++ segment ++ post →
      (∀ event ∈ segment, event.answer = false) →
      hastyAttempts p (p.run (p.new start) pre) none segment ≤ 1) ∧
    (lostSince events = true → ∀ now,
      (p.connectionLost (p.run (p.new start) events) now).1 = p.run (p.new start) events) ∧
    (second ≤ (p.run (p.new start) events).backoff ∧
      (p.run (p.new start) events).backoff ≤ 16 * second) ∧
    (∀ pre segment, events = pre ++ segment →
      (∀ event ∈ segment, event.answer = false ∧ event.call ≠ .networkUnavailable) →
      (p.run (p.new start) events).backoff =
        min (2 ^ attempts segment * (p.run (p.new start) pre).backoff) (16 * second)) ∧
    (∀ pre now, events = pre ++ [⟨now, .networkUnavailable⟩] →
      (p.run (p.new start) events).backoff = second) ∧
    (lostSince events = false → ∀ now,
      p.action (p.run (p.new start) events) now = .reconnect →
      p.sessionTimeout ≤ now - lastAnswer start events) := by
  have hlow : p.minReconnectBackoff = second := by
    rcases hp with rfl | rfl <;> exact Nat.one_mul second
  have hhigh : p.maxReconnectBackoff = 16 * second := by
    rcases hp with rfl | rfl <;> rfl
  have hmin : p.minReconnectBackoff ≤ p.maxReconnectBackoff := by omega
  have hpos : 0 < p.minReconnectBackoff := by omega
  obtain ⟨hlost, hactivity⟩ := reports_run (p := p) start events
  refine ⟨?_, ?_, ?_, ?_, ?_, ?_, ?_⟩
  · intro pre first mid next post hsplit hfirst hnext hmid
    exact attempt_gap hmin hpos (hsplit ▸ hdue) hfirst hnext hmid
  · intro pre segment post hsplit hanswer
    rw [hsplit, Machine.obeys_append, Machine.obeys_append] at hdue
    exact (hastyAttempts_le hmin hpos (backoff_run hmin start pre) hdue.1.2 hanswer
      (pending_none _)).trans (haste_le_one _)
  · intro hsince now
    rw [connectionLost, hlost, hsince]
    rfl
  · rw [← hhigh, ← hlow]
    exact backoff_run hmin start events
  · intro pre segment hsplit hsegment
    rw [hsplit, run, Machine.run_append, ← hhigh]
    exact backoff_doubles (backoff_run hmin start pre).2 hsegment
  · intro pre now hsplit
    rw [hsplit, run, Machine.run_concat]
    exact hlow
  · intro hsince now haction
    rw [← hactivity hsince]
    exact (action_reconnect_iff.mp haction).1

def lossDuringBackoff : List Event :=
  [⟨20, .reconnectAttempted⟩, ⟨21, .connectionLost⟩, ⟨21, .reconnectAttempted⟩,
    ⟨22, .connectionLost⟩, ⟨25, .reconnectAttempted⟩]

theorem lossDuringBackoff_disciplined :
    Machine.Obeys (Linux.livenessPolicy 1).step (Linux.livenessPolicy 1).Due
        ((Linux.livenessPolicy 1).new 0) lossDuringBackoff ∧
      hastyAttempts (Linux.livenessPolicy 1) ((Linux.livenessPolicy 1).new 0) none
        lossDuringBackoff = 1 ∧
      21 + ((Linux.livenessPolicy 1).run ((Linux.livenessPolicy 1).new 0)
        (lossDuringBackoff.take 3)).backoff ≤ 25 := by
  have hdue : Machine.Obeys (Linux.livenessPolicy 1).step (Linux.livenessPolicy 1).Due
      ((Linux.livenessPolicy 1).new 0) lossDuringBackoff :=
    ⟨fun _ => by decide, nofun, fun _ => by decide, nofun, fun _ => by decide, trivial⟩
  obtain ⟨hgap, hhasty, -⟩ := reconnect_backoff_discipline Nat.one_pos (Or.inl rfl) hdue
  have hone := hhasty [] lossDuringBackoff [] (by simp) (by decide)
  refine ⟨hdue, Nat.le_antisymm hone (by decide), ?_⟩
  rcases hgap (lossDuringBackoff.take 2) ⟨21, .reconnectAttempted⟩ [⟨22, .connectionLost⟩]
    ⟨25, .reconnectAttempted⟩ [] rfl rfl rfl (by decide) with hwait | ⟨hfirst, -⟩
  · exact hwait
  · exact absurd hfirst (by decide)

end LivenessPolicy

end MouseVpn.Client
