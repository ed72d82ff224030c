import MouseVpn.Lib.Machine

/-!
# Handing a key and a channel to a worker on two paths

A controller replaces a key that a worker shares with it, and puts the channel that belongs to the
new key into a queue. The worker takes channels from the queue, encodes under the key that it finds,
and sends on the channel that it has. The two paths are not synchronised: what matters is whether
the worker takes the channel of a key before it sends under the key. The controller has a channel
of its own, on which it sends under the shared key, and which it changes in a later step than the
key; for it the same question is asked.
-/

namespace MouseVpn.Lib.Handover

structure State where
  key : ℕ
  queue : List ℕ
  channel : ℕ
  encoded : Option ℕ
  /-- The channel of the controller. -/
  own : ℕ
  deriving DecidableEq, Repr

inductive Act
  | replace (key : ℕ)
  | enqueue (key : ℕ)
  | take
  | encode
  | send
  | drop
  | adopt (key : ℕ)
  /-- The controller sends on its channel. -/
  | announce
  /-- The controller sends on a channel that it has just made for the key. -/
  | probe
  | idle
  deriving DecidableEq, Repr

structure Message where
  key : ℕ
  channel : ℕ
  deriving DecidableEq, Repr

def State.take (st : State) : State :=
  match st.queue with
  | [] => st
  | channel :: queue =>
    { st with
      channel := channel
      queue := queue }

def step (st : State) : Act → State × Option Message
  | .replace key => ({ st with key := key }, none)
  | .enqueue key => ({ st with queue := st.queue ++ [key] }, none)
  | .take => (st.take, none)
  | .encode => ({ st with encoded := some st.key }, none)
  | .send => ({ st with encoded := none }, st.encoded.map fun key => ⟨key, st.channel⟩)
  | .drop => ({ st with encoded := none }, none)
  | .adopt key => ({ st with own := key }, none)
  | .announce => (st, some ⟨st.key, st.own⟩)
  | .probe => (st, some ⟨st.key, st.key⟩)
  | .idle => (st, none)

/-- A new key has a number of its own, a channel is queued or adopted for the key of its time, and
the worker takes channels only between two messages. -/
def Allowed (st : State) : Act → Prop
  | .replace key => st.key < key
  | .enqueue key => key = st.key
  | .take => st.encoded = none
  | .encode => True
  | .send => True
  | .drop => True
  | .adopt key => key = st.key
  | .announce => True
  | .probe => True
  | .idle => True

def Takes (st : State) (act : Act) (key : ℕ) : Prop := act = .take ∧ st.queue.head? = some key

/-- Whatever is sent under a key that replaced another one, the worker has taken the channel of
the key in between. -/
def TakenInTime (st : State) (acts : List Act) : Prop :=
  ∀ before between after key, acts = before ++ .replace key :: between ++ .send :: after →
    (Machine.run step st (before ++ .replace key :: between)).encoded = some key →
    ∃ first act second, between = first ++ act :: second ∧
      Takes (Machine.run step st (before ++ .replace key :: first)) act key

/-- The controller has adopted the channel of a key before it sends on its own channel. -/
def AdoptedInTime (acts : List Act) : Prop :=
  ∀ before between after key, acts = before ++ .replace key :: between ++ .announce :: after →
    (∀ other, .replace other ∉ between) → .adopt key ∈ between

def messages (st : State) (acts : List Act) : List Message :=
  (Machine.outputs step st acts).reduceOption

structure Ordered (st : State) : Prop where
  queue : st.queue.Pairwise (· ≤ ·)
  taken : ∀ channel ∈ st.queue, st.channel ≤ channel
  queued : ∀ channel ∈ st.queue, channel ≤ st.key
  channel : st.channel ≤ st.key
  encoded : ∀ key, st.encoded = some key → st.channel ≤ key ∧ key ≤ st.key
  own : st.own ≤ st.key

theorem Ordered.step {st : State} (h : Ordered st) {act : Act} (allowed : Allowed st act) :
    Ordered (step st act).1 := by
  cases act with
  | replace key =>
    have hkey : st.key < key := allowed
    refine ⟨h.queue, h.taken, ?_, ?_, ?_, Nat.le_trans h.own (Nat.le_of_lt hkey)⟩
    · exact fun channel hmem => Nat.le_trans (h.queued channel hmem) (Nat.le_of_lt hkey)
    · exact Nat.le_trans h.channel (Nat.le_of_lt hkey)
    · intro encoded hencoded
      obtain ⟨hchannel, hle⟩ := h.encoded encoded hencoded
      exact ⟨hchannel, Nat.le_trans hle (Nat.le_of_lt hkey)⟩
  | enqueue key =>
    obtain rfl : key = st.key := allowed
    refine ⟨?_, ?_, ?_, h.channel, h.encoded, h.own⟩
    · apply List.pairwise_append.mpr
      refine ⟨h.queue, List.pairwise_singleton _ _, ?_⟩
      intro channel hmem last hlast
      rw [List.mem_singleton.mp hlast]
      exact h.queued channel hmem
    · intro channel hmem
      rcases List.mem_append.mp hmem with hold | hnew
      · exact h.taken channel hold
      · rw [List.mem_singleton.mp hnew]
        exact h.channel
    · intro channel hmem
      rcases List.mem_append.mp hmem with hold | hnew
      · exact h.queued channel hold
      · rw [List.mem_singleton.mp hnew]
        exact Nat.le_refl _
  | take =>
    have hnone : st.encoded = none := allowed
    simp only [Handover.step, State.take]
    cases hqueue : st.queue with
    | nil => exact h
    | cons channel queue =>
      have hsorted := hqueue ▸ h.queue
      obtain ⟨hhead, htail⟩ := List.pairwise_cons.mp hsorted
      refine ⟨htail, hhead, ?_, ?_, ?_, h.own⟩
      · intro other hmem
        exact h.queued other (hqueue ▸ List.mem_cons_of_mem channel hmem)
      · exact h.queued channel (hqueue ▸ List.mem_cons_self)
      · intro key hkey
        rw [hnone] at hkey
        cases hkey
  | encode =>
    refine ⟨h.queue, h.taken, h.queued, h.channel, ?_, h.own⟩
    intro key hkey
    rw [← Option.some.inj hkey]
    exact ⟨h.channel, Nat.le_refl _⟩
  | send => exact ⟨h.queue, h.taken, h.queued, h.channel, nofun, h.own⟩
  | drop => exact ⟨h.queue, h.taken, h.queued, h.channel, nofun, h.own⟩
  | adopt key =>
    exact ⟨h.queue, h.taken, h.queued, h.channel, h.encoded, Nat.le_of_eq allowed⟩
  | announce => exact h
  | probe => exact h
  | idle => exact h

theorem Ordered.channel_le {st : State} (h : Ordered st) (act : Act) :
    st.channel ≤ (Handover.step st act).1.channel := by
  cases act with
  | take =>
    simp only [Handover.step, State.take]
    cases hqueue : st.queue with
    | nil => exact Nat.le_refl _
    | cons channel queue => exact h.taken channel (hqueue ▸ List.mem_cons_self)
  | _ => exact Nat.le_refl _

theorem Ordered.run {st : State} (h : Ordered st) {acts : List Act}
    (allowed : Machine.Obeys Handover.step Allowed st acts) :
    Ordered (Machine.run Handover.step st acts) :=
  Machine.run_invariant_of_obeys Handover.step Ordered (fun _ _ hst hact => hst.step hact) h allowed

theorem Ordered.run_channel_le {st : State} (h : Ordered st) {acts : List Act}
    (allowed : Machine.Obeys Handover.step Allowed st acts) :
    st.channel ≤ (Machine.run Handover.step st acts).channel := by
  induction acts generalizing st with
  | nil => exact Nat.le_refl _
  | cons act acts ih =>
    exact Nat.le_trans (h.channel_le act) (ih (h.step allowed.1) allowed.2)

theorem key_origin (st : State) (hst : st.encoded = none) (acts : List Act) :
    ((Machine.run step st acts).key = st.key ∨
      .replace (Machine.run step st acts).key ∈ acts) ∧
    ∀ key, (Machine.run step st acts).encoded = some key → key = st.key ∨ .replace key ∈ acts := by
  apply Machine.run_induction step (fun past current =>
    (current.key = st.key ∨ .replace current.key ∈ past) ∧
      ∀ key, current.encoded = some key → key = st.key ∨ .replace key ∈ past)
  · refine ⟨Or.inl rfl, ?_⟩
    intro key hkey
    rw [hst] at hkey
    cases hkey
  · intro past act hpast
    obtain ⟨current, hcurrent⟩ : ∃ current, Machine.run step st past = current := ⟨_, rfl⟩
    rw [hcurrent] at hpast ⊢
    obtain ⟨hkey, hencoded⟩ := hpast
    have hlater : ∀ key, (key = st.key ∨ .replace key ∈ past) →
        key = st.key ∨ .replace key ∈ past ++ [act] := by
      intro key h
      rcases h with h | h
      · exact Or.inl h
      · exact Or.inr (List.mem_append_left _ h)
    cases act with
    | replace key =>
      refine ⟨Or.inr (List.mem_append_right _ (List.mem_singleton.mpr rfl)), ?_⟩
      exact fun other hother => hlater other (hencoded other hother)
    | take =>
      simp only [step, State.take]
      cases current.queue with
      | nil => exact ⟨hlater _ hkey, fun other hother => hlater other (hencoded other hother)⟩
      | cons channel queue =>
        exact ⟨hlater _ hkey, fun other hother => hlater other (hencoded other hother)⟩
    | encode =>
      refine ⟨hlater _ hkey, ?_⟩
      intro other hother
      rw [← Option.some.inj hother]
      exact hlater _ hkey
    | send => exact ⟨hlater _ hkey, nofun⟩
    | drop => exact ⟨hlater _ hkey, nofun⟩
    | enqueue _ | adopt _ | announce | probe | idle =>
      exact ⟨hlater _ hkey, fun other hother => hlater other (hencoded other hother)⟩

theorem own_channel_split (st : State) (acts : List Act) :
    (∀ message ∈ messages st acts, message.channel = message.key) ↔
      (∀ before after, acts = before ++ .send :: after →
        ∀ key, (Machine.run step st before).encoded = some key →
          (Machine.run step st before).channel = key) ∧
      ∀ before after, acts = before ++ .announce :: after →
        (Machine.run step st before).own = (Machine.run step st before).key := by
  have hmem : ∀ message, message ∈ messages st acts ↔ ∃ before act after,
      acts = before ++ act :: after ∧
        (step (Machine.run step st before) act).2 = some message := by
    intro message
    rw [messages, List.reduceOption_mem_iff, Machine.outputs, Machine.mem_observe]
  constructor
  · intro hown
    refine ⟨?_, ?_⟩
    · intro before after hacts key hkey
      refine hown ⟨key, _⟩ ((hmem _).mpr ⟨before, .send, after, hacts, ?_⟩)
      simp only [step, hkey, Option.map_some]
    · intro before after hacts
      exact hown ⟨_, _⟩ ((hmem _).mpr ⟨before, .announce, after, hacts, rfl⟩)
  · rintro ⟨hsends, hannounces⟩ message hmessage
    obtain ⟨before, act, after, hacts, hout⟩ := (hmem message).mp hmessage
    cases act with
    | send =>
      obtain ⟨key, hkey, rfl⟩ := Option.map_eq_some_iff.mp hout
      exact hsends before after hacts key hkey
    | announce =>
      rw [← Option.some.inj hout]
      exact hannounces before after hacts
    | probe => rw [← Option.some.inj hout]
    | _ => cases hout

theorem channel_origin (st : State) (act : Act) (key : ℕ) (h : (step st act).1.channel = key) :
    st.channel = key ∨ Takes st act key := by
  cases act with
  | take =>
    simp only [step, State.take] at h
    cases hqueue : st.queue with
    | nil =>
      rw [hqueue] at h
      exact Or.inl h
    | cons channel queue =>
      rw [hqueue] at h
      refine Or.inr ⟨rfl, ?_⟩
      rw [hqueue, ← h]
      rfl
  | _ => exact Or.inl h

/-- A state in which nothing has been replaced yet. -/
structure Fresh (st : State) : Prop where
  queue : st.queue = []
  encoded : st.encoded = none
  channel : st.channel = st.key
  own : st.own = st.key

theorem Fresh.ordered {st : State} (h : Fresh st) : Ordered st := by
  refine ⟨?_, ?_, ?_, Nat.le_of_eq h.channel, ?_, Nat.le_of_eq h.own⟩
  · rw [h.queue]
    exact List.Pairwise.nil
  · rw [h.queue]
    exact List.forall_mem_nil _
  · rw [h.queue]
    exact List.forall_mem_nil _
  · rw [h.encoded]
    exact nofun

theorem exists_takes {st : State} {key : ℕ} (hordered : Ordered st)
    (hreplace : Allowed st (.replace key)) {between : List Act}
    (h : (Machine.run step (step st (.replace key)).1 between).channel = key) :
    ∃ first act second, between = first ++ act :: second ∧
      Takes (Machine.run step (step st (.replace key)).1 first) act key := by
  have hnew : (step st (.replace key)).1.channel ≠ key :=
    Nat.ne_of_lt (Nat.lt_of_le_of_lt hordered.channel hreplace)
  exact Machine.run_origin step (fun current (_ : Unit) => current.channel = key)
    (fun current act _ => Takes current act key) (fun _ => hnew)
    (fun current act _ => channel_origin current act key) (a := ()) h

theorem le_channel_of_takes {st : State} {key : ℕ} (hordered : Ordered st)
    {first second : List Act} {act : Act}
    (allowed : Machine.Obeys step Allowed st (first ++ act :: second))
    (htakes : Takes (Machine.run step st first) act key) :
    key ≤ (Machine.run step st (first ++ act :: second)).channel := by
  obtain ⟨hfirst, hact, hsecond⟩ := (Machine.obeys_append step).mp allowed
  obtain ⟨rfl, hhead⟩ := htakes
  obtain ⟨queue, hqueue⟩ := List.head?_eq_some_iff.mp hhead
  have hafter := ((hordered.run hfirst).step hact).run_channel_le hsecond
  rw [Machine.run_append, Machine.run_cons]
  refine Nat.le_trans ?_ hafter
  simp only [step, State.take, hqueue]
  exact Nat.le_refl _

theorem sends_own_iff {st : State} (hfresh : Fresh st) {acts : List Act}
    (allowed : Machine.Obeys step Allowed st acts) :
    (∀ before after, acts = before ++ .send :: after →
      ∀ key, (Machine.run step st before).encoded = some key →
        (Machine.run step st before).channel = key) ↔ TakenInTime st acts := by
  have hordered := hfresh.ordered
  constructor
  · intro hown before between after key hacts hkey
    have hmessage := hown _ after hacts key hkey
    rw [hacts, Machine.obeys_append, Machine.obeys_append] at allowed
    obtain ⟨⟨hbefore, hreplace, -⟩, -⟩ := allowed
    rw [Machine.run_append] at hmessage
    obtain ⟨first, act, second, hsplit, htakes⟩ :=
      exists_takes (hordered.run hbefore) hreplace hmessage
    refine ⟨first, act, second, hsplit, ?_⟩
    rw [Machine.run_append]
    exact htakes
  · intro htaken past after hacts key hkey
    have hpast : Machine.Obeys step Allowed st past :=
      (Machine.obeys_append step |>.mp (hacts ▸ allowed)).1
    apply Nat.le_antisymm ((hordered.run hpast).encoded _ hkey).1
    rcases (key_origin st hfresh.encoded past).2 _ hkey with hfirst | hreplaced
    · rw [hfirst, ← hfresh.channel]
      exact hordered.run_channel_le hpast
    · obtain ⟨before, between, rfl⟩ := List.append_of_mem hreplaced
      obtain ⟨first, act, second, rfl, htakes⟩ := htaken before between after key hacts hkey
      have hsplit : before ++ .replace key :: (first ++ act :: second) =
          (before ++ .replace key :: first) ++ act :: second := by simp
      rw [hsplit] at hpast ⊢
      exact le_channel_of_takes hordered hpast htakes

/-- While the key stays, the controller's channel becomes the key's by being adopted, and in no
other way. -/
theorem run_own_iff {st : State} {acts : List Act}
    (allowed : Machine.Obeys step Allowed st acts) (hkey : ∀ key, .replace key ∉ acts) :
    (Machine.run step st acts).key = st.key ∧
      ((Machine.run step st acts).own = st.key ↔ st.own = st.key ∨ .adopt st.key ∈ acts) := by
  induction acts generalizing st with
  | nil => exact ⟨rfl, by simp⟩
  | cons act acts ih =>
    obtain ⟨hact, hacts⟩ := allowed
    obtain ⟨hrun, hown⟩ := ih hacts fun key hmem => hkey key (List.mem_cons_of_mem _ hmem)
    rw [Machine.run_cons]
    cases act with
    | replace key => exact absurd List.mem_cons_self (hkey key)
    | adopt key =>
      obtain rfl : key = st.key := hact
      exact ⟨hrun, hown.trans ⟨fun _ => Or.inr List.mem_cons_self, fun _ => Or.inl rfl⟩⟩
    | take =>
      have htake : st.take.key = st.key ∧ st.take.own = st.own := by
        unfold State.take
        split <;> exact ⟨rfl, rfl⟩
      simp only [step, htake.1, htake.2] at hrun hown
      exact ⟨hrun, by simp [step, hown]⟩
    | _ => exact ⟨hrun, by simpa [step] using hown⟩

theorem last_replace (acts : List Act) : (∀ key, .replace key ∉ acts) ∨
    ∃ before key between, acts = before ++ .replace key :: between ∧
      ∀ other, .replace other ∉ between := by
  induction acts using List.reverseRecOn with
  | nil => exact Or.inl fun _ => List.not_mem_nil
  | append_singleton acts act ih =>
    by_cases hact : ∃ key, act = .replace key
    · obtain ⟨key, rfl⟩ := hact
      exact Or.inr ⟨acts, key, [], rfl, fun _ => List.not_mem_nil⟩
    · have hnew : ∀ key, .replace key ∉ [act] :=
        fun key hmem => hact ⟨key, (List.mem_singleton.mp hmem).symm⟩
      rcases ih with hnone | ⟨before, key, between, rfl, hbetween⟩
      · exact Or.inl fun key hmem => (List.mem_append.mp hmem).elim (hnone key) (hnew key)
      · refine Or.inr ⟨before, key, between ++ [act], by simp, ?_⟩
        exact fun other hmem => (List.mem_append.mp hmem).elim (hbetween other) (hnew other)

theorem announces_own_iff {st : State} (hfresh : Fresh st) {acts : List Act}
    (allowed : Machine.Obeys step Allowed st acts) :
    (∀ before after, acts = before ++ .announce :: after →
      (Machine.run step st before).own = (Machine.run step st before).key) ↔
      AdoptedInTime acts := by
  have hlast : ∀ before between after key,
      acts = before ++ .replace key :: between ++ .announce :: after →
      (∀ other, .replace other ∉ between) →
      ((Machine.run step st (before ++ .replace key :: between)).own =
        (Machine.run step st (before ++ .replace key :: between)).key ↔
          .adopt key ∈ between) := by
    intro before between after key hacts hbetween
    rw [hacts, Machine.obeys_append, Machine.obeys_append] at allowed
    obtain ⟨⟨hbefore, hreplace, hobeys⟩, -⟩ := allowed
    obtain ⟨hrun, hadopted⟩ := run_own_iff hobeys hbetween
    have hold : (step (Machine.run step st before) (.replace key)).1.own ≠ key :=
      Nat.ne_of_lt (Nat.lt_of_le_of_lt (hfresh.ordered.run hbefore).own hreplace)
    rw [Machine.run_append, Machine.run_cons, hrun, hadopted]
    exact or_iff_right hold
  constructor
  · intro hannounces before between after key hacts hbetween
    exact (hlast before between after key hacts hbetween).mp (hannounces _ after hacts)
  · intro hadopted past after hacts
    rcases last_replace past with hnone | ⟨before, key, between, rfl, hbetween⟩
    · have hpast := (Machine.obeys_append step |>.mp (hacts ▸ allowed)).1
      obtain ⟨hrun, hsame⟩ := run_own_iff hpast hnone
      rw [hrun, hsame]
      exact Or.inl hfresh.own
    · exact (hlast before between after key hacts hbetween).mpr
        (hadopted before between after key hacts hbetween)

theorem own_channel_iff {st : State} (h : Fresh st) {acts : List Act}
    (allowed : Machine.Obeys step Allowed st acts) :
    (∀ message ∈ messages st acts, message.channel = message.key) ↔
      TakenInTime st acts ∧ AdoptedInTime acts := by
  rw [own_channel_split, sends_own_iff h allowed, announces_own_iff h allowed]

section Refinement

variable {σ ι δ : Type*} {machine : σ → ι → σ × Option δ} {view : σ → State}
  {act : σ → ι → Act} {message : δ → Message}
  (h : Machine.Refines machine step view act (Option.map message)) (Inv : σ → Prop)
  (next : ∀ s i, Inv s → Inv (machine s i).1)
  (allowed : ∀ s i, Inv s → Allowed (view s) (act s i))
include h next allowed

theorem own_channel_iff_of_refines {s : σ} (hs : Inv s) (hfresh : Fresh (view s))
    (events : List ι) :
    (∀ d ∈ (Machine.outputs machine s events).reduceOption,
      (message d).channel = (message d).key) ↔
      TakenInTime (view s) (Machine.observe machine act s events) ∧
        AdoptedInTime (Machine.observe machine act s events) := by
  rw [← own_channel_iff hfresh (h.obeys Inv next allowed hs events), messages,
    ← h.outputs, List.reduceOption_map, List.forall_mem_map]

/-- A machine whose controller sends only when its channel is that of the key. -/
theorem adoptedInTime_of_refines
    (announced : ∀ s i, Inv s → act s i = .announce → (view s).own = (view s).key)
    {s : σ} (hs : Inv s) (hfresh : Fresh (view s)) (events : List ι) :
    AdoptedInTime (Machine.observe machine act s events) := by
  apply (announces_own_iff hfresh (h.obeys Inv next allowed hs events)).mp
  intro before after hacts
  have hobeys := h.obeys (P := fun st act => act = .announce → st.own = st.key) Inv next announced
    hs events
  rw [hacts, Machine.obeys_append] at hobeys
  exact hobeys.2.1 rfl

end Refinement

end MouseVpn.Lib.Handover
