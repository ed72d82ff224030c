import MouseVpn.Server.Outcomes

/-!
# What one event can do

`StepOutcome` collects the outcomes of the handlers. From it follow what an event
does to a session that exists, which sessions it creates, and what it leaves alone.
-/

namespace MouseVpn.Server

open MouseVpn.Lib MouseVpn.Crypto MouseVpn.Protocol MouseVpn.DataPlane

def Event.transport : Event → Option (SocketAddr × Datagram × WireMode)
  | .keepalive _ peer datagram wire => some (peer, datagram, wire)
  | .clientData _ peer datagram wire => some (peer, datagram, wire)
  | _ => none

structure Reaches (st : ServerState) (datagram : Datagram) (wire : WireMode) (p : ℕ)
    (s : RuntimeSession) : Prop where
  found : st.sessions.byId.lookup datagram.header.sessionId = some p
  session : st.heap[p]? = some s
  active : st.registry.isActive s.authorization = true
  matched : s.wire.matches wire = true

/-- The datagram may move the session: it reaches it, is authentic and fresh, and
carries a keepalive or a packet from the client's address. -/
structure Moves (st : ServerState) (datagram : Datagram) (wire : WireMode) (p : ℕ)
    (s : RuntimeSession) : Prop where
  reaches : Reaches st datagram wire p s
  inner : ∃ inner, Carries s datagram inner ∧ Acceptable s inner

/-- What one event does to a session that exists: its receiver decodes exactly the
datagrams that reach it, and only those of them that may move it do. -/
structure SessionStep (st : ServerState) (e : Event) (p : ℕ) (s s' : RuntimeSession) : Prop where
  same : SameSession s s'
  reached : ∀ peer datagram wire, e.transport = some (peer, datagram, wire) →
    Reaches st datagram wire p s → ∃ buffer, s'.inbound = (s.inbound.decodeInto datagram buffer).1
  unreached : (∀ peer datagram wire, e.transport = some (peer, datagram, wire) →
    ¬ Reaches st datagram wire p s) → s'.inbound = s.inbound
  peer : s'.peer = s.peer ∨ ∃ datagram wire,
    e.transport = some (s'.peer, datagram, wire) ∧ Moves st datagram wire p s

theorem SessionStep.stay {st : ServerState} {e : Event} {p : ℕ} {s s' : RuntimeSession}
    (hn : ∀ peer datagram wire, e.transport = some (peer, datagram, wire) →
      ¬ Reaches st datagram wire p s)
    (h : SameSession s s') (hi : s'.inbound = s.inbound) (hp : s'.peer = s.peer) :
    SessionStep st e p s s' :=
  ⟨h, fun peer datagram wire he hr => absurd hr (hn peer datagram wire he), fun _ => hi,
    Or.inl hp⟩

inductive Creates (lib : Libraries) (config : ValidatedServerConfig) (st : ServerState) :
    Event → ℕ → RuntimeSession → Prop
  | intro {env : Env} {peer : SocketAddr} {datagram : Datagram} {wire : WireMode}
      {handshake : ServerHandshake lib} {key : PublicKey} {client : DeviceLease}
      {crypto : SecureSession} {response : Bytes}
      (ha : Authorized lib config datagram wire st handshake key client)
      (hf : handshake.finish env.entropy (sessionParameters config wire client).encode =
        .ok (crypto, response)) :
      Creates lib config st (.handshake env peer datagram wire) st.heap.length
        (newSession lib config peer datagram wire client crypto)

section Step

variable {lib : Libraries} {config : ValidatedServerConfig} {st : ServerState}

theorem DatagramOutcome.session {env : Env} {peer : SocketAddr} {datagram : Datagram}
    {wire : WireMode} {p : ℕ} {r : ServerState × List Effect} {e : Event}
    (h : DatagramOutcome env peer datagram wire p st r)
    (hfound : st.sessions.byId.lookup datagram.header.sessionId = some p)
    (hactive : st.isActive p = true) (he : e.transport = some (peer, datagram, wire))
    {q : ℕ} {t : RuntimeSession} (ht : st.heap[q]? = some t) :
    ∃ t', r.1.heap[q]? = some t' ∧ SessionStep st e q t t' := by
  obtain ⟨t', ht', hsame, htouched⟩ := h.touched ht
  refine ⟨t', ht', ?_⟩
  cases htouched with
  | untouched heq hn =>
    subst heq
    refine .stay (fun peer' datagram' wire' he' hr => ?_) hsame rfl rfl
    rw [he] at he'
    cases he'
    have hm := hn (Option.some.inj (hr.found.symm.trans hfound))
    exact absurd hr.matched (by simp [hm])
  | decoded hq hm hi hp =>
    subst hq
    have hreach : Reaches st datagram wire q t :=
      ⟨hfound, ht, by simpa [ServerState.isActive, ht] using hactive, hm⟩
    refine ⟨hsame, fun peer' datagram' wire' he' _ => ?_,
      fun hn => absurd hreach (hn peer datagram wire he), hp.imp_right fun h => ?_⟩
    · rw [he] at he'
      cases he'
      exact ⟨env.plaintext, hi⟩
    · obtain ⟨hp, hinner⟩ := h
      exact ⟨datagram, wire, by rw [hp, he], hreach, hinner⟩

inductive StepOutcome (lib : Libraries) (config : ValidatedServerConfig) (st : ServerState) :
    Event → ServerState × List Effect → Prop
  | handshake {env : Env} {peer : SocketAddr} {datagram : Datagram} {wire : WireMode}
      {r : ServerState × List Effect}
      (ho : HandshakeOutcome lib config env peer datagram wire st r) :
      StepOutcome lib config st (.handshake env peer datagram wire) r
  | skipped {e : Event} {peer : SocketAddr} {datagram : Datagram} {wire : WireMode}
      (he : e.transport = some (peer, datagram, wire))
      (hn : ∀ p s, ¬ Reaches st datagram wire p s) : StepOutcome lib config st e (st, [])
  | handled {e : Event} {env : Env} {peer : SocketAddr} {datagram : Datagram} {wire : WireMode}
      {p : ℕ} {r : ServerState × List Effect} (he : e.transport = some (peer, datagram, wire))
      (hf : st.sessions.byId.lookup datagram.header.sessionId = some p)
      (ha : st.isActive p = true) (ho : DatagramOutcome env peer datagram wire p st r) :
      StepOutcome lib config st e r
  | tun {inputs : List TunPacket} {sent : ℕ} {r : ServerState × List Effect}
      (ho : OutboundOnly st r.1) (hw : ∀ packet, .tunWrite packet ∉ r.2) :
      StepOutcome lib config st (.tun inputs sent) r
  | called {e : Event} {registry : DeviceRegistry} (he : e.transport = none)
      (hh : ∀ env peer datagram wire, e ≠ .handshake env peer datagram wire) :
      StepOutcome lib config st e ({ st with registry }, [])

theorem unfound_not_reaches {datagram : Datagram} (wire : WireMode)
    (hf : st.sessions.byId.lookup datagram.header.sessionId = none) (p : ℕ) (s : RuntimeSession) :
    ¬ Reaches st datagram wire p s := by
  intro hr
  exact absurd hr.found (by simp [hf])

theorem inactive_not_reaches {datagram : Datagram} (wire : WireMode) {q : ℕ}
    (hf : st.sessions.byId.lookup datagram.header.sessionId = some q)
    (ha : st.isActive q = false) (p : ℕ) (s : RuntimeSession) :
    ¬ Reaches st datagram wire p s := by
  intro hr
  obtain rfl : p = q := Option.some.inj (hr.found.symm.trans hf)
  simp [ServerState.isActive, hr.session, hr.active] at ha

theorem handleTunBatch_no_tunWrite (inputs : List TunPacket) (sent : ℕ) (packet : Bytes) :
    .tunWrite packet ∉ (handleTunBatch lib inputs sent st).2 := by
  unfold handleTunBatch
  generalize encodeTunBatch lib inputs st = r
  simp only [List.mem_append, List.mem_map]
  rintro (⟨_, _, h⟩ | ⟨_, _, h⟩) <;> cases h

theorem step_outcome (lib : Libraries) (config : ValidatedServerConfig) (st : ServerState)
    (e : Event) : StepOutcome lib config st e (step lib config st e) := by
  cases e with
  | handshake env peer datagram wire =>
    exact .handshake (handleHandshake_outcome lib config env peer datagram wire st)
  | keepalive env peer datagram wire =>
    simp only [step, handleKeepalive]
    cases hf : st.sessions.byId.lookup datagram.header.sessionId with
    | none => exact .skipped rfl (unfound_not_reaches wire hf)
    | some q =>
      cases ha : st.isActive q with
      | false => simpa [ha] using .skipped rfl (inactive_not_reaches wire hf ha)
      | true => simpa [ha] using .handled rfl hf ha (answerKeepalive_outcome lib env peer wire q st)
  | clientData env peer datagram wire =>
    simp only [step, handleClientData]
    cases hf : st.sessions.byId.lookup datagram.header.sessionId with
    | none => exact .skipped rfl (unfound_not_reaches wire hf)
    | some q =>
      cases ha : st.isActive q with
      | false => simpa [ha] using .skipped rfl (inactive_not_reaches wire hf ha)
      | true => simpa [ha] using .handled rfl hf ha (deliverClientData_outcome env peer wire q st)
  | tun inputs sent =>
    exact .tun (handleTunBatch_outboundOnly lib inputs sent st)
      (handleTunBatch_no_tunWrite inputs sent)
  | revoke publicKey persist => exact .called rfl (by simp)
  | provision name platform keys persist => exact .called rfl (by simp)

theorem step_session (lib : Libraries) (config : ValidatedServerConfig) (e : Event) {p : ℕ}
    {s : RuntimeSession} (hs : st.heap[p]? = some s) :
    ∃ s', (step lib config st e).1.heap[p]? = some s' ∧ SessionStep st e p s s' := by
  have ho := step_outcome lib config st e
  generalize step lib config st e = r at ho ⊢
  cases ho with
  | handshake ho =>
    exact ⟨s, ho.heap hs, .stay (fun _ _ _ he => by cases he) (.refl s) rfl rfl⟩
  | skipped he hn =>
    refine ⟨s, hs, .stay (fun _ _ _ he' hr => ?_) (.refl s) rfl rfl⟩
    rw [he] at he'
    cases he'
    exact hn p s hr
  | handled he hf ha ho => exact ho.session hf ha he hs
  | tun ho =>
    obtain ⟨outbound, hs'⟩ := ho.session p s hs
    exact ⟨_, hs', .stay (fun _ _ _ he => by cases he) ⟨rfl, rfl, rfl, rfl, rfl⟩ rfl rfl⟩
  | called he => exact ⟨s, hs, .stay (fun _ _ _ he' => by simp [he] at he') (.refl s) rfl rfl⟩

theorem step_frame (lib : Libraries) (config : ValidatedServerConfig) {e : Event}
    (he : ∀ env peer datagram wire, e ≠ .handshake env peer datagram wire) :
    Frame st (step lib config st e).1 := by
  have ho := step_outcome lib config st e
  generalize step lib config st e = r at ho ⊢
  cases ho with
  | handshake => exact absurd rfl (he _ _ _ _)
  | skipped => exact ⟨rfl, rfl, rfl⟩
  | handled _ _ _ ho => exact ho.frame
  | tun ho => exact ⟨ho.sessions, ho.cache, ho.length⟩
  | called => exact ⟨rfl, rfl, rfl⟩

theorem step_created {e : Event} {p : ℕ} {s : RuntimeSession}
    (h : (step lib config st e).1.heap[p]? = some s) :
    (∃ t, st.heap[p]? = some t) ∨ Creates lib config st e p s := by
  have ho := step_outcome lib config st e
  generalize step lib config st e = r at ho h
  have hold : r.1.heap.length = st.heap.length → ∃ t, st.heap[p]? = some t := by
    intro hlen
    have hp := (List.getElem?_eq_some_iff.mp h).1
    exact ⟨_, List.getElem?_eq_getElem (hlen ▸ hp)⟩
  cases ho with
  | handshake ho =>
    rcases ho.state with hst | ⟨_, _, _, _, _, ha, hf, -, rfl⟩
    · exact Or.inl (hold (by rw [hst]))
    · rcases heapWith_cases lib config _ _ _ st h with hs | ⟨rfl, rfl⟩
      · exact Or.inl ⟨s, hs⟩
      · exact Or.inr (.intro ha hf)
  | skipped => exact Or.inl (hold rfl)
  | handled _ _ _ ho => exact Or.inl (hold ho.frame.length)
  | tun ho => exact Or.inl (hold ho.length)
  | called => exact Or.inl (hold rfl)

end Step

end MouseVpn.Server
