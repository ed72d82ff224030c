import MouseVpn.Crypto.ReplayRefinement
import MouseVpn.Server.Steps

/-!
# Endpoint migration

The endpoint of a session comes from the handshake that created it or from a
datagram that reached the session, was authentic and fresh, and carried a keepalive
or a packet from the client's address. Over a run no datagram is accepted twice, and
what is written to the TUN device has the source address of its session.
-/

namespace MouseVpn.Server

open MouseVpn.Lib MouseVpn.Crypto MouseVpn.Protocol MouseVpn.DataPlane

/-- The receiver of session `p` accepts the datagram: it reaches it, is fresh in its
window, and opens. -/
def Accepts (st : ServerState) (e : Event) (p : ℕ) (datagram : Datagram) : Prop :=
  ∃ peer wire s plaintext, e.transport = some (peer, datagram, wire) ∧
    Reaches st datagram wire p s ∧ s.inbound.Authentic datagram plaintext

/-- A payload opens under at most one nonce, as with an ideal AEAD, where what opens
under a nonce is exactly what was sealed under it. -/
def SingleNonce (transport : StatelessTransportState) : Prop :=
  ∀ nonce nonce' ciphertext capacity capacity' plaintext plaintext',
    transport.readMessage nonce ciphertext capacity = .ok plaintext →
    transport.readMessage nonce' ciphertext capacity' = .ok plaintext' → nonce = nonce'

inductive Origin (lib : Libraries) (config : ValidatedServerConfig) (st : ServerState)
    (e : Event) (p : ℕ) (peer : SocketAddr) : Prop
  | created {s : RuntimeSession} (h : Creates lib config st e p s) (hp : s.peer = peer)
  | moved {datagram : Datagram} {wire : WireMode} {s : RuntimeSession}
      (he : e.transport = some (peer, datagram, wire)) (h : Moves st datagram wire p s)

section Effects

variable {lib : Libraries} {config : ValidatedServerConfig} {st : ServerState}

theorem HandshakeOutcome.no_tunWrite {env : Env} {peer : SocketAddr} {datagram : Datagram}
    {wire : WireMode} {r : ServerState × List Effect}
    (h : HandshakeOutcome lib config env peer datagram wire st r) (packet : Bytes) :
    .tunWrite packet ∉ r.2 := by
  cases h with
  | unread _ hr => simp [hr]
  | unauthorized _ _ hr => simp [hr]
  | finished _ ho => cases ho <;> simp [framed]

theorem DatagramOutcome.tunWrite {env : Env} {peer : SocketAddr} {datagram : Datagram}
    {wire : WireMode} {p : ℕ} {r : ServerState × List Effect}
    (h : DatagramOutcome env peer datagram wire p st r) {packet : Bytes}
    (hw : .tunWrite packet ∈ r.2) :
    ∃ s, st.heap[p]? = some s ∧ s.wire.matches wire = true ∧
      Carries s datagram (.ip packet) ∧ Acceptable s (.ip packet) := by
  cases h with
  | ignored => simp at hw
  | dropped => simp at hw
  | accepted hs hm hc ha hi =>
    cases hi packet hw
    exact ⟨_, hs, hm, hc, ha⟩

theorem step_tunWrite {e : Event} {packet : Bytes}
    (hw : .tunWrite packet ∈ (step lib config st e).2) :
    ∃ peer datagram wire p s ip, e.transport = some (peer, datagram, wire) ∧
      Reaches st datagram wire p s ∧ Carries s datagram (.ip packet) ∧
      Ipv4Packet.parse packet = .ok ip ∧ ip.source = s.clientAddress := by
  have ho := step_outcome lib config st e
  generalize step lib config st e = r at ho hw
  cases ho with
  | handshake ho => exact absurd hw (ho.no_tunWrite packet)
  | skipped => cases hw
  | @handled e env peer datagram wire q r he hf ha ho =>
    obtain ⟨s, hs, hm, hc, ip, hp, hsrc⟩ := ho.tunWrite hw
    refine ⟨peer, datagram, wire, q, s, ip, he, ⟨hf, hs, ?_, hm⟩, hc, hp, hsrc⟩
    simpa [ServerState.isActive, hs] using ha
  | tun _ hn => exact absurd hw (hn packet)
  | called => cases hw

end Effects

section Runs

theorem window_step {st : ServerState} {e : Event} {p : ℕ} {s s' : RuntimeSession}
    {marked : List ℕ}
    (hr : ReplayWindow.Represents s.inbound.crypto.receiveWindow marked)
    (hs : st.heap[p]? = some s) (h : SessionStep st e p s s') :
    ∃ marked', ReplayWindow.Represents s'.inbound.crypto.receiveWindow marked' ∧
      (∀ n ∈ marked, n ∈ marked') ∧
      ∀ datagram, Accepts st e p datagram → datagram.header.sequence.toNat ∈ marked' := by
  by_cases hn : ∀ peer datagram wire, e.transport = some (peer, datagram, wire) →
      ¬ Reaches st datagram wire p s
  · refine ⟨marked, by rw [h.unreached hn]; exact hr, fun _ h => h, ?_⟩
    rintro datagram ⟨peer, wire, t, _, he, hreach, -⟩
    obtain rfl : s = t := by simpa [hs] using hreach.session
    exact absurd hreach (hn peer datagram wire he)
  simp only [not_forall, not_not] at hn
  obtain ⟨peer, datagram, wire, he, hreach⟩ := hn
  obtain ⟨buffer, hi⟩ := h.reached peer datagram wire he hreach
  have heq : ∀ datagram', Accepts st e p datagram' →
      datagram' = datagram ∧ ∃ plaintext, s.inbound.Authentic datagram plaintext := by
    rintro datagram' ⟨peer', wire', t, plaintext, he', hreach', ha'⟩
    rw [he] at he'
    cases he'
    obtain rfl : s = t := by simpa [hs] using hreach'.session
    exact ⟨rfl, plaintext, ha'⟩
  rcases s.inbound.decodeInto_cases datagram buffer with ⟨plaintext, ha, hd⟩ | ⟨hno, _, _, hd⟩
  · rw [hd] at hi
    refine ⟨datagram.header.sequence.toNat :: marked, ?_, fun n hn => List.mem_cons_of_mem _ hn,
      fun datagram' hacc => ?_⟩
    · rw [hi]
      exact ReplayWindow.mark_represents hr ha.2.2.2.1
    · rw [(heq datagram' hacc).1]
      exact List.mem_cons_self
  · rw [hd] at hi
    refine ⟨marked, by rw [hi]; exact hr, fun _ h => h, fun datagram' hacc => ?_⟩
    obtain ⟨-, plaintext, ha⟩ := heq datagram' hacc
    exact absurd ha (hno plaintext)

theorem Creates.represents {lib : Libraries} {config : ValidatedServerConfig} {st : ServerState}
    {e : Event} {p : ℕ} {s : RuntimeSession} (h : Creates lib config st e p s) :
    ReplayWindow.Represents s.inbound.crypto.receiveWindow [] := by
  cases h with
  | intro ha hf =>
    have hw := (ServerHandshake.finish_ok hf).1
    simp only [newSession, TunnelDataPlane.new, TunnelDataPlane.split, SecureSession.split, hw]
    exact ReplayWindow.default_represents

variable (lib : Libraries) (config : ValidatedServerConfig) (registry : DeviceRegistry)

theorem after_persists (pre post : List Event) :
    Persists (after lib config registry pre) (after lib config registry (pre ++ post)) := by
  rw [after, after, Machine.run_append]
  refine Machine.run_rel (step lib config) Persists .refl (fun _ _ _ => .trans) ?_ _ post
  intro st e p s hs
  obtain ⟨s', hs', hstep⟩ := step_session lib config e hs
  exact ⟨s', hs', hstep.same⟩

theorem endpoint_origin (es : List Event) {p : ℕ} {s : RuntimeSession}
    (hs : (after lib config registry es).heap[p]? = some s) :
    ∃ pre e post, es = pre ++ e :: post ∧
      Origin lib config (after lib config registry pre) e p s.peer := by
  refine Machine.run_origin (step lib config)
    (fun st peer => ∃ t, st.heap[p]? = some t ∧ t.peer = peer)
    (fun st e peer => Origin lib config st e p peer) (by simp [ServerState.start]) ?_ ⟨s, hs, rfl⟩
  rintro st e _ ⟨t, ht, rfl⟩
  rcases step_created ht with ⟨t₀, ht₀⟩ | hc
  · obtain ⟨t', ht', hstep⟩ := step_session lib config e ht₀
    obtain rfl : t = t' := Option.some.inj (ht.symm.trans ht')
    rcases hstep.peer with hp | ⟨datagram, wire, he, hm⟩
    · exact Or.inl ⟨t₀, ht₀, hp.symm⟩
    · exact Or.inr (.moved he hm)
  · exact Or.inr (.created hc rfl)

theorem accepted_marked (es : List Event) {p : ℕ} {s : RuntimeSession}
    (hs : (after lib config registry es).heap[p]? = some s) :
    ∃ marked, ReplayWindow.Represents s.inbound.crypto.receiveWindow marked ∧
      ∀ pre e post datagram, es = pre ++ e :: post →
        Accepts (after lib config registry pre) e p datagram →
        datagram.header.sequence.toNat ∈ marked := by
  induction es using List.reverseRecOn generalizing s with
  | nil => simp [after, ServerState.start] at hs
  | append_singleton es e ih =>
    rw [after_concat] at hs
    rcases step_created hs with ⟨t, ht⟩ | hc
    · obtain ⟨s', hs', hstep⟩ := step_session lib config e ht
      rw [hs] at hs'
      cases hs'
      obtain ⟨marked, hr, hall⟩ := ih ht
      obtain ⟨marked', hr', hle, hlast⟩ := window_step hr ht hstep
      refine ⟨marked', hr', fun pre e' post datagram hes hacc => ?_⟩
      rcases Machine.split_concat hes with ⟨rfl, rfl, -⟩ | ⟨post', -, rfl⟩
      · exact hlast datagram hacc
      · exact hle _ (hall pre e' post' datagram rfl hacc)
    · -- A new session: nothing can have been accepted by it before.
      refine ⟨[], hc.represents, fun pre e' post datagram hes hacc => ?_⟩
      obtain ⟨_, _, t, _, he, hreach, -⟩ := hacc
      rcases Machine.split_concat hes with ⟨rfl, rfl, -⟩ | ⟨post', -, rfl⟩
      · cases hc
        cases he
      · obtain ⟨t', ht', -⟩ := after_persists lib config registry pre (e' :: post') p t
          hreach.session
        have hlt := (List.getElem?_eq_some_iff.mp ht').1
        cases hc
        exact absurd hlt (lt_irrefl _)

theorem accepted_once (pre mid : List Event) {e e' : Event} {p : ℕ} {d d' : Datagram}
    (h : Accepts (after lib config registry pre) e p d)
    (h' : Accepts (after lib config registry (pre ++ e :: mid)) e' p d') :
    d.header.sequence ≠ d'.header.sequence ∧
      (∀ s, (after lib config registry pre).heap[p]? = some s →
        SingleNonce s.inbound.crypto.transport → d.payload ≠ d'.payload) := by
  obtain ⟨_, _, t, plaintext, -, hreach, hauth⟩ := h'
  obtain ⟨marked, hr, hall⟩ := accepted_marked lib config registry _ hreach.session
  have hmem := hall pre e mid d rfl h
  have hfresh := ReplayWindow.not_mem_of_acceptable hr hauth.2.2.2.1
  have hne : d.header.sequence ≠ d'.header.sequence := fun heq => hfresh (heq ▸ hmem)
  refine ⟨hne, fun s hs hsingle hpay => hne ?_⟩
  obtain ⟨_, _, s₀, plaintext₀, -, hreach₀, hauth₀⟩ := h
  obtain rfl : s = s₀ := by simpa [hs] using hreach₀.session
  obtain ⟨t', ht', hsame⟩ := after_persists lib config registry pre (e :: mid) p s hs
  obtain rfl : t = t' := by simpa [ht'] using hreach.session.symm
  have hopen := hauth.2.2.2.2
  rw [hsame.transport, ← hpay] at hopen
  exact hsingle _ _ _ _ _ _ _ hauth₀.2.2.2.2 hopen

/-- Endpoints move only by authentic, fresh datagrams, none of which counts twice, and
the TUN device receives only packets from the address of their session. -/
theorem endpoint_migration_safe (es : List Event) :
    (∀ p s, (after lib config registry es).heap[p]? = some s →
      ∃ pre e post, es = pre ++ e :: post ∧
        Origin lib config (after lib config registry pre) e p s.peer) ∧
    (∀ e p s s', (after lib config registry es).heap[p]? = some s →
      (after lib config registry (es ++ [e])).heap[p]? = some s' → s'.peer ≠ s.peer →
      ∃ datagram wire, e.transport = some (s'.peer, datagram, wire) ∧
        Moves (after lib config registry es) datagram wire p s) ∧
    (∀ pre e mid e' post p d d', es = pre ++ e :: (mid ++ e' :: post) →
      Accepts (after lib config registry pre) e p d →
      Accepts (after lib config registry (pre ++ e :: mid)) e' p d' →
      d.header.sequence ≠ d'.header.sequence ∧
        ∀ s, (after lib config registry pre).heap[p]? = some s →
          SingleNonce s.inbound.crypto.transport → d.payload ≠ d'.payload) ∧
    (∀ e packet, .tunWrite packet ∈ (step lib config (after lib config registry es) e).2 →
      ∃ peer datagram wire p s ip, e.transport = some (peer, datagram, wire) ∧
        Reaches (after lib config registry es) datagram wire p s ∧
        Carries s datagram (.ip packet) ∧
        Ipv4Packet.parse packet = .ok ip ∧ ip.source = s.clientAddress) := by
  refine ⟨fun p s hs => endpoint_origin lib config registry es hs, ?_, ?_,
    fun e packet hw => step_tunWrite hw⟩
  · intro e p s s' hs hs' hne
    obtain ⟨t, ht, hstep⟩ := step_session lib config e hs
    rw [after_concat, ht] at hs'
    cases hs'
    exact hstep.peer.resolve_left hne
  · intro pre e mid e' post p d d' _ h h'
    exact accepted_once lib config registry pre mid h h'

end Runs

-- A keepalive moves the session to its source; the same keepalive from elsewhere does not.
example : endpointOf (after clearLibraries sampleConfig sampleRegistry
    [sampleHandshake 1 1 10, .keepalive sampleEnv (samplePeer 11) (sampleKeepalive 0) .legacy,
      .keepalive sampleEnv (samplePeer 66) (sampleKeepalive 0) .legacy]) ⟨10, 77, 0, 2⟩ =
    some (samplePeer 11) := by
  decide +kernel

end MouseVpn.Server
