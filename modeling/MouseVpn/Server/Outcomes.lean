import MouseVpn.DataPlane.Rejection
import MouseVpn.Server.Daemon

/-!
# What the handlers can do

One inversion lemma for each handler. Handshakes may add a session at the end of
the heap; datagrams of a session may mark its window, move its endpoint and
advance its sender; the TUN worker only advances senders. A session keeps its
address, authorization, wire mode and Noise key for as long as it lives.
-/

namespace MouseVpn.Server

open MouseVpn.Lib MouseVpn.Crypto MouseVpn.Protocol MouseVpn.DataPlane

structure SameSession (s s' : RuntimeSession) : Prop where
  clientAddress : s'.clientAddress = s.clientAddress
  authorization : s'.authorization = s.authorization
  wire : s'.wire = s.wire
  noiseKey : s'.noiseKey = s.noiseKey
  transport : s'.inbound.crypto.transport = s.inbound.crypto.transport

theorem SameSession.refl (s : RuntimeSession) : SameSession s s := ⟨rfl, rfl, rfl, rfl, rfl⟩

theorem SameSession.trans {s s' s'' : RuntimeSession} (h : SameSession s s')
    (h' : SameSession s' s'') : SameSession s s'' :=
  ⟨h'.clientAddress.trans h.clientAddress, h'.authorization.trans h.authorization,
    h'.wire.trans h.wire, h'.noiseKey.trans h.noiseKey, h'.transport.trans h.transport⟩

def Persists (st st' : ServerState) : Prop :=
  ∀ (p : ℕ) s, st.heap[p]? = some s → ∃ s', st'.heap[p]? = some s' ∧ SameSession s s'

theorem Persists.refl (st : ServerState) : Persists st st := fun _ s hs => ⟨s, hs, .refl s⟩

theorem Persists.trans {st st' st'' : ServerState} (h : Persists st st')
    (h' : Persists st' st'') : Persists st st'' := by
  intro p s hs
  obtain ⟨t, ht, hst⟩ := h p s hs
  obtain ⟨s', hs', hts⟩ := h' p t ht
  exact ⟨s', hs', hst.trans hts⟩

theorem setSession_heap {st : ServerState} {p : ℕ} {s : RuntimeSession}
    (hs : st.heap[p]? = some s) (s' : RuntimeSession) (q : ℕ) :
    (st.setSession p s').heap[q]? = if q = p then some s' else st.heap[q]? := by
  have hp : p < st.heap.length := (List.getElem?_eq_some_iff.mp hs).1
  by_cases hq : q = p
  · subst hq
    simp [ServerState.setSession, hp]
  · simp [ServerState.setSession, hq, Ne.symm hq]

section Handshake

variable (lib : Libraries) (config : ValidatedServerConfig) (env : Env) (peer : SocketAddr)
  (datagram : Datagram) (wire : WireMode) (st : ServerState)

/-- The datagram is an initiation of `key`, which holds the lease `client`. -/
structure Authorized (handshake : ServerHandshake lib) (key : PublicKey) (client : DeviceLease) :
    Prop where
  read : readInitiation lib config wire datagram.payload = some (handshake, key)
  lease : st.registry.authorize key = some client

/-- The initiation is not the one that was completed last for `key`. -/
def CacheMiss (key : PublicKey) : Prop :=
  ∀ cached, st.cache.lookup key = some cached → cached.request ≠ datagram.payload

def heapWith (client : DeviceLease) (crypto : SecureSession) : List RuntimeSession :=
  st.heap ++ [newSession lib config peer datagram wire client crypto]

def encodedResponse (response : Bytes) : Bytes := (responseDatagram datagram response).encode

def installed (key : PublicKey) (client : DeviceLease) (crypto : SecureSession)
    (response : Bytes) : ServerState :=
  { st with
    heap := heapWith lib config peer datagram wire st client crypto
    sessions := (st.sessions.replaceClient
      (ServerState.addressIn (heapWith lib config peer datagram wire st client crypto))
      datagram.header.sessionId st.heap.length).1
    cache :=
      if (wire.encodeServer lib (encodedResponse datagram response) env.sources).isSome then
        st.cache.insert key ⟨datagram.payload, encodedResponse datagram response⟩
      else st.cache }

def framed (sent : Bytes) : List Effect :=
  ((wire.encodeServer lib sent env.sources).map fun frame => .send sent frame peer).toList

section Finish

variable (handshake : ServerHandshake lib) (key : PublicKey) (client : DeviceLease)

/-- How a handshake ends that was authorized with the lease `client`, now or earlier. -/
inductive FinishOutcome : ServerState × List Effect → Prop
  | repeated {cached : CachedHandshake} (hc : st.cache.lookup key = some cached)
      (hr : cached.request = datagram.payload) :
      FinishOutcome (st, framed lib env peer wire cached.response)
  | unfinished {e : CryptoError} (hm : CacheMiss datagram st key)
      (hf : handshake.finish env.entropy (sessionParameters config wire client).encode =
        .error e) :
      FinishOutcome (st, [])
  | collided {crypto : SecureSession} {response : Bytes} (hm : CacheMiss datagram st key)
      (hf : handshake.finish env.entropy (sessionParameters config wire client).encode =
        .ok (crypto, response))
      (hc : st.sessions.collides
        (ServerState.addressIn (heapWith lib config peer datagram wire st client crypto))
        datagram.header.sessionId client.address = true) :
      FinishOutcome (st, [])
  | installs {crypto : SecureSession} {response : Bytes} (hm : CacheMiss datagram st key)
      (hf : handshake.finish env.entropy (sessionParameters config wire client).encode =
        .ok (crypto, response))
      (hc : st.sessions.collides
        (ServerState.addressIn (heapWith lib config peer datagram wire st client crypto))
        datagram.header.sessionId client.address = false) :
      FinishOutcome (installed lib config env peer datagram wire st key client crypto response,
        framed lib env peer wire (encodedResponse datagram response))

end Finish

inductive HandshakeOutcome (r : ServerState × List Effect) : Prop
  | unread (h : readInitiation lib config wire datagram.payload = none) (hr : r = (st, []))
  | unauthorized {handshake : ServerHandshake lib} {key : PublicKey}
      (h : readInitiation lib config wire datagram.payload = some (handshake, key))
      (h' : st.registry.authorize key = none) (hr : r = (st, []))
  | finished {handshake : ServerHandshake lib} {key : PublicKey} {client : DeviceLease}
      (ha : Authorized lib config datagram wire st handshake key client)
      (ho : FinishOutcome lib config env peer datagram wire st handshake key client r)

theorem heapWith_old {client : DeviceLease} {crypto : SecureSession} {q : ℕ} {t : RuntimeSession}
    (ht : st.heap[q]? = some t) :
    (heapWith lib config peer datagram wire st client crypto)[q]? = some t := by
  have hq := (List.getElem?_eq_some_iff.mp ht).1
  simp [heapWith, List.getElem?_append_left hq, ht]

theorem heapWith_cases {client : DeviceLease} {crypto : SecureSession} {p : ℕ}
    {s : RuntimeSession}
    (h : (heapWith lib config peer datagram wire st client crypto)[p]? = some s) :
    st.heap[p]? = some s ∨
      (p = st.heap.length ∧ s = newSession lib config peer datagram wire client crypto) := by
  by_cases hp : p < st.heap.length
  · rw [heapWith, List.getElem?_append_left hp] at h
    exact Or.inl h
  · have hlt := (List.getElem?_eq_some_iff.mp h).1
    simp only [heapWith, List.length_append, List.length_singleton] at hlt
    obtain rfl : p = st.heap.length := by omega
    rw [heapWith, List.getElem?_append_right le_rfl, Nat.sub_self] at h
    cases h
    exact Or.inr ⟨rfl, rfl⟩

theorem addressIn_heapWith (client : DeviceLease) (crypto : SecureSession) :
    ServerState.addressIn (heapWith lib config peer datagram wire st client crypto)
      st.heap.length = client.address := by
  simp [ServerState.addressIn, heapWith, newSession]

theorem establish_outcome (handshake : ServerHandshake lib) {key : PublicKey}
    (client : DeviceLease) (hm : CacheMiss datagram st key) :
    FinishOutcome lib config env peer datagram wire st handshake key client
      (establish lib config env peer datagram wire handshake key client st) := by
  unfold establish
  cases hf : handshake.finish env.entropy (sessionParameters config wire client).encode with
  | error e => exact .unfinished hm hf
  | ok finished =>
    obtain ⟨crypto, response⟩ := finished
    have haddr := addressIn_heapWith lib config peer datagram wire st client crypto
    rcases hr : st.sessions.replaceClient
        (ServerState.addressIn (heapWith lib config peer datagram wire st client crypto))
        datagram.header.sessionId st.heap.length with ⟨sessions, accepted⟩
    have hsnd := congrArg Prod.snd hr
    rw [Sessions.replaceClient_snd, haddr] at hsnd
    have hheap : st.heap ++ [newSession lib config peer datagram wire client crypto] =
      heapWith lib config peer datagram wire st client crypto := rfl
    simp only [hheap, hr]
    cases accepted with
    | false => exact .collided hm hf (by simpa using hsnd)
    | true =>
      have hi : FinishOutcome lib config env peer datagram wire st handshake key client _ :=
        .installs hm hf (by simpa using hsnd)
      simp only [installed, hr, framed, encodedResponse] at hi
      cases he : wire.encodeServer lib (responseDatagram datagram response).encode env.sources with
      | none => simpa [he] using hi
      | some frame => simpa [he] using hi

theorem finishHandshake_outcome (handshake : ServerHandshake lib) (key : PublicKey)
    (client : DeviceLease) :
    FinishOutcome lib config env peer datagram wire st handshake key client
      (finishHandshake lib config env peer datagram wire handshake key client st) := by
  unfold finishHandshake
  cases hc : st.cache.lookup key with
  | none =>
    exact establish_outcome lib config env peer datagram wire st handshake client
      (by simp [CacheMiss, hc])
  | some cached =>
    by_cases hq : cached.request = datagram.payload
    · have ho : FinishOutcome lib config env peer datagram wire st handshake key client _ :=
        .repeated hc hq
      simp only [hq, if_true]
      unfold framed at ho
      cases he : wire.encodeServer lib cached.response env.sources with
      | none => simpa [he] using ho
      | some frame => simpa [he] using ho
    · simp only [hq, if_false]
      exact establish_outcome lib config env peer datagram wire st handshake client
        (by simpa [CacheMiss, hc] using hq)

theorem handleHandshake_outcome :
    HandshakeOutcome lib config env peer datagram wire st
      (handleHandshake lib config env peer datagram wire st) := by
  unfold handleHandshake
  cases hr : readInitiation lib config wire datagram.payload with
  | none => exact .unread hr rfl
  | some initiation =>
    obtain ⟨handshake, key⟩ := initiation
    cases hl : st.registry.authorize key with
    | none =>
      simp only [hl]
      exact .unauthorized hr hl rfl
    | some client =>
      simp only [hl]
      exact .finished ⟨hr, hl⟩
        (finishHandshake_outcome lib config env peer datagram wire st handshake key client)

variable {lib config env peer datagram wire st}

theorem readInitiation_some {payload : Bytes} {handshake : ServerHandshake lib}
    {key : PublicKey} (h : readInitiation lib config wire payload = some (handshake, key)) :
    (∃ initial message, ServerHandshake.new lib config.serverPrivateKey
        (handshakeContext lib config wire) = .ok initial ∧
      initial.readInitial payload = .ok (handshake, message)) ∧
    handshake.peerStaticKey = some key ∧ wire.allowsClient key = true := by
  unfold readInitiation at h
  cases hn : ServerHandshake.new lib config.serverPrivateKey
      (handshakeContext lib config wire) with
  | error e => simp [hn] at h
  | ok initial =>
    cases hr : initial.readInitial payload with
    | error e => simp [hn, hr] at h
    | ok read =>
      obtain ⟨state, message⟩ := read
      cases hk : state.peerStaticKey with
      | none => simp [hn, hr, hk] at h
      | some key' =>
        simp only [hn, hr, hk] at h
        split_ifs at h with ha
        cases h
        exact ⟨⟨initial, message, rfl, hr⟩, hk, ha⟩

theorem newSession_noiseKey {handshake : ServerHandshake lib} {key : PublicKey}
    {client : DeviceLease} {payload entropy parameters response : Bytes} {crypto : SecureSession}
    (hr : readInitiation lib config wire payload = some (handshake, key))
    (hf : handshake.finish entropy parameters = .ok (crypto, response)) :
    (newSession lib config peer datagram wire client crypto).noiseKey = key := by
  have hkey := (readInitiation_some hr).2.1
  rw [(ServerHandshake.finish_ok hf).2] at hkey
  exact Option.some.inj hkey

theorem FinishOutcome.state {handshake : ServerHandshake lib} {key : PublicKey}
    {client : DeviceLease} {r : ServerState × List Effect}
    (h : FinishOutcome lib config env peer datagram wire st handshake key client r) :
    r.1 = st ∨ ∃ crypto response,
      handshake.finish env.entropy (sessionParameters config wire client).encode =
        .ok (crypto, response) ∧
      st.sessions.collides
        (ServerState.addressIn (heapWith lib config peer datagram wire st client crypto))
        datagram.header.sessionId client.address = false ∧
      r = (installed lib config env peer datagram wire st key client crypto response,
        framed lib env peer wire (encodedResponse datagram response)) := by
  cases h with
  | repeated => exact Or.inl rfl
  | unfinished => exact Or.inl rfl
  | collided => exact Or.inl rfl
  | installs hm hf hc => exact Or.inr ⟨_, _, hf, hc, rfl⟩

theorem HandshakeOutcome.state {r : ServerState × List Effect}
    (h : HandshakeOutcome lib config env peer datagram wire st r) :
    r.1 = st ∨ ∃ handshake key client crypto response,
      Authorized lib config datagram wire st handshake key client ∧
      handshake.finish env.entropy (sessionParameters config wire client).encode =
        .ok (crypto, response) ∧
      st.sessions.collides
        (ServerState.addressIn (heapWith lib config peer datagram wire st client crypto))
        datagram.header.sessionId client.address = false ∧
      r = (installed lib config env peer datagram wire st key client crypto response,
        framed lib env peer wire (encodedResponse datagram response)) := by
  cases h with
  | unread _ hr => exact Or.inl (by rw [hr])
  | unauthorized _ _ hr => exact Or.inl (by rw [hr])
  | @finished handshake key client ha ho =>
    rcases ho.state with hst | ⟨crypto, response, hf, hc, hr⟩
    · exact Or.inl hst
    · exact Or.inr ⟨handshake, key, client, crypto, response, ha, hf, hc, hr⟩

theorem HandshakeOutcome.heap {r : ServerState × List Effect}
    (h : HandshakeOutcome lib config env peer datagram wire st r) {q : ℕ} {t : RuntimeSession}
    (ht : st.heap[q]? = some t) : r.1.heap[q]? = some t := by
  rcases h.state with hst | ⟨_, _, _, _, _, -, -, -, rfl⟩
  · rw [hst]
    exact ht
  · exact heapWith_old lib config peer datagram wire st ht

end Handshake

def Acceptable (s : RuntimeSession) : Decoded → Prop
  | .keepalive => True
  | .ip packet => ∃ ip, Ipv4Packet.parse packet = .ok ip ∧ ip.source = s.clientAddress

/-- The datagram is authentic for the session, fresh, and carries `inner`. -/
def Carries (s : RuntimeSession) (datagram : Datagram) (inner : Decoded) : Prop :=
  ∃ plaintext, s.inbound.Authentic datagram plaintext ∧
    TunnelReceiver.interpret s.inbound.mtu datagram.header.kind plaintext = .ok inner

def received (s : RuntimeSession) (datagram : Datagram) (buffer : Bytes) : RuntimeSession :=
  { s with inbound := (s.inbound.decodeInto datagram buffer).1 }

/-- What happens to session `q` when a datagram is handed to session `p`. -/
inductive Touched (env : Env) (peer : SocketAddr) (datagram : Datagram) (wire : WireMode)
    (p q : ℕ) (t t' : RuntimeSession) : Prop
  | untouched (h : t' = t) (hn : q = p → t.wire.matches wire = false)
  | decoded (hq : q = p) (hm : t.wire.matches wire = true)
      (hi : t'.inbound = (received t datagram env.plaintext).inbound)
      (hp : t'.peer = t.peer ∨
        t'.peer = peer ∧ ∃ inner, Carries t datagram inner ∧ Acceptable t inner)

theorem received_inbound (s : RuntimeSession) (datagram : Datagram) (buffer : Bytes) :
    (received s datagram buffer).inbound = s.inbound ∨ ∃ plaintext,
      s.inbound.Authentic datagram plaintext ∧
      (received s datagram buffer).inbound = s.inbound.mark datagram.header.sequence := by
  rcases s.inbound.decodeInto_cases datagram buffer with ⟨plaintext, ha, he⟩ | ⟨-, b, e, he⟩
  · exact Or.inr ⟨plaintext, ha, by simp [received, he]⟩
  · exact Or.inl (by simp [received, he])

theorem received_same (s : RuntimeSession) (datagram : Datagram) (buffer : Bytes) :
    SameSession s (received s datagram buffer) := by
  rcases received_inbound s datagram buffer with h | ⟨-, -, h⟩
  · exact ⟨rfl, rfl, rfl, by simp only [RuntimeSession.noiseKey, h], by rw [h]⟩
  · refine ⟨rfl, rfl, rfl, ?_, ?_⟩
    · simp only [RuntimeSession.noiseKey, h]
      rfl
    · rw [h]
      rfl

section Datagrams

variable (lib : Libraries) (env : Env) (peer : SocketAddr) (datagram : Datagram)
  (wire : WireMode) (p : ℕ) (st : ServerState)

inductive DatagramOutcome : ServerState × List Effect → Prop
  | ignored (h : ∀ s, st.heap[p]? = some s → s.wire.matches wire = false) :
      DatagramOutcome (st, [])
  | dropped {s : RuntimeSession} (hs : st.heap[p]? = some s) (hm : s.wire.matches wire = true) :
      DatagramOutcome (st.setSession p (received s datagram env.plaintext), [])
  | accepted {s : RuntimeSession} {inner : Decoded} {outbound : TunnelSender}
      {effects : List Effect} (hs : st.heap[p]? = some s) (hm : s.wire.matches wire = true)
      (hc : Carries s datagram inner) (ha : Acceptable s inner)
      (hw : ∀ packet, .tunWrite packet ∈ effects → inner = .ip packet) :
      DatagramOutcome
        (st.setSession p { received s datagram env.plaintext with peer, outbound }, effects)

variable {datagram}

theorem carries_of_decodeInto {s : RuntimeSession} {buffer : Bytes} {inner : Decoded}
    (h : (s.inbound.decodeInto datagram buffer).2.2 = .ok inner) : Carries s datagram inner := by
  rcases s.inbound.decodeInto_cases datagram buffer with ⟨plaintext, ha, he⟩ | ⟨-, b, e, he⟩
  · rw [he] at h
    exact ⟨plaintext, ha, h⟩
  · rw [he] at h
    cases h

theorem answerKeepalive_outcome :
    DatagramOutcome env peer datagram wire p st
      (answerKeepalive lib env peer datagram wire p st) := by
  unfold answerKeepalive
  cases hs : st.heap[p]? with
  | none => exact .ignored (by simp [hs])
  | some s =>
    cases hm : s.wire.matches wire with
    | false => simpa [hm] using DatagramOutcome.ignored (by simp [hs, hm])
    | true =>
      simp only [hm, Bool.not_true, Bool.false_eq_true, if_false]
      rcases hd : s.inbound.decodeInto datagram env.plaintext with ⟨inbound, buffer, result⟩
      have hrec : received s datagram env.plaintext = { s with inbound } := by
        simp [received, hd]
      have hdrop : DatagramOutcome env peer datagram wire p st
          (st.setSession p { s with inbound }, []) := hrec ▸ .dropped hs hm
      rcases result with e | packet | -
      · exact hdrop
      · exact hdrop
      · have hc : Carries s datagram .keepalive := carries_of_decodeInto (by rw [hd])
        have hacc : ∀ outbound effects, (∀ packet, .tunWrite packet ∉ effects) →
            DatagramOutcome env peer datagram wire p st
              (st.setSession p { s with inbound, peer, outbound }, effects) := by
          intro outbound effects hw
          have ho : DatagramOutcome env peer datagram wire p st
              (st.setSession p { received s datagram env.plaintext with peer, outbound },
                effects) := .accepted hs hm hc trivial fun packet h => absurd h (hw packet)
          rw [hrec] at ho
          exact ho
        simp only [RuntimeSession.adoptPeer_eq]
        rcases s.outbound.encodeKeepaliveInto env.response with ⟨outbound, response, e | ⟨⟩⟩
        · exact hacc outbound [] (by simp)
        · cases hf : s.wire.encodeServer lib response env.sources with
          | none =>
            simp only [hf]
            exact hacc outbound [] (by simp)
          | some frame =>
            simp only [hf]
            exact hacc outbound [.send response frame peer] (by simp)

theorem deliverClientData_outcome :
    DatagramOutcome env peer datagram wire p st
      (deliverClientData env peer datagram wire p st) := by
  unfold deliverClientData
  cases hs : st.heap[p]? with
  | none => exact .ignored (by simp [hs])
  | some s =>
    cases hm : s.wire.matches wire with
    | false => simpa [hm] using DatagramOutcome.ignored (by simp [hs, hm])
    | true =>
      simp only [hm, Bool.not_true, Bool.false_eq_true, if_false]
      rcases hd : s.inbound.decodeInto datagram env.plaintext with ⟨inbound, buffer, result⟩
      have hrec : received s datagram env.plaintext = { s with inbound } := by
        simp [received, hd]
      have hdrop : DatagramOutcome env peer datagram wire p st
          (st.setSession p { s with inbound }, []) := hrec ▸ .dropped hs hm
      rcases result with e | packet | -
      · exact hdrop
      · have hc : Carries s datagram (.ip packet) := carries_of_decodeInto (by rw [hd])
        cases hp : Ipv4Packet.parse packet with
        | error e => simpa [hp] using hdrop
        | ok ip =>
          simp only [hp]
          split_ifs with hsrc htun
          · exact hdrop
          · have ho : DatagramOutcome env peer datagram wire p st
                (st.setSession p
                  { received s datagram env.plaintext with peer, outbound := s.outbound },
                  [.tunWrite packet, .addUpload s.traffic packet.length]) :=
              .accepted hs hm hc ⟨ip, hp, not_not.mp hsrc⟩ (by simp [eq_comm])
            rw [hrec] at ho
            simpa using ho
          · exact hdrop
      · exact hdrop

end Datagrams

section DatagramEffects

variable {st : ServerState}

theorem DatagramOutcome.touched {env : Env} {peer : SocketAddr} {datagram : Datagram}
    {wire : WireMode} {p : ℕ} {r : ServerState × List Effect}
    (h : DatagramOutcome env peer datagram wire p st r) {q : ℕ} {t : RuntimeSession}
    (ht : st.heap[q]? = some t) :
    ∃ t', r.1.heap[q]? = some t' ∧ SameSession t t' ∧
      Touched env peer datagram wire p q t t' := by
  cases h with
  | ignored hi =>
    refine ⟨t, ht, .refl t, .untouched rfl fun hq => hi t ?_⟩
    rw [← hq, ht]
  | @dropped s hs hm =>
    simp only [setSession_heap hs]
    by_cases hq : q = p
    · subst hq
      obtain rfl : s = t := by simpa [hs] using ht
      exact ⟨_, if_pos rfl, received_same s datagram _, .decoded rfl hm rfl (Or.inl rfl)⟩
    · exact ⟨t, by simp [hq, ht], .refl t, .untouched rfl fun h => absurd h hq⟩
  | @accepted s inner outbound effects hs hm hc ha hw =>
    simp only [setSession_heap hs]
    by_cases hq : q = p
    · subst hq
      obtain rfl : s = t := by simpa [hs] using ht
      have hsame := received_same s datagram env.plaintext
      exact ⟨_, if_pos rfl, ⟨hsame.1, hsame.2, hsame.3, hsame.4, hsame.5⟩,
        .decoded rfl hm rfl (Or.inr ⟨rfl, inner, hc, ha⟩)⟩
    · exact ⟨t, by simp [hq, ht], .refl t, .untouched rfl fun h => absurd h hq⟩

structure Frame (st st' : ServerState) : Prop where
  sessions : st'.sessions = st.sessions
  cache : st'.cache = st.cache
  length : st'.heap.length = st.heap.length

theorem DatagramOutcome.frame {env : Env} {peer : SocketAddr} {datagram : Datagram}
    {wire : WireMode} {p : ℕ} {r : ServerState × List Effect}
    (h : DatagramOutcome env peer datagram wire p st r) : Frame st r.1 := by
  cases h with
  | ignored => exact ⟨rfl, rfl, rfl⟩
  | dropped => exact ⟨rfl, rfl, by simp [ServerState.setSession]⟩
  | accepted => exact ⟨rfl, rfl, by simp [ServerState.setSession]⟩

theorem DatagramOutcome.registry {env : Env} {peer : SocketAddr} {datagram : Datagram}
    {wire : WireMode} {p : ℕ} {r : ServerState × List Effect}
    (h : DatagramOutcome env peer datagram wire p st r) : r.1.registry = st.registry := by
  cases h <;> rfl

end DatagramEffects

structure OutboundOnly (st st' : ServerState) : Prop where
  registry : st'.registry = st.registry
  sessions : st'.sessions = st.sessions
  cache : st'.cache = st.cache
  length : st'.heap.length = st.heap.length
  session : ∀ (p : ℕ) (s : RuntimeSession), st.heap[p]? = some s →
    ∃ outbound, st'.heap[p]? = some { s with outbound }

theorem OutboundOnly.refl (st : ServerState) : OutboundOnly st st :=
  ⟨rfl, rfl, rfl, rfl, fun _ s hs => ⟨s.outbound, hs⟩⟩

theorem OutboundOnly.trans {st st' st'' : ServerState} (h : OutboundOnly st st')
    (h' : OutboundOnly st' st'') : OutboundOnly st st'' := by
  refine ⟨h'.registry.trans h.registry, h'.sessions.trans h.sessions, h'.cache.trans h.cache,
    h'.length.trans h.length, fun p s hs => ?_⟩
  obtain ⟨outbound, ho⟩ := h.session p s hs
  exact h'.session p { s with outbound } ho

theorem setSession_outboundOnly {st : ServerState} {p : ℕ} {s : RuntimeSession}
    (hs : st.heap[p]? = some s) (outbound : TunnelSender) :
    OutboundOnly st (st.setSession p { s with outbound }) := by
  refine ⟨rfl, rfl, rfl, by simp [ServerState.setSession], fun q t ht => ?_⟩
  rw [setSession_heap hs]
  by_cases hq : q = p
  · rw [hq, hs] at ht
    cases ht
    exact ⟨outbound, by simp [hq]⟩
  · exact ⟨t.outbound, by simp [hq, ht]⟩

section Tun

variable (lib : Libraries)

theorem encodeTunPacket_outboundOnly (input : TunPacket) (ip : Ipv4Packet) (p : ℕ)
    (st : ServerState) : OutboundOnly st (encodeTunPacket lib input ip p st).1 := by
  unfold encodeTunPacket
  cases hs : st.heap[p]? with
  | none => exact .refl st
  | some s =>
    simp only
    rcases s.outbound.encodeIpInto ip.bytes input.datagram with ⟨outbound, datagram, e | ⟨⟩⟩
    · exact setSession_outboundOnly hs outbound
    · cases hf : s.wire.encodeServer lib datagram input.sources with
      | none =>
        simp only [hf]
        exact setSession_outboundOnly hs outbound
      | some frame =>
        simp only [hf]
        exact setSession_outboundOnly hs outbound

theorem handleTunPacket_outboundOnly (input : TunPacket) (st : ServerState) :
    OutboundOnly st (handleTunPacket lib input st).1 := by
  unfold handleTunPacket
  cases Ipv4Packet.parse input.packet with
  | error e => exact .refl st
  | ok ip =>
    simp only
    cases st.sessions.byAddress.lookup ip.destination with
    | none => exact .refl st
    | some p =>
      simp only
      split_ifs
      · exact .refl st
      · exact encodeTunPacket_outboundOnly lib input ip p st

theorem encodeTunBatch_outboundOnly (inputs : List TunPacket) (st : ServerState) :
    OutboundOnly st (encodeTunBatch lib inputs st).1 := by
  induction inputs generalizing st with
  | nil => exact .refl st
  | cons input inputs ih =>
    exact (handleTunPacket_outboundOnly lib input st).trans (ih _)

theorem handleTunBatch_outboundOnly (inputs : List TunPacket) (sent : ℕ) (st : ServerState) :
    OutboundOnly st (handleTunBatch lib inputs sent st).1 := by
  have h := encodeTunBatch_outboundOnly lib inputs st
  unfold handleTunBatch
  generalize encodeTunBatch lib inputs st = r at h ⊢
  exact h

end Tun

end MouseVpn.Server
