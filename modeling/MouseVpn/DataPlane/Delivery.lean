import MouseVpn.DataPlane.Nonces
import MouseVpn.DataPlane.Rejection

/-!
# A sent datagram arrives as what was sent

Two ends of a session whose transports belong together. A datagram that the sender
completes has a fixed overhead, and the receiver gives back the packet in it as long as
its sequence is still acceptable.
-/

namespace MouseVpn.DataPlane

open MouseVpn.Lib MouseVpn.Crypto MouseVpn.Protocol

/-- What one transport seals has the length of the plaintext and a tag, and the other
transport opens it. -/
structure PairedTransports (tx rx : StatelessTransportState) : Prop where
  length : ∀ {nonce plaintext capacity ciphertext},
    tx.writeMessage nonce plaintext capacity = .ok ciphertext →
    ciphertext.length = plaintext.length + authTagLen
  opens : ∀ {nonce plaintext capacity ciphertext},
    tx.writeMessage nonce plaintext capacity = .ok ciphertext →
    ∀ capacity', plaintext.length ≤ capacity' → rx.readMessage nonce ciphertext capacity' =
      .ok plaintext

theorem clearTransport_paired : PairedTransports clearTransport clearTransport where
  length hw := by
    simp only [clearTransport] at hw
    split_ifs at hw
    cases hw
    simp
  opens hw capacity hc := by
    simp only [clearTransport] at hw ⊢
    split_ifs at hw
    cases hw
    rw [List.length_append, List.length_replicate, Nat.add_sub_cancel, List.drop_left,
      List.take_left, if_neg (by omega), if_pos rfl]

/-- The two ends of one direction of a session, when the receiver still accepts the sequence
that the sender uses next. -/
structure Connected (s : TunnelSender) (r : TunnelReceiver) : Prop where
  transports : PairedTransports s.crypto.transport r.crypto.transport
  sessionId : r.sessionId = s.sessionId
  mtu : r.mtu = s.mtu
  acceptable : r.crypto.receiveWindow.ensureAcceptable s.nextSequence = .ok ()

namespace EncodeCall

def kind : EncodeCall → PacketKind
  | .ip _ _ => .data
  | .keepalive _ => .keepalive

def innerKind : EncodeCall → InnerPacketKind
  | .ip _ _ => .data
  | .keepalive _ => .keepalive

def payload : EncodeCall → Bytes
  | .ip packet _ => packet.take (totalLength packet)
  | .keepalive _ => []

def meaning : EncodeCall → Decoded
  | .ip packet _ => .ip (packet.take (totalLength packet))
  | .keepalive _ => .keepalive

end EncodeCall

theorem parseWithinMtu_length {mtu : ℕ} {packet : Bytes} {ip : Ipv4Packet}
    (h : parseWithinMtu mtu packet = .ok ip) : ip.bytes.length ≤ mtu := by
  unfold parseWithinMtu at h
  cases hp : Ipv4Packet.parse packet with
  | error e => simp [hp] at h
  | ok ip' =>
    simp only [hp] at h
    split_ifs at h with hl
    cases h
    exact not_lt.mp hl

theorem parseWithinMtu_bytes {mtu : ℕ} {packet : Bytes} {ip : Ipv4Packet}
    (h : parseWithinMtu mtu packet = .ok ip) : parseWithinMtu mtu ip.bytes = .ok ip := by
  rw [parseWithinMtu, Ipv4Packet.parse_bytes (parseWithinMtu_ok h)]
  simp only
  rw [if_neg (not_lt.mpr (parseWithinMtu_length h))]

theorem TunnelSender.encodeInto_ok {s s' : TunnelSender} {kind : PacketKind}
    {innerKind : InnerPacketKind} {payload output bytes : Bytes}
    (h : s.encodeInto kind innerKind payload output = (s', bytes, .ok ())) :
    ∃ ciphertext capacity, (innerKind.toByte :: payload).length ≤ maxPlaintextLen ∧
      s.crypto.transport.writeMessage s.nextSequence (innerKind.toByte :: payload) capacity =
        .ok ciphertext ∧
      bytes = (s.datagram kind ciphertext).encode := by
  rcases s.encodeInto_cases kind innerKind payload output with
    ⟨-, he⟩ | ⟨e, -, -, he⟩ | ⟨next, ciphertext, -, hw, he⟩
  · rw [h] at he
    cases he
  · rw [h] at he
    cases he
  · rw [h] at he
    cases he
    obtain ⟨hl, hw⟩ := encryptInto_ok_iff.mp hw
    exact ⟨ciphertext, _, hl, hw, rfl⟩

theorem TunnelSender.call_ok {s : TunnelSender} {c : EncodeCall} {bytes : Bytes}
    (h : (s.call c).2 = .ok bytes) :
    c.payload.length ≤ s.mtu ∧
    (c.innerKind = .data → ∃ ip, parseWithinMtu s.mtu c.payload = .ok ip ∧ ip.bytes = c.payload) ∧
    ∃ ciphertext capacity, (c.innerKind.toByte :: c.payload).length ≤ maxPlaintextLen ∧
      s.crypto.transport.writeMessage s.nextSequence (c.innerKind.toByte :: c.payload) capacity =
        .ok ciphertext ∧
      bytes = (s.datagram c.kind ciphertext).encode := by
  cases c with
  | keepalive output =>
    simp only [TunnelSender.call, TunnelSender.encodeKeepaliveInto] at h
    rcases he : s.encodeInto .keepalive .keepalive [] output with ⟨s', result, e | ⟨⟩⟩
    · simp [he, Except.map] at h
    · simp only [he, Except.map, Except.ok.injEq] at h
      refine ⟨Nat.zero_le _, ?_, TunnelSender.encodeInto_ok (h ▸ he)⟩
      intro hk
      cases hk
  | ip packet output =>
    simp only [TunnelSender.call, TunnelSender.encodeIpInto] at h
    cases hp : parseWithinMtu s.mtu packet with
    | error e => simp [hp, Except.map] at h
    | ok ip =>
      have hb : ip.bytes = packet.take (totalLength packet) :=
        (Ipv4Packet.parse_ok (parseWithinMtu_ok hp)).1
      simp only [hp] at h
      rcases he : s.encodeInto .data .data ip.bytes output with ⟨s', result, e | ⟨⟩⟩
      · simp [he, Except.map] at h
      · simp only [he, Except.map, Except.ok.injEq] at h
        refine ⟨?_, fun _ => ⟨ip, ?_, hb⟩, ?_⟩
        · rw [EncodeCall.payload, ← hb]
          exact parseWithinMtu_length hp
        · rw [EncodeCall.payload, ← hb]
          exact parseWithinMtu_bytes hp
        · rw [EncodeCall.payload, ← hb]
          exact TunnelSender.encodeInto_ok (h ▸ he)

theorem interpret_call {c : EncodeCall} {mtu : ℕ}
    (h : c.innerKind = .data → ∃ ip, parseWithinMtu mtu c.payload = .ok ip ∧ ip.bytes = c.payload) :
    TunnelReceiver.interpret mtu c.kind (c.innerKind.toByte :: c.payload) = .ok c.meaning := by
  simp only [TunnelReceiver.interpret, InnerPacket.decode_cons_toByte]
  cases c with
  | keepalive output => rfl
  | ip packet output =>
    obtain ⟨ip, hp, hb⟩ := h rfl
    simp only [EncodeCall.kind, EncodeCall.innerKind, hp, hb, List.drop_succ_cons, List.drop_zero,
      List.take_length]
    rfl

theorem Connected.deliver {s : TunnelSender} {r : TunnelReceiver} (hc : Connected s r)
    {c : EncodeCall} {bytes : Bytes} (h : (s.call c).2 = .ok bytes) (output : Bytes) :
    ∃ d, Datagram.decode bytes = .ok d ∧ (r.decodeInto d output).2.2 = .ok c.meaning := by
  obtain ⟨-, hip, ciphertext, capacity, hplain, hw, rfl⟩ := TunnelSender.call_ok h
  have hl := hc.transports.length hw
  have hread := hc.transports.opens hw ciphertext.length (by omega)
  have hauthentic :
      r.Authentic (s.datagram c.kind ciphertext) (c.innerKind.toByte :: c.payload) := by
    refine ⟨hc.sessionId.symm, ?_, ?_, hc.acceptable, hread⟩
    · cases c
      · exact Or.inl rfl
      · exact Or.inr rfl
    · have hmax : maxPlaintextLen + authTagLen = maxNoiseMessageLen := rfl
      simp only [TunnelSender.datagram]
      omega
  refine ⟨_, Datagram.decode_encode _, ?_⟩
  rcases r.decodeInto_cases (s.datagram c.kind ciphertext) output with
    ⟨plaintext, ha, he⟩ | ⟨hno, -⟩
  · obtain rfl : c.innerKind.toByte :: c.payload = plaintext :=
      Except.ok.inj (hread.symm.trans ha.2.2.2.2)
    rw [he]
    exact interpret_call (hc.mtu ▸ hip)
  · exact absurd hauthentic (hno _)

theorem TunnelSender.call_length {s : TunnelSender} {rx : StatelessTransportState}
    (ht : PairedTransports s.crypto.transport rx) {c : EncodeCall} {bytes : Bytes}
    (h : (s.call c).2 = .ok bytes) :
    bytes.length = headerLen + 1 + c.payload.length + authTagLen ∧ c.payload.length ≤ s.mtu := by
  obtain ⟨hmtu, -, ciphertext, capacity, -, hw, rfl⟩ := TunnelSender.call_ok h
  refine ⟨?_, hmtu⟩
  rw [Datagram.encode, List.length_append, Header.encode_length, TunnelSender.datagram,
    ht.length hw, List.length_cons]
  omega

end MouseVpn.DataPlane
