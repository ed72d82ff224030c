import MouseVpn.DataPlane.Nonces

/-!
# The halves and the allocating data plane

The halves of a split tunnel write into buffers their caller keeps from packet to
packet; the plane allocates each result. Whatever a buffer holds when a call is
made, both answer alike: the halves stay the ones the plane would split into now,
up to the scratch plaintext the sender keeps.
-/

namespace MouseVpn.DataPlane

open MouseVpn.Lib MouseVpn.Crypto MouseVpn.Protocol

inductive PlaneCall
  | encode (call : EncodeCall)
  | decode (input output : Bytes)

inductive PlaneAnswer
  | encoded (result : Except DataPlaneError Bytes)
  | decoded (result : Except DataPlaneError Decoded)

structure TunnelHalves where
  sender : TunnelSender
  receiver : TunnelReceiver

def TunnelDataPlane.answer (p : TunnelDataPlane) : PlaneCall → TunnelDataPlane × PlaneAnswer
  | .encode call =>
    let (p, result) := p.call call
    (p, .encoded result)
  | .decode input _ =>
    let (p, result) := p.decode input
    (p, .decoded result)

def TunnelReceiver.receive (r : TunnelReceiver) (input output : Bytes) :
    TunnelReceiver × Except DataPlaneError Decoded :=
  match Datagram.decode input with
  | .error e => (r, .error (.outer e))
  | .ok datagram =>
    let (r, _, result) := r.decodeInto datagram output
    (r, result)

namespace TunnelHalves

def ofPlane (p : TunnelDataPlane) : TunnelHalves := ⟨p.split.1, p.split.2⟩

def answer (h : TunnelHalves) : PlaneCall → TunnelHalves × PlaneAnswer
  | .encode call =>
    let (sender, result) := h.sender.call call
    ({ h with sender }, .encoded result)
  | .decode input output =>
    let (receiver, result) := h.receiver.receive input output
    ({ h with receiver }, .decoded result)

end TunnelHalves

theorem Ipv4Packet.bytes_in_buffer {mtu : ℕ} {kind : UInt8} {payload : Bytes} {ip : Ipv4Packet}
    (h : parseWithinMtu mtu payload = .ok ip) :
    (List.drop 1 (kind :: payload)).take ip.bytes.length = ip.bytes := by
  obtain ⟨hbytes, -, hlength⟩ := Ipv4Packet.parse_ok (parseWithinMtu_ok h)
  rw [hbytes, List.length_take, min_eq_left hlength]
  rfl

theorem InnerPacket.decode_payload {plaintext : Bytes} {inner : InnerPacket}
    (h : InnerPacket.decode plaintext = .ok inner) : ∃ kind, plaintext = kind :: inner.payload := by
  cases plaintext with
  | nil => simp [InnerPacket.decode] at h
  | cons kind payload =>
    refine ⟨kind, ?_⟩
    cases hk : InnerPacketKind.tryFrom kind with
    | error e => simp [InnerPacket.decode, hk] at h
    | ok inner' =>
      simp only [InnerPacket.decode, hk, Except.ok.injEq] at h
      rw [← h]

theorem interpret_eq (mtu : ℕ) (kind : PacketKind) (plaintext : Bytes) :
    TunnelReceiver.interpret mtu kind plaintext = TunnelDataPlane.interpret mtu kind plaintext := by
  unfold TunnelReceiver.interpret TunnelDataPlane.interpret
  cases hd : InnerPacket.decode plaintext with
  | error e => rfl
  | ok inner =>
    obtain ⟨byte, rfl⟩ := InnerPacket.decode_payload hd
    cases hp : parseWithinMtu mtu inner.payload with
    | error e => simp only [hp]
    | ok ip => simp only [hp, Ipv4Packet.bytes_in_buffer hp]

namespace TunnelHalves

structure Of (h : TunnelHalves) (p : TunnelDataPlane) : Prop where
  sender : ∃ plaintext, h.sender = { p.split.1 with plaintext := plaintext }
  receiver : h.receiver = p.split.2

theorem of_ofPlane (p : TunnelDataPlane) : (ofPlane p).Of p := ⟨⟨[], rfl⟩, rfl⟩

end TunnelHalves

def TunnelSender.SameAnswer (r r' : TunnelSender × Bytes × Except DataPlaneError Unit) : Prop :=
  (∃ s buffer buffer' e, r = (s, buffer, .error e) ∧ r' = (s, buffer', .error e)) ∨
    ∃ s datagram, r = (s, datagram, .ok ()) ∧ r' = (s, datagram, .ok ())

theorem TunnelSender.encodeInto_stale (s : TunnelSender) (kind : PacketKind)
    (innerKind : InnerPacketKind) (payload output output' : Bytes) :
    SameAnswer (s.encodeInto kind innerKind payload output)
      (s.encodeInto kind innerKind payload output') := by
  rcases encodeInto_cases s kind innerKind payload output with
    ⟨hn, he⟩ | ⟨e, hn, hx, he⟩ | ⟨next, ciphertext, hn, hx, he⟩
  · rcases encodeInto_cases s kind innerKind payload output' with
      ⟨-, he'⟩ | ⟨_, hn', -⟩ | ⟨_, _, hn', -⟩
    · exact Or.inl ⟨_, _, _, _, he, he'⟩
    · simp [hn] at hn'
    · simp [hn] at hn'
  · rcases encodeInto_cases s kind innerKind payload output' with
      ⟨hn', -⟩ | ⟨_, -, hx', he'⟩ | ⟨_, _, -, hx', -⟩
    · simp [hn'] at hn
    · rw [hx, Except.error.injEq] at hx'
      rw [← hx'] at he'
      exact Or.inl ⟨_, _, _, _, he, he'⟩
    · rw [hx] at hx'
      cases hx'
  · rcases encodeInto_cases s kind innerKind payload output' with
      ⟨hn', -⟩ | ⟨_, -, hx', -⟩ | ⟨_, _, hn', hx', he'⟩
    · simp [hn] at hn'
    · rw [hx] at hx'
      cases hx'
    · rw [hx, Except.ok.injEq] at hx'
      rw [hn, Option.some.injEq] at hn'
      rw [← hx', ← hn'] at he'
      exact Or.inr ⟨_, _, he, he'⟩

theorem TunnelSender.encodeIpInto_stale (s : TunnelSender) (packet output output' : Bytes) :
    SameAnswer (s.encodeIpInto packet output) (s.encodeIpInto packet output') := by
  unfold encodeIpInto
  cases parseWithinMtu s.mtu packet with
  | error e => exact Or.inl ⟨_, _, _, _, rfl, rfl⟩
  | ok ip => exact s.encodeInto_stale .data .data ip.bytes output output'

theorem TunnelSender.encodeInto_eq (p : TunnelDataPlane) (scratch : Bytes) (kind : PacketKind)
    (inner : InnerPacket) (output : Bytes) :
    let r := ({ p.split.1 with plaintext := scratch } : TunnelSender).encodeInto kind inner.kind
      inner.payload output
    (∃ plaintext, r.1 = { (p.encode kind inner.encode).1.split.1 with plaintext := plaintext }) ∧
      (r.2.2.map fun _ => r.2.1) = (p.encode kind inner.encode).2 ∧
      (p.encode kind inner.encode).1.split.2 = p.split.2 := by
  rcases encodeInto_cases { p.split.1 with plaintext := scratch } kind inner.kind inner.payload
    output with ⟨hn, he⟩ | ⟨e, hn, hx, he⟩ | ⟨next, ciphertext, hn, hx, he⟩
  · have hp : p.encode kind inner.encode = (p, .error .sequenceExhausted) := by
      simp only [TunnelDataPlane.encode]
      rw [show checkedAdd p.nextSequence 1 = none from hn]
    rw [he, hp]
    exact ⟨⟨scratch, rfl⟩, rfl, rfl⟩
  · obtain ⟨next, hn⟩ := Option.isSome_iff_exists.mp hn
    have hp : p.encode kind inner.encode = (p, .error (.crypto e)) := by
      simp only [TunnelDataPlane.encode]
      rw [show checkedAdd p.nextSequence 1 = some next from hn]
      simp only
      rw [show p.crypto.encrypt p.nextSequence inner.encode = .error e from hx]
    rw [he, hp]
    exact ⟨⟨_, rfl⟩, rfl, rfl⟩
  · have hp : p.encode kind inner.encode = ({ p with nextSequence := next },
        .ok (p.split.1.datagram kind ciphertext).encode) := by
      simp only [TunnelDataPlane.encode]
      rw [show checkedAdd p.nextSequence 1 = some next from hn]
      simp only
      rw [show p.crypto.encrypt p.nextSequence inner.encode = .ok ciphertext from hx]
      rfl
    rw [he, hp]
    exact ⟨⟨_, rfl⟩, rfl, rfl⟩

theorem TunnelHalves.Of.encode {h : TunnelHalves} {p : TunnelDataPlane} (hp : h.Of p)
    (call : EncodeCall) :
    (h.sender.call call).2 = (p.call call).2 ∧
      TunnelHalves.Of ⟨(h.sender.call call).1, h.receiver⟩ (p.call call).1 := by
  obtain ⟨scratch, hs⟩ := hp.sender
  rw [hs, hp.receiver]
  cases call with
  | keepalive output =>
    obtain ⟨sender, result, receiver⟩ :=
      TunnelSender.encodeInto_eq p scratch .keepalive ⟨.keepalive, []⟩ output
    exact ⟨result, sender, receiver.symm⟩
  | ip packet output =>
    cases hi : parseWithinMtu p.mtu packet with
    | error e =>
      simp only [TunnelSender.call, TunnelSender.encodeIpInto, TunnelDataPlane.call,
        TunnelDataPlane.encodeIp]
      rw [show parseWithinMtu p.split.1.mtu packet = .error e from hi, hi]
      exact ⟨rfl, ⟨scratch, rfl⟩, rfl⟩
    | ok ip =>
      obtain ⟨sender, result, receiver⟩ :=
        TunnelSender.encodeInto_eq p scratch .data ⟨.data, ip.bytes⟩ output
      simp only [TunnelSender.call, TunnelSender.encodeIpInto, TunnelDataPlane.call,
        TunnelDataPlane.encodeIp]
      rw [show parseWithinMtu p.split.1.mtu packet = .ok ip from hi, hi]
      exact ⟨result, sender, receiver.symm⟩

theorem TunnelReceiver.receive_eq (p : TunnelDataPlane) (input output : Bytes) :
    p.split.2.receive input output = ((p.decode input).1.split.2, (p.decode input).2) ∧
      (p.decode input).1.split.1 = p.split.1 := by
  unfold TunnelReceiver.receive TunnelDataPlane.decode
  cases hd : Datagram.decode input with
  | error e => exact ⟨rfl, rfl⟩
  | ok d =>
    simp only
    by_cases hs : d.header.sessionId ≠ p.sessionId
    · have hr : p.split.2.decodeInto d output = (p.split.2, output, .error .sessionMismatch) :=
        if_pos hs
      rw [hr, if_pos hs]
      exact ⟨rfl, rfl⟩
    rw [if_neg hs]
    by_cases hk : d.header.kind ≠ .data ∧ d.header.kind ≠ .keepalive
    · have hr : p.split.2.decodeInto d output =
          (p.split.2, output, .error (.unexpectedPacketKind d.header.kind)) :=
        (if_neg hs).trans (if_pos hk)
      rw [hr, if_pos hk]
      exact ⟨rfl, rfl⟩
    rw [if_neg hk, show p.split.2.decodeInto d output = _ from (if_neg hs).trans (if_neg hk)]
    simp only [Vec.resize_length, ReceiveHalf.decryptInto, SecureSession.decrypt,
      TunnelDataPlane.split, SecureSession.split]
    generalize Crypto.decryptInto p.crypto.transport p.crypto.receiveWindow d.header.sequence
      d.payload d.payload.length = opened
    obtain ⟨window, e | plaintext⟩ := opened
    · exact ⟨rfl, rfl⟩
    · have hbuffer := Vec.take_overwrite (Vec.resize output d.payload.length) plaintext
        (Nat.zero_le _)
      simp only [zero_add, List.take_zero, List.nil_append] at hbuffer
      simp only [hbuffer, interpret_eq]
      exact ⟨trivial, trivial⟩

theorem TunnelHalves.Of.decode {h : TunnelHalves} {p : TunnelDataPlane} (hp : h.Of p)
    (input output : Bytes) :
    (h.receiver.receive input output).2 = (p.decode input).2 ∧
      TunnelHalves.Of ⟨h.sender, (h.receiver.receive input output).1⟩ (p.decode input).1 := by
  obtain ⟨received, sending⟩ := TunnelReceiver.receive_eq p input output
  rw [hp.receiver, received]
  refine ⟨rfl, ?_, rfl⟩
  rw [sending]
  exact hp.sender

theorem TunnelHalves.simulates_plane :
    Machine.Simulates TunnelHalves.answer TunnelDataPlane.answer TunnelHalves.Of := by
  intro h p call hp
  cases call with
  | encode call =>
    obtain ⟨result, next⟩ := hp.encode call
    exact ⟨congrArg PlaneAnswer.encoded result, next⟩
  | decode input output =>
    obtain ⟨result, next⟩ := hp.decode input output
    exact ⟨congrArg PlaneAnswer.decoded result, next⟩

theorem TunnelHalves.Of.counters {h : TunnelHalves} {p : TunnelDataPlane} (hp : h.Of p) :
    h.sender.nextSequence = p.nextSequence ∧
      h.receiver.crypto.receiveWindow = p.crypto.receiveWindow := by
  obtain ⟨scratch, hs⟩ := hp.sender
  rw [hs, hp.receiver]
  exact ⟨rfl, rfl⟩

/-- The halves of any plane answer every sequence of calls as the plane itself would, over
buffers with any contents, and agree with it on the sequence counter and the replay window
after each call. -/
theorem halves_equivalent_to_plane (p : TunnelDataPlane) (calls : List PlaneCall) :
    Machine.outputs TunnelHalves.answer (TunnelHalves.ofPlane p) calls =
        Machine.outputs TunnelDataPlane.answer p calls ∧
      ∀ past, past <+: calls →
        let halves := Machine.run TunnelHalves.answer (TunnelHalves.ofPlane p) past
        let plane := Machine.run TunnelDataPlane.answer p past
        halves.sender.nextSequence = plane.nextSequence ∧
          halves.receiver.crypto.receiveWindow = plane.crypto.receiveWindow := by
  have start := TunnelHalves.of_ofPlane p
  refine ⟨TunnelHalves.simulates_plane.outputs start calls, ?_⟩
  intro past _
  exact (TunnelHalves.simulates_plane.run start past).counters

end MouseVpn.DataPlane
