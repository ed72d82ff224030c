import MouseVpn.Crypto.Session
import MouseVpn.DataPlane.Ipv4
import MouseVpn.Protocol.Datagram

/-!
# The tunnel data plane

`TunnelDataPlane` owns both directions of a session and allocates its results.
Its halves `TunnelSender` and `TunnelReceiver` write into caller-owned buffers,
which arrive with arbitrary contents. A sender commits its next sequence only
when the datagram is complete; a receiver's window is committed by decryption,
before the plaintext is looked at.
-/

namespace MouseVpn.DataPlane

open MouseVpn.Lib MouseVpn.Crypto MouseVpn.Protocol

inductive DataPlaneError
  | crypto (error : CryptoError)
  | outer (error : DecodeError)
  | inner (error : InnerDecodeError)
  | ip (error : Ipv4PacketError)
  | unexpectedPacketKind (kind : PacketKind)
  | unexpectedInnerPacketKind (kind : InnerPacketKind)
  | sessionMismatch
  | packetExceedsMtu (actual mtu : ℕ)
  | sequenceExhausted
  deriving DecidableEq, Repr

/-- `Decoded` and `DecodedPacket`: the same two cases, borrowed and owned. -/
inductive Decoded
  | ip (packet : Bytes)
  | keepalive
  deriving DecidableEq, Repr

/-- `Ipv4Packet::parse` followed by the comparison with the tunnel MTU. -/
def parseWithinMtu (mtu : ℕ) (packet : Bytes) : Except DataPlaneError Ipv4Packet :=
  match Ipv4Packet.parse packet with
  | .error e => .error (.ip e)
  | .ok ip =>
    if ip.bytes.length > mtu then .error (.packetExceedsMtu ip.bytes.length mtu) else .ok ip

theorem parseWithinMtu_ok {mtu : ℕ} {packet : Bytes} {ip : Ipv4Packet}
    (h : parseWithinMtu mtu packet = .ok ip) : Ipv4Packet.parse packet = .ok ip := by
  unfold parseWithinMtu at h
  cases hp : Ipv4Packet.parse packet with
  | error e => simp [hp] at h
  | ok ip' =>
    simp only [hp] at h
    split_ifs at h
    simpa using h

structure TunnelSender where
  sessionId : UInt64
  nextSequence : UInt64
  mtu : ℕ
  crypto : SendHalf
  plaintext : Bytes

namespace TunnelSender

def encodeInto (s : TunnelSender) (kind : PacketKind) (innerKind : InnerPacketKind)
    (payload output : Bytes) : TunnelSender × Bytes × Except DataPlaneError Unit :=
  let sequence := s.nextSequence
  match checkedAdd sequence 1 with
  | none => (s, output, .error .sequenceExhausted)
  | some next =>
    let plaintext := innerKind.toByte :: payload
    let s := { s with plaintext }
    let output := Vec.resize output (headerLen + plaintext.length + authTagLen)
    match s.crypto.encryptInto sequence plaintext (output.length - headerLen) with
    | .error e => (s, output, .error (.crypto e))
    | .ok written =>
      let output := (Vec.overwrite output headerLen written).take (headerLen + written.length)
      let header : Header := { kind, flags := 0, sessionId := s.sessionId, sequence }
      ({ s with nextSequence := next }, Vec.overwrite output 0 header.encode, .ok ())

def encodeIpInto (s : TunnelSender) (ipPacket output : Bytes) :
    TunnelSender × Bytes × Except DataPlaneError Unit :=
  match parseWithinMtu s.mtu ipPacket with
  | .error e => (s, output, .error e)
  | .ok ip => s.encodeInto .data .data ip.bytes output

def encodeKeepaliveInto (s : TunnelSender) (output : Bytes) :
    TunnelSender × Bytes × Except DataPlaneError Unit :=
  s.encodeInto .keepalive .keepalive [] output

def datagram (s : TunnelSender) (kind : PacketKind) (ciphertext : Bytes) : Datagram :=
  ⟨{ kind, flags := 0, sessionId := s.sessionId, sequence := s.nextSequence }, ciphertext⟩

theorem encodeInto_cases (s : TunnelSender) (kind : PacketKind) (innerKind : InnerPacketKind)
    (payload output : Bytes) :
    (checkedAdd s.nextSequence 1 = none ∧
      s.encodeInto kind innerKind payload output = (s, output, .error .sequenceExhausted)) ∨
    (∃ e, (checkedAdd s.nextSequence 1).isSome ∧
      s.crypto.encryptInto s.nextSequence (innerKind.toByte :: payload)
        (payload.length + 1 + authTagLen) = .error e ∧
      s.encodeInto kind innerKind payload output =
        ({ s with plaintext := innerKind.toByte :: payload },
          Vec.resize output (headerLen + (payload.length + 1) + authTagLen),
          .error (.crypto e))) ∨
    (∃ next ciphertext, checkedAdd s.nextSequence 1 = some next ∧
      s.crypto.encryptInto s.nextSequence (innerKind.toByte :: payload)
        (payload.length + 1 + authTagLen) = .ok ciphertext ∧
      s.encodeInto kind innerKind payload output =
        ({ s with plaintext := innerKind.toByte :: payload, nextSequence := next },
          (s.datagram kind ciphertext).encode, .ok ())) := by
  have hcap : (Vec.resize output (headerLen + (payload.length + 1) + authTagLen)).length -
      headerLen = payload.length + 1 + authTagLen := by
    rw [Vec.resize_length]
    omega
  cases hn : checkedAdd s.nextSequence 1 with
  | none => exact Or.inl ⟨rfl, by simp only [encodeInto, hn]⟩
  | some next =>
    cases he : s.crypto.encryptInto s.nextSequence (innerKind.toByte :: payload)
        (payload.length + 1 + authTagLen) with
    | error e =>
      refine Or.inr (Or.inl ⟨e, rfl, rfl, ?_⟩)
      simp only [encodeInto, hn, List.length_cons, hcap, he]
    | ok ciphertext =>
      refine Or.inr (Or.inr ⟨next, ciphertext, rfl, rfl, ?_⟩)
      simp only [encodeInto, hn, List.length_cons, hcap, he]
      have hle : headerLen ≤
          (Vec.resize output (headerLen + (payload.length + 1) + authTagLen)).length := by
        rw [Vec.resize_length]
        omega
      rw [Vec.take_overwrite _ _ hle]
      have hfront : (List.take headerLen
          (Vec.resize output (headerLen + (payload.length + 1) + authTagLen))).length =
          headerLen := by
        rw [List.length_take, min_eq_left hle]
      simp only [Vec.overwrite, List.take_zero, List.nil_append, zero_add, Header.encode_length,
        datagram, Datagram.encode]
      rw [List.drop_append, hfront, List.drop_of_length_le hfront.le]
      simp

end TunnelSender

structure TunnelReceiver where
  sessionId : UInt64
  mtu : ℕ
  crypto : ReceiveHalf

namespace TunnelReceiver

def interpret (mtu : ℕ) (kind : PacketKind) (output : Bytes) : Except DataPlaneError Decoded :=
  match InnerPacket.decode output with
  | .error e => .error (.inner e)
  | .ok inner =>
    match kind, inner.kind with
    | .data, .data =>
      match parseWithinMtu mtu inner.payload with
      | .error e => .error e
      | .ok ip => .ok (.ip ((output.drop 1).take ip.bytes.length))
    | .keepalive, .keepalive =>
      if inner.payload.isEmpty then .ok .keepalive
      else .error (.unexpectedInnerPacketKind .keepalive)
    | _, kind => .error (.unexpectedInnerPacketKind kind)

def decodeInto (r : TunnelReceiver) (datagram : Datagram) (output : Bytes) :
    TunnelReceiver × Bytes × Except DataPlaneError Decoded :=
  if datagram.header.sessionId ≠ r.sessionId then (r, output, .error .sessionMismatch)
  else if datagram.header.kind ≠ .data ∧ datagram.header.kind ≠ .keepalive then
    (r, output, .error (.unexpectedPacketKind datagram.header.kind))
  else
    let output := Vec.resize output datagram.payload.length
    match r.crypto.decryptInto datagram.header.sequence datagram.payload output.length with
    | (crypto, .error e) => ({ r with crypto }, output, .error (.crypto e))
    | (crypto, .ok written) =>
      let output := (Vec.overwrite output 0 written).take written.length
      ({ r with crypto }, output, interpret r.mtu datagram.header.kind output)

end TunnelReceiver

structure TunnelDataPlane where
  sessionId : UInt64
  nextSequence : UInt64
  mtu : ℕ
  crypto : SecureSession

namespace TunnelDataPlane

def new (sessionId : UInt64) (mtu : ℕ) (crypto : SecureSession) : TunnelDataPlane :=
  { sessionId, nextSequence := 0, mtu, crypto }

def split (p : TunnelDataPlane) : TunnelSender × TunnelReceiver :=
  let (send, receive) := p.crypto.split
  ({ sessionId := p.sessionId, nextSequence := p.nextSequence, mtu := p.mtu, crypto := send,
      plaintext := [] },
    { sessionId := p.sessionId, mtu := p.mtu, crypto := receive })

def encode (p : TunnelDataPlane) (kind : PacketKind) (inner : Bytes) :
    TunnelDataPlane × Except DataPlaneError Bytes :=
  let sequence := p.nextSequence
  match checkedAdd sequence 1 with
  | none => (p, .error .sequenceExhausted)
  | some next =>
    match p.crypto.encrypt sequence inner with
    | .error e => (p, .error (.crypto e))
    | .ok ciphertext =>
      let header : Header := { kind, flags := 0, sessionId := p.sessionId, sequence }
      ({ p with nextSequence := next }, .ok (Datagram.encode ⟨header, ciphertext⟩))

def encodeIp (p : TunnelDataPlane) (ipPacket : Bytes) :
    TunnelDataPlane × Except DataPlaneError Bytes :=
  match parseWithinMtu p.mtu ipPacket with
  | .error e => (p, .error e)
  | .ok ip => p.encode .data (InnerPacket.encode ⟨.data, ip.bytes⟩)

def encodeKeepalive (p : TunnelDataPlane) : TunnelDataPlane × Except DataPlaneError Bytes :=
  p.encode .keepalive (InnerPacket.encode ⟨.keepalive, []⟩)

def interpret (mtu : ℕ) (kind : PacketKind) (plaintext : Bytes) :
    Except DataPlaneError Decoded :=
  match InnerPacket.decode plaintext with
  | .error e => .error (.inner e)
  | .ok inner =>
    match kind, inner.kind with
    | .data, .data =>
      match parseWithinMtu mtu inner.payload with
      | .error e => .error e
      | .ok ip => .ok (.ip ip.bytes)
    | .keepalive, .keepalive =>
      if inner.payload.isEmpty then .ok .keepalive
      else .error (.unexpectedInnerPacketKind .keepalive)
    | _, kind => .error (.unexpectedInnerPacketKind kind)

def decode (p : TunnelDataPlane) (input : Bytes) :
    TunnelDataPlane × Except DataPlaneError Decoded :=
  match Datagram.decode input with
  | .error e => (p, .error (.outer e))
  | .ok datagram =>
    if datagram.header.sessionId ≠ p.sessionId then (p, .error .sessionMismatch)
    else if datagram.header.kind ≠ .data ∧ datagram.header.kind ≠ .keepalive then
      (p, .error (.unexpectedPacketKind datagram.header.kind))
    else
      match p.crypto.decrypt datagram.header.sequence datagram.payload with
      | (crypto, .error e) => ({ p with crypto }, .error (.crypto e))
      | (crypto, .ok plaintext) =>
        ({ p with crypto }, interpret p.mtu datagram.header.kind plaintext)

end TunnelDataPlane

end MouseVpn.DataPlane
