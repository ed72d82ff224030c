import MouseVpn.Lib.BigEndian

/-!
# Outer datagrams and inner packets

The 20-byte outer header, the datagram that carries it, and the one-byte inner
framing of an authenticated plaintext. All integers are big-endian.
-/

namespace MouseVpn.Protocol

open MouseVpn.Lib MouseVpn.Lib.BigEndian

def version : UInt8 := 1

def headerLen : ℕ := 20

inductive DecodeError
  | truncated (actual minimum : ℕ)
  | unsupportedVersion (value : UInt8)
  | unknownPacketKind (value : UInt8)
  | invalidHeader
  deriving DecidableEq, Repr

inductive PacketKind
  | handshakeInit
  | handshakeResponse
  | data
  | keepalive
  | close
  deriving DecidableEq, Repr

def PacketKind.toByte : PacketKind → UInt8
  | .handshakeInit => 1
  | .handshakeResponse => 2
  | .data => 3
  | .keepalive => 4
  | .close => 5

def PacketKind.tryFrom (value : UInt8) : Except DecodeError PacketKind :=
  match value with
  | 1 => .ok .handshakeInit
  | 2 => .ok .handshakeResponse
  | 3 => .ok .data
  | 4 => .ok .keepalive
  | 5 => .ok .close
  | value => .error (.unknownPacketKind value)

theorem PacketKind.tryFrom_toByte (kind : PacketKind) :
    PacketKind.tryFrom kind.toByte = .ok kind := by
  cases kind <;> rfl

structure Header where
  kind : PacketKind
  flags : UInt16
  sessionId : UInt64
  sequence : UInt64
  deriving DecidableEq, Repr

def Header.encode (h : Header) : Bytes :=
  [version, h.kind.toByte] ++ beBytes 2 h.flags.toNat ++ beBytes 8 h.sessionId.toNat ++
    beBytes 8 h.sequence.toNat

/-- `InvalidHeader` is unreachable: both eight-byte slices exist once the length is checked. -/
def Header.decode (input : Bytes) : Except DecodeError Header :=
  if input.length < headerLen then .error (.truncated input.length headerLen)
  else if input.getD 0 0 ≠ version then .error (.unsupportedVersion (input.getD 0 0))
  else
    match PacketKind.tryFrom (input.getD 1 0) with
    | .error e => .error e
    | .ok kind => .ok
        { kind
          flags := UInt16.ofNat (beNat ((input.drop 2).take 2))
          sessionId := UInt64.ofNat (beNat ((input.drop 4).take 8))
          sequence := UInt64.ofNat (beNat ((input.drop 12).take 8)) }

structure Datagram where
  header : Header
  payload : Bytes
  deriving DecidableEq, Repr

def Datagram.encode (d : Datagram) : Bytes := d.header.encode ++ d.payload

def Datagram.decode (input : Bytes) : Except DecodeError Datagram :=
  match Header.decode input with
  | .error e => .error e
  | .ok header => .ok ⟨header, input.drop headerLen⟩

@[simp] theorem Header.encode_length (h : Header) : h.encode.length = headerLen := by
  simp [Header.encode, headerLen]

theorem Header.decode_encode_append (h : Header) (payload : Bytes) :
    Header.decode (h.encode ++ payload) = .ok h := by
  have hf : beNat (beBytes 2 h.flags.toNat) = h.flags.toNat :=
    beNat_beBytes_of_lt h.flags.toNat_lt
  have hi : beNat (beBytes 8 h.sessionId.toNat) = h.sessionId.toNat :=
    beNat_beBytes_of_lt h.sessionId.toNat_lt
  have hs : beNat (beBytes 8 h.sequence.toNat) = h.sequence.toNat :=
    beNat_beBytes_of_lt h.sequence.toNat_lt
  have hlen : ¬ (h.encode ++ payload).length < headerLen := by simp
  have h0 : (h.encode ++ payload).getD 0 0 = version := rfl
  have h1 : (h.encode ++ payload).getD 1 0 = h.kind.toByte := rfl
  have e1 : ((h.encode ++ payload).drop 2).take 2 = beBytes 2 h.flags.toNat := by
    simp [Header.encode]
  have e2 : ((h.encode ++ payload).drop 4).take 8 = beBytes 8 h.sessionId.toNat := by
    simp [Header.encode]
  have e3 : ((h.encode ++ payload).drop 12).take 8 = beBytes 8 h.sequence.toNat := by
    simp [Header.encode, List.drop_append, List.take_append]
  simp only [Header.decode, if_neg hlen, h0, h1, ne_eq, not_true_eq_false, if_false,
    PacketKind.tryFrom_toByte, e1, e2, e3, hf, hi, hs, UInt16.ofNat_toNat, UInt64.ofNat_toNat]

theorem Datagram.decode_encode (d : Datagram) : Datagram.decode d.encode = .ok d := by
  have hd : (d.header.encode ++ d.payload).drop headerLen = d.payload := by
    rw [← Header.encode_length d.header, List.drop_left]
  simp only [Datagram.decode, Datagram.encode, Header.decode_encode_append, hd]

inductive InnerDecodeError
  | empty
  | unknownKind (value : UInt8)
  deriving DecidableEq, Repr

inductive InnerPacketKind
  | data
  | keepalive
  | close
  deriving DecidableEq, Repr

def InnerPacketKind.toByte : InnerPacketKind → UInt8
  | .data => 1
  | .keepalive => 2
  | .close => 3

def InnerPacketKind.tryFrom (value : UInt8) : Except InnerDecodeError InnerPacketKind :=
  match value with
  | 1 => .ok .data
  | 2 => .ok .keepalive
  | 3 => .ok .close
  | value => .error (.unknownKind value)

theorem InnerPacketKind.tryFrom_toByte (kind : InnerPacketKind) :
    InnerPacketKind.tryFrom kind.toByte = .ok kind := by
  cases kind <;> rfl

structure InnerPacket where
  kind : InnerPacketKind
  payload : Bytes
  deriving DecidableEq, Repr

def InnerPacket.encode (p : InnerPacket) : Bytes := p.kind.toByte :: p.payload

def InnerPacket.decode : Bytes → Except InnerDecodeError InnerPacket
  | [] => .error .empty
  | kind :: payload =>
    match InnerPacketKind.tryFrom kind with
    | .error e => .error e
    | .ok kind => .ok ⟨kind, payload⟩

theorem InnerPacket.decode_cons_toByte (kind : InnerPacketKind) (payload : Bytes) :
    InnerPacket.decode (kind.toByte :: payload) = .ok ⟨kind, payload⟩ := by
  simp only [InnerPacket.decode, InnerPacketKind.tryFrom_toByte]

end MouseVpn.Protocol
