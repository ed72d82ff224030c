import MouseVpn.Lib.Cursor

/-!
# The packet batches between Swift and Rust

Both sides have an encoder and a decoder for the same format: the number of packets, then each
packet behind its length, all numbers in four big-endian bytes. A slice is shorter than half of the
address space, so that positions in it do not overflow.
-/

namespace MouseVpn.Apple

open MouseVpn.Lib MouseVpn.Lib.BigEndian

inductive AppleClientError
  | new (message : String)
  deriving DecidableEq, Repr

def maxFramedPacket : ℕ := 65535

def maxPacketBatch : ℕ := 32

namespace Ffi

/-- `input.get(start..stop)`. -/
def get (input : Bytes) (start stop : ℕ) : Option Bytes :=
  if start ≤ stop ∧ stop ≤ input.length then some ((input.drop start).take (stop - start)) else none

def readU32 (input : Bytes) : CursorReader AppleClientError UInt32 := fun cursor =>
  match get input cursor (cursor + 4) with
  | none => .error (.failed ⟨"truncated packet batch"⟩)
  | some bytes =>
    if bytes.length = 4 then .ok (UInt32.ofNat (beNat bytes), cursor + 4)
    else .error (.failed ⟨"invalid packet batch header"⟩)

def readPacket (input : Bytes) : CursorReader AppleClientError Bytes := fun cursor =>
  readU32 input cursor >>= fun (length, cursor) =>
    if length.toNat = 0 ∨ maxFramedPacket < length.toNat then
      .error (.failed ⟨"invalid framed packet length"⟩)
    else
      subtract input.length cursor >>= fun left =>
        if left < length.toNat then .error (.failed ⟨"invalid framed packet length"⟩)
        else
          slice input cursor (cursor + length.toNat) >>= fun packet =>
            .ok (packet, cursor + length.toNat)

def decodeBatch (input : Bytes) : Except (Fault AppleClientError) (List Bytes) :=
  readU32 input 0 >>= fun (count, cursor) =>
    if 1 ≤ count.toNat ∧ count.toNat ≤ maxPacketBatch then
      readMany (readPacket input) count.toNat cursor >>= fun (packets, cursor) =>
        if cursor ≠ input.length then .error (.failed ⟨"trailing bytes in packet batch"⟩)
        else .ok packets
    else .error (.failed ⟨"invalid packet batch count"⟩)

def writeU32 (output : Bytes) (value : ℕ) : Except AppleClientError Bytes :=
  if value < 2 ^ 32 then .ok (output ++ beBytes 4 value) else .error ⟨"packet batch is too large"⟩

def writePackets : List Bytes → Bytes → Except AppleClientError Bytes
  | [], output => .ok output
  | packet :: packets, output =>
    writeU32 output packet.length >>= fun output => writePackets packets (output ++ packet)

def encodeBatch (packets : List Bytes) : Except AppleClientError Bytes :=
  writeU32 [] packets.length >>= writePackets packets

end Ffi

inductive RustBridgeError
  | invalidPacketBatch
  deriving DecidableEq, Repr

namespace PacketBatchCodec

def maximumPackets : ℕ := 32

/-- `UInt32(exactly:)` is nil for what does not fit. -/
def appendUInt32 (value : ℕ) (output : Bytes) : Except RustBridgeError Bytes :=
  if value < 2 ^ 32 then .ok (output ++ beBytes 4 value) else .error .invalidPacketBatch

def appendPackets : List Bytes → Bytes → Except RustBridgeError Bytes
  | [], output => .ok output
  | packet :: packets, output =>
    if packet.isEmpty then .error .invalidPacketBatch
    else appendUInt32 packet.length output >>= fun output =>
      appendPackets packets (output ++ packet)

def encode (packets : List Bytes) : Except RustBridgeError Bytes :=
  if 1 ≤ packets.length ∧ packets.length ≤ maximumPackets then
    appendUInt32 packets.length [] >>= appendPackets packets
  else .error .invalidPacketBatch

def shiftIn (value : UInt32) (byte : UInt8) : UInt32 := value <<< 8 ||| byte.toUInt32

/-- The difference of two `Int` may be negative. -/
def readUInt32 (data : Bytes) : CursorReader RustBridgeError UInt32 := fun offset =>
  if (data.length : ℤ) - offset ≥ 4 then
    slice data offset (offset + 4) >>= fun bytes => .ok (bytes.foldl shiftIn 0, offset + 4)
  else .error (.failed .invalidPacketBatch)

def readPacket (data : Bytes) : CursorReader RustBridgeError Bytes := fun offset =>
  readUInt32 data offset >>= fun (length, offset) =>
    if 0 < length.toNat ∧ (data.length : ℤ) - offset ≥ length.toNat then
      slice data offset (offset + length.toNat) >>= fun packet =>
        .ok (packet, offset + length.toNat)
    else .error (.failed .invalidPacketBatch)

def decode (data : Bytes) : Except (Fault RustBridgeError) (List Bytes) :=
  readUInt32 data 0 >>= fun (count, offset) =>
    if 1 ≤ count.toNat ∧ count.toNat ≤ maximumPackets then
      readMany (readPacket data) count.toNat offset >>= fun (packets, offset) =>
        if offset = data.length then .ok packets else .error (.failed .invalidPacketBatch)
    else .error (.failed .invalidPacketBatch)

end PacketBatchCodec

def frame (packet : Bytes) : Bytes := beBytes 4 packet.length ++ packet

def batch (packets : List Bytes) : Bytes := beBytes 4 packets.length ++ packets.flatMap frame

variable {input : Bytes} {ε : Type} {limit : ℕ}

theorem reads_number {read : CursorReader ε UInt32} (value : Bytes → UInt32) {error : ε}
    (hread : ∀ cursor, read cursor =
      if cursor + 4 ≤ input.length then .ok (value ((input.drop cursor).take 4), cursor + 4)
      else .error (.failed error))
    (hvalue : ∀ bytes : Bytes, bytes.length = 4 → (value bytes).toNat = beNat bytes) :
    Reads input (fun _ => True) (fun number => beBytes 4 number.toNat) read := by
  constructor
  · intro cursor _
    rw [hread]
    split_ifs <;> simp
  · intro cursor hcursor number next
    rw [hread]
    constructor
    · intro h
      split_ifs at h with hroom
      obtain ⟨rfl, rfl⟩ := Prod.mk.inj (Except.ok.inj h)
      have hfour : ((input.drop cursor).take 4).length = 4 := by simp; omega
      have hback := beBytes_beNat ((input.drop cursor).take 4)
      rw [hfour] at hback
      refine ⟨trivial, hroom, ?_⟩
      rw [hvalue _ hfour, hback, ← List.drop_drop, List.take_append_drop]
    · intro h
      obtain ⟨-, hnext, hdrop⟩ := h
      have hlength := congrArg List.length hdrop
      rw [List.length_drop, List.length_append, beBytes_length, List.length_drop] at hlength
      have hroom : cursor + 4 ≤ input.length := by omega
      have htake : (input.drop cursor).take 4 = beBytes 4 number.toNat := by
        rw [hdrop, List.take_left' (beBytes_length 4 _)]
      have hnumber : value ((input.drop cursor).take 4) = number := by
        apply UInt32.toNat_inj.mp
        rw [htake, hvalue _ (beBytes_length 4 _), beNat_beBytes_of_lt number.toNat_lt]
      rw [if_pos hroom, hnumber]
      have hend : cursor + 4 = next := by omega
      rw [hend]

theorem reads_packet {readNumber : CursorReader ε UInt32} {readPacket : CursorReader ε Bytes}
    (error : ε) (hlimit : limit < 2 ^ 32)
    (reads : Reads input (fun _ => True) (fun number : UInt32 => beBytes 4 number.toNat) readNumber)
    (hpacket : ∀ cursor ≤ input.length, readPacket cursor = readNumber cursor >>= fun length =>
      if 0 < length.1.toNat ∧ length.1.toNat ≤ limit ∧ length.2 + length.1.toNat ≤ input.length then
        .ok ((input.drop length.2).take length.1.toNat, length.2 + length.1.toNat)
      else .error (.failed error)) :
    Reads input (fun packet => 0 < packet.length ∧ packet.length ≤ limit) frame readPacket := by
  constructor
  · intro cursor hcursor
    rw [hpacket cursor hcursor]
    refine bind_ne_panicked (reads.total cursor hcursor) ?_
    intro length _
    split_ifs <;> simp
  · intro cursor hcursor packet next
    rw [hpacket cursor hcursor, bind_eq_ok]
    constructor
    · intro h
      obtain ⟨⟨length, start⟩, hnumber, h⟩ := h
      obtain ⟨-, hstart, hdrop⟩ := (reads.accepts cursor hcursor length start).mp hnumber
      simp only at h
      split_ifs at h with hroom
      obtain ⟨rfl, rfl⟩ := Prod.mk.inj (Except.ok.inj h)
      obtain ⟨hpos, hle, hend⟩ := hroom
      have hlen : ((input.drop start).take length.toNat).length = length.toNat := by simp; omega
      refine ⟨by rw [hlen]; exact ⟨hpos, hle⟩, hend, ?_⟩
      rw [frame, hlen, hdrop, List.append_assoc, ← List.drop_drop, List.take_append_drop]
    · intro h
      obtain ⟨⟨hpos, hle⟩, hnext, hdrop⟩ := h
      have hlt : packet.length < 2 ^ 32 := by omega
      have hnumber : (UInt32.ofNat packet.length).toNat = packet.length :=
        UInt32.toNat_ofNat_of_lt' hlt
      have hlength := congrArg List.length hdrop
      rw [List.length_drop, List.length_append, frame, List.length_append, beBytes_length,
        List.length_drop] at hlength
      have hmid : input.drop (cursor + 4) = packet ++ input.drop next := by
        rw [← List.drop_drop, hdrop, frame, List.append_assoc,
          List.drop_left' (beBytes_length 4 _)]
      refine ⟨(UInt32.ofNat packet.length, cursor + 4), ?_, ?_⟩
      · refine (reads.accepts cursor hcursor _ _).mpr ⟨trivial, by omega, ?_⟩
        rw [hnumber, hmid, hdrop, frame, List.append_assoc]
      · simp only
        rw [hnumber, if_pos ⟨hpos, hle, by omega⟩, hmid, List.take_left]
        have hend : cursor + 4 + packet.length = next := by omega
        rw [hend]

def decodeWith (readNumber : CursorReader ε UInt32) (readPacket : CursorReader ε Bytes)
    (invalidCount trailing : ε) (input : Bytes) : Except (Fault ε) (List Bytes) :=
  readNumber 0 >>= fun count =>
    if 1 ≤ count.1.toNat ∧ count.1.toNat ≤ maxPacketBatch then
      readMany readPacket count.1.toNat count.2 >>= fun packets =>
        if packets.2 = input.length then .ok packets.1 else .error (.failed trailing)
    else .error (.failed invalidCount)

structure Framed (limit : ℕ) (input : Bytes) (packets : List Bytes) : Prop where
  count : 1 ≤ packets.length ∧ packets.length ≤ maxPacketBatch
  packet : ∀ packet ∈ packets, 0 < packet.length ∧ packet.length ≤ limit
  bytes : input = batch packets

section Decoder

variable {readNumber : CursorReader ε UInt32} {readPacket : CursorReader ε Bytes}
  {invalidCount trailing : ε}
  (numbers : Reads input (fun _ => True) (fun number : UInt32 => beBytes 4 number.toNat) readNumber)
  (packets : Reads input (fun packet => 0 < packet.length ∧ packet.length ≤ limit) frame readPacket)
include numbers packets

theorem decodeWith_ne_panicked :
    decodeWith readNumber readPacket invalidCount trailing input ≠ .error .panicked := by
  refine bind_ne_panicked (numbers.total 0 (Nat.zero_le _)) ?_
  intro count hcount
  obtain ⟨-, hstart, -⟩ := (numbers.accepts 0 (Nat.zero_le _) count.1 count.2).mp hcount
  split_ifs
  · refine bind_ne_panicked ((packets.many count.1.toNat).total count.2 hstart) ?_
    intro read _
    split_ifs <;> simp
  · simp

theorem decodeWith_eq_ok_iff {decoded : List Bytes} :
    decodeWith readNumber readPacket invalidCount trailing input = .ok decoded ↔
      Framed limit input decoded := by
  rw [decodeWith, bind_eq_ok]
  constructor
  · intro h
    obtain ⟨⟨count, start⟩, hcount, h⟩ := h
    obtain ⟨-, hstart, hdrop⟩ := (numbers.accepts 0 (Nat.zero_le _) count start).mp hcount
    simp only at h
    split_ifs at h with hrange
    obtain ⟨⟨read, stop⟩, hread, h⟩ := bind_eq_ok.mp h
    simp only at h
    split_ifs at h with hstop
    obtain rfl := Except.ok.inj h
    obtain ⟨⟨hlen, hall⟩, -, hrest⟩ :=
      ((packets.many count.toNat).accepts start hstart read stop).mp hread
    refine ⟨by rw [hlen]; exact hrange, hall, ?_⟩
    rw [hstop, List.drop_length, List.append_nil] at hrest
    rw [List.drop_zero, hrest] at hdrop
    rw [hdrop, batch, hlen]
  · intro framed
    have hlt : decoded.length < 2 ^ 32 := framed.count.2.trans_lt (by decide)
    have hcount : (UInt32.ofNat decoded.length).toNat = decoded.length :=
      UInt32.toNat_ofNat_of_lt' hlt
    have hrest : input.drop 4 = decoded.flatMap frame := by
      rw [framed.bytes, batch, List.drop_left' (beBytes_length 4 _)]
    have hfour : 4 ≤ input.length := by
      rw [framed.bytes, batch, List.length_append, beBytes_length]
      omega
    refine ⟨(UInt32.ofNat decoded.length, 4), ?_, ?_⟩
    · refine (numbers.accepts 0 (Nat.zero_le _) _ _).mpr ⟨trivial, hfour, ?_⟩
      rw [hcount, hrest, List.drop_zero, framed.bytes, batch]
    · simp only
      rw [hcount, if_pos framed.count, bind_eq_ok]
      refine ⟨(decoded, input.length), ?_, if_pos rfl⟩
      refine ((packets.many decoded.length).accepts 4 hfour _ _).mpr
        ⟨⟨rfl, framed.packet⟩, le_refl _, ?_⟩
      rw [hrest, List.drop_length, List.append_nil]

end Decoder

namespace Ffi

theorem readU32_eq (input : Bytes) (cursor : ℕ) : readU32 input cursor =
    if cursor + 4 ≤ input.length then
      .ok (UInt32.ofNat (beNat ((input.drop cursor).take 4)), cursor + 4)
    else .error (.failed ⟨"truncated packet batch"⟩) := by
  by_cases hroom : cursor + 4 ≤ input.length
  · have hfour : ((input.drop cursor).take 4).length = 4 := by simp; omega
    have hget : get input cursor (cursor + 4) = some ((input.drop cursor).take 4) := by
      rw [get, if_pos ⟨Nat.le_add_right _ _, hroom⟩, Nat.add_sub_cancel_left]
    rw [readU32, hget, if_pos hroom]
    simp only [hfour, if_true]
  · have hget : get input cursor (cursor + 4) = none := if_neg fun h => hroom h.2
    rw [readU32, hget, if_neg hroom]

theorem reads_readU32 (input : Bytes) :
    Reads input (fun _ => True) (fun number : UInt32 => beBytes 4 number.toNat)
      (readU32 input) := by
  refine reads_number (fun bytes => UInt32.ofNat (beNat bytes)) (readU32_eq input) ?_
  intro bytes hbytes
  have hlt := beNat_lt bytes
  rw [hbytes] at hlt
  exact UInt32.toNat_ofNat_of_lt' hlt

theorem reads_readPacket (input : Bytes) :
    Reads input (fun packet => 0 < packet.length ∧ packet.length ≤ maxFramedPacket) frame
      (readPacket input) := by
  refine reads_packet ⟨"invalid framed packet length"⟩ (by decide) (reads_readU32 input) ?_
  intro cursor hcursor
  rw [readPacket]
  cases hnumber : readU32 input cursor with
  | error e => rfl
  | ok read =>
    obtain ⟨length, start⟩ := read
    obtain ⟨-, hstart, -⟩ := ((reads_readU32 input).accepts cursor hcursor length start).mp hnumber
    change (if length.toNat = 0 ∨ maxFramedPacket < length.toNat then _ else _) =
      if 0 < length.toNat ∧ length.toNat ≤ maxFramedPacket ∧
        start + length.toNat ≤ input.length then
        Except.ok ((input.drop start).take length.toNat, start + length.toNat)
      else Except.error (Fault.failed (AppleClientError.new "invalid framed packet length"))
    by_cases hbounds : length.toNat = 0 ∨ maxFramedPacket < length.toNat
    · rw [if_pos hbounds, if_neg (by omega)]
    · rw [if_neg hbounds, subtract_of_le hstart]
      change (if input.length - start < length.toNat then _ else _) = _
      by_cases hleft : input.length - start < length.toNat
      · rw [if_pos hleft, if_neg (by omega)]
      · rw [if_neg hleft, if_pos (by omega), slice_of_le (by omega)]
        rfl

theorem decodeBatch_eq (input : Bytes) : decodeBatch input =
    decodeWith (readU32 input) (readPacket input) ⟨"invalid packet batch count"⟩
      ⟨"trailing bytes in packet batch"⟩ input := by
  rw [decodeBatch, decodeWith]
  simp only [ne_eq, ite_not]

theorem decodeBatch_ne_panicked (input : Bytes) : decodeBatch input ≠ .error .panicked := by
  rw [decodeBatch_eq]
  exact decodeWith_ne_panicked (reads_readU32 input) (reads_readPacket input)

theorem decodeBatch_eq_ok_iff {input : Bytes} {packets : List Bytes} :
    decodeBatch input = .ok packets ↔ Framed maxFramedPacket input packets := by
  rw [decodeBatch_eq]
  exact decodeWith_eq_ok_iff (reads_readU32 input) (reads_readPacket input)

theorem writePackets_eq {packets : List Bytes} (h : ∀ packet ∈ packets, packet.length < 2 ^ 32)
    (output : Bytes) : writePackets packets output = .ok (output ++ packets.flatMap frame) := by
  induction packets generalizing output with
  | nil => simp [writePackets]
  | cons packet packets ih =>
    obtain ⟨hpacket, hrest⟩ := List.forall_mem_cons.mp h
    rw [writePackets, writeU32, if_pos hpacket]
    change writePackets packets (output ++ beBytes 4 packet.length ++ packet) = _
    rw [ih hrest, List.flatMap_cons, frame]
    simp only [List.append_assoc]

theorem encodeBatch_eq {packets : List Bytes} (hcount : packets.length < 2 ^ 32)
    (h : ∀ packet ∈ packets, packet.length < 2 ^ 32) :
    encodeBatch packets = .ok (batch packets) := by
  rw [encodeBatch, writeU32, if_pos hcount]
  exact writePackets_eq h (beBytes 4 packets.length)

end Ffi

namespace PacketBatchCodec

theorem shiftIn_toNat {value : UInt32} (h : value.toNat < 2 ^ 24) (byte : UInt8) :
    (shiftIn value byte).toNat = value.toNat * 256 + byte.toNat := by
  have hbyte := byte.toNat_lt
  have hfits : value.toNat <<< 8 < 2 ^ 32 := by
    rw [Nat.shiftLeft_eq]
    omega
  rw [shiftIn, UInt32.toNat_or, UInt32.toNat_shiftLeft, UInt8.toNat_toUInt32]
  change value.toNat <<< 8 % 2 ^ 32 ||| byte.toNat = _
  rw [Nat.mod_eq_of_lt hfits, ← Nat.shiftLeft_add_eq_or_of_lt hbyte, Nat.shiftLeft_eq]

theorem foldl_shiftIn {value : UInt32} {bytes : Bytes} {k : ℕ} (hvalue : value.toNat < 256 ^ k)
    (h : k + bytes.length ≤ 4) :
    (bytes.foldl shiftIn value).toNat = value.toNat * 256 ^ bytes.length + beNat bytes := by
  induction bytes generalizing value k with
  | nil => simp [beNat]
  | cons byte bytes ih =>
    rw [List.length_cons] at h
    have hsmall : value.toNat < 2 ^ 24 :=
      hvalue.trans_le ((Nat.pow_le_pow_right (by decide) (by omega : k ≤ 3)).trans (by decide))
    have hshifted := shiftIn_toNat hsmall byte
    have hnext : (shiftIn value byte).toNat < 256 ^ (k + 1) := by
      have hbyte := byte.toNat_lt
      rw [hshifted, Nat.pow_succ]
      omega
    rw [List.foldl_cons, ih hnext (by omega), hshifted, List.length_cons, beNat, Nat.pow_succ]
    ring

theorem readUInt32_eq (data : Bytes) (offset : ℕ) : readUInt32 data offset =
    if offset + 4 ≤ data.length then
      .ok (((data.drop offset).take 4).foldl shiftIn 0, offset + 4)
    else .error (.failed .invalidPacketBatch) := by
  rw [readUInt32]
  by_cases hroom : offset + 4 ≤ data.length
  · rw [if_pos (by omega), if_pos hroom, slice_of_le hroom]
    rfl
  · rw [if_neg (by omega), if_neg hroom]

theorem reads_readUInt32 (data : Bytes) :
    Reads data (fun _ => True) (fun number : UInt32 => beBytes 4 number.toNat)
      (readUInt32 data) := by
  refine reads_number (fun bytes => bytes.foldl shiftIn 0) (readUInt32_eq data) ?_
  intro bytes hbytes
  have hzero : (0 : UInt32).toNat < 256 ^ 0 := by decide
  rw [foldl_shiftIn hzero (by omega)]
  simp

theorem reads_readPacket (data : Bytes) :
    Reads data (fun packet => 0 < packet.length ∧ packet.length ≤ 2 ^ 32 - 1) frame
      (readPacket data) := by
  refine reads_packet .invalidPacketBatch (by decide) (reads_readUInt32 data) ?_
  intro offset hoffset
  rw [readPacket]
  cases hnumber : readUInt32 data offset with
  | error e => rfl
  | ok read =>
    obtain ⟨length, start⟩ := read
    have hlength := length.toNat_lt
    change (if 0 < length.toNat ∧ (data.length : ℤ) - start ≥ length.toNat then _ else _) =
      if 0 < length.toNat ∧ length.toNat ≤ 2 ^ 32 - 1 ∧ start + length.toNat ≤ data.length then
        Except.ok ((data.drop start).take length.toNat, start + length.toNat)
      else Except.error (Fault.failed RustBridgeError.invalidPacketBatch)
    by_cases hroom : 0 < length.toNat ∧ start + length.toNat ≤ data.length
    · rw [if_pos (by omega), if_pos (by omega), slice_of_le hroom.2]
      rfl
    · rw [if_neg (by omega), if_neg (by omega)]

theorem decode_eq (data : Bytes) : decode data =
    decodeWith (readUInt32 data) (readPacket data) .invalidPacketBatch .invalidPacketBatch data :=
  rfl

theorem decode_ne_panicked (data : Bytes) : decode data ≠ .error .panicked := by
  rw [decode_eq]
  exact decodeWith_ne_panicked (reads_readUInt32 data) (reads_readPacket data)

theorem decode_eq_ok_iff {data : Bytes} {packets : List Bytes} :
    decode data = .ok packets ↔ Framed (2 ^ 32 - 1) data packets := by
  rw [decode_eq]
  exact decodeWith_eq_ok_iff (reads_readUInt32 data) (reads_readPacket data)

theorem appendPackets_eq {packets : List Bytes}
    (h : ∀ packet ∈ packets, 0 < packet.length ∧ packet.length ≤ 2 ^ 32 - 1) (output : Bytes) :
    appendPackets packets output = .ok (output ++ packets.flatMap frame) := by
  induction packets generalizing output with
  | nil => simp [appendPackets]
  | cons packet packets ih =>
    obtain ⟨hpacket, hrest⟩ := List.forall_mem_cons.mp h
    have hnonempty : packet.isEmpty = false := by
      rw [List.isEmpty_eq_false_iff]
      exact List.ne_nil_of_length_pos hpacket.1
    rw [appendPackets, hnonempty, if_neg Bool.false_ne_true, appendUInt32, if_pos (by omega)]
    change appendPackets packets (output ++ beBytes 4 packet.length ++ packet) = _
    rw [ih hrest, List.flatMap_cons, frame]
    simp only [List.append_assoc]

theorem encode_eq {packets : List Bytes} {input : Bytes}
    (framed : Framed (2 ^ 32 - 1) input packets) :
    encode packets = .ok input := by
  have hcount : 1 ≤ packets.length ∧ packets.length ≤ maximumPackets := framed.count
  have hlt : packets.length < 2 ^ 32 := framed.count.2.trans_lt (by decide)
  rw [encode, if_pos hcount, appendUInt32, if_pos hlt, framed.bytes]
  exact appendPackets_eq framed.packet (beBytes 4 packets.length)

end PacketBatchCodec

theorem Framed.mono {limit limit' : ℕ} {input : Bytes} {packets : List Bytes} (hle : limit ≤ limit')
    (framed : Framed limit input packets) : Framed limit' input packets :=
  ⟨framed.count, fun packet hpacket =>
    ⟨(framed.packet packet hpacket).1, (framed.packet packet hpacket).2.trans hle⟩, framed.bytes⟩

theorem encodeBatch_of_framed {packets : List Bytes} {input : Bytes}
    (framed : Framed (2 ^ 32 - 1) input packets) : Ffi.encodeBatch packets = .ok input := by
  have hlt : packets.length < 2 ^ 32 := framed.count.2.trans_lt (by decide)
  rw [framed.bytes]
  refine Ffi.encodeBatch_eq hlt ?_
  intro packet hpacket
  have hbound := (framed.packet packet hpacket).2
  omega

/-- The encoders write the same bytes for every batch of 1 to 32 packets of 1 to 65535 bytes and
the decoders read it back. Neither decoder leaves the bounds of any input, what a decoder
accepts is what the encoders write for the result, and the decoders accept the same, except for
the limit of the library on the length of a packet. -/
theorem packet_batch_codecs_agree (packets : List Bytes) (input : Bytes) :
    (1 ≤ packets.length → packets.length ≤ 32 →
      (∀ packet ∈ packets, 1 ≤ packet.length ∧ packet.length ≤ 65535) →
        ∃ bytes, Ffi.encodeBatch packets = .ok bytes ∧ PacketBatchCodec.encode packets = .ok bytes ∧
          Ffi.decodeBatch bytes = .ok packets ∧ PacketBatchCodec.decode bytes = .ok packets) ∧
      Ffi.decodeBatch input ≠ .error .panicked ∧ PacketBatchCodec.decode input ≠ .error .panicked ∧
      (Ffi.decodeBatch input = .ok packets →
        Ffi.encodeBatch packets = .ok input ∧ PacketBatchCodec.encode packets = .ok input) ∧
      (PacketBatchCodec.decode input = .ok packets →
        PacketBatchCodec.encode packets = .ok input ∧ Ffi.encodeBatch packets = .ok input) ∧
      (Ffi.decodeBatch input = .ok packets ↔ PacketBatchCodec.decode input = .ok packets ∧
        ∀ packet ∈ packets, packet.length ≤ maxFramedPacket) := by
  have hlimit : maxFramedPacket ≤ 2 ^ 32 - 1 := by decide
  refine ⟨?_, Ffi.decodeBatch_ne_panicked input, PacketBatchCodec.decode_ne_panicked input,
    ?_, ?_, ?_⟩
  · intro hfirst hlast hpackets
    have framed : Framed maxFramedPacket (batch packets) packets := ⟨⟨hfirst, hlast⟩, hpackets, rfl⟩
    exact ⟨batch packets, encodeBatch_of_framed (framed.mono hlimit),
      PacketBatchCodec.encode_eq (framed.mono hlimit), Ffi.decodeBatch_eq_ok_iff.mpr framed,
      PacketBatchCodec.decode_eq_ok_iff.mpr (framed.mono hlimit)⟩
  · intro hdecoded
    have framed := (Ffi.decodeBatch_eq_ok_iff.mp hdecoded).mono hlimit
    exact ⟨encodeBatch_of_framed framed, PacketBatchCodec.encode_eq framed⟩
  · intro hdecoded
    have framed := PacketBatchCodec.decode_eq_ok_iff.mp hdecoded
    exact ⟨PacketBatchCodec.encode_eq framed, encodeBatch_of_framed framed⟩
  · rw [Ffi.decodeBatch_eq_ok_iff, PacketBatchCodec.decode_eq_ok_iff]
    constructor
    · intro framed
      exact ⟨framed.mono hlimit, fun packet hpacket => (framed.packet packet hpacket).2⟩
    · intro h
      obtain ⟨framed, hshort⟩ := h
      exact ⟨framed.count, fun packet hpacket =>
        ⟨(framed.packet packet hpacket).1, hshort packet hpacket⟩, framed.bytes⟩

end MouseVpn.Apple
