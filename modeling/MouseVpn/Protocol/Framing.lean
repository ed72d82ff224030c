import MouseVpn.Protocol.Datagram

/-!
# The framing has one encoding for every message

The decoders of the outer datagram and of the inner packet undo the encoders, and they accept
nothing that the encoders do not produce.
-/

namespace MouseVpn.Protocol

open MouseVpn.Lib MouseVpn.Lib.BigEndian

structure Inverses {α ε : Type} (encode : α → Bytes) (decode : Bytes → Except ε α) : Prop where
  decode_encode : ∀ a, decode (encode a) = .ok a
  encode_decode : ∀ input a, decode input = .ok a → encode a = input

theorem Inverses.injective {α ε : Type} {encode : α → Bytes} {decode : Bytes → Except ε α}
    (h : Inverses encode decode) {a b : α} (hab : encode a = encode b) : a = b := by
  have ha := h.decode_encode a
  rw [hab, h.decode_encode] at ha
  exact (Except.ok.inj ha).symm

def PacketKind.Known (value : UInt8) : Prop := ∃ kind : PacketKind, kind.toByte = value

def InnerPacketKind.Known (value : UInt8) : Prop := ∃ kind : InnerPacketKind, kind.toByte = value

theorem PacketKind.tryFrom_eq_ok_iff {value : UInt8} {kind : PacketKind} :
    PacketKind.tryFrom value = .ok kind ↔ kind.toByte = value := by
  constructor
  · intro h
    unfold PacketKind.tryFrom at h
    split at h <;> cases h <;> rfl
  · intro h
    rw [← h, PacketKind.tryFrom_toByte]

theorem InnerPacketKind.tryFrom_eq_ok_iff {value : UInt8} {kind : InnerPacketKind} :
    InnerPacketKind.tryFrom value = .ok kind ↔ kind.toByte = value := by
  constructor
  · intro h
    unfold InnerPacketKind.tryFrom at h
    split at h <;> cases h <;> rfl
  · intro h
    rw [← h, InnerPacketKind.tryFrom_toByte]

theorem fails_iff {α ε : Type} {x : Except ε α} {p : α → Prop} (h : ∀ a, x = .ok a ↔ p a) :
    (∃ e, x = .error e) ↔ ¬ ∃ a, p a := by
  simp only [← h]
  cases x <;> simp

theorem PacketKind.tryFrom_fails_iff (value : UInt8) :
    (∃ e, PacketKind.tryFrom value = .error e) ↔ ¬ PacketKind.Known value :=
  fails_iff fun _ => PacketKind.tryFrom_eq_ok_iff

theorem InnerPacketKind.tryFrom_fails_iff (value : UInt8) :
    (∃ e, InnerPacketKind.tryFrom value = .error e) ↔ ¬ InnerPacketKind.Known value :=
  fails_iff fun _ => InnerPacketKind.tryFrom_eq_ok_iff

theorem take_drop_append_drop (input : Bytes) (i n : ℕ) :
    (input.drop i).take n ++ input.drop (i + n) = input.drop i := by
  rw [← List.drop_drop, List.take_append_drop]

theorem beBytes_slice {input : Bytes} {i n : ℕ} (h : i + n ≤ input.length) :
    beBytes n (beNat ((input.drop i).take n)) = (input.drop i).take n := by
  have hlen : ((input.drop i).take n).length = n := by
    rw [List.length_take, List.length_drop]
    omega
  have hback := beBytes_beNat ((input.drop i).take n)
  rwa [hlen] at hback

theorem beNat_slice_lt (input : Bytes) (i n : ℕ) : beNat ((input.drop i).take n) < 256 ^ n := by
  have hlen : ((input.drop i).take n).length ≤ n := List.length_take_le _ _
  exact (beNat_lt _).trans_le (Nat.pow_le_pow_right (by decide) hlen)

theorem cons_cons_drop_two {input : Bytes} (h : 2 ≤ input.length) :
    input.getD 0 0 :: input.getD 1 0 :: input.drop 2 = input := by
  cases input with
  | nil => cases h
  | cons first rest =>
    cases rest with
    | nil => exact absurd h (by simp)
    | cons second rest => rfl

theorem Header.encode_of_decode {input : Bytes} {header : Header}
    (h : Header.decode input = .ok header) : header.encode ++ input.drop headerLen = input := by
  unfold Header.decode at h
  split_ifs at h with hshort hversion
  rw [headerLen, Nat.not_lt] at hshort
  rw [not_not] at hversion
  cases hkind : PacketKind.tryFrom (input.getD 1 0) with
  | error e =>
    rw [hkind] at h
    cases h
  | ok kind =>
    rw [hkind] at h
    cases h
    rw [PacketKind.tryFrom_eq_ok_iff] at hkind
    have hflags : (UInt16.ofNat (beNat ((input.drop 2).take 2))).toNat =
        beNat ((input.drop 2).take 2) := UInt16.toNat_ofNat_of_lt' (beNat_slice_lt input 2 2)
    have hsession : (UInt64.ofNat (beNat ((input.drop 4).take 8))).toNat =
        beNat ((input.drop 4).take 8) := UInt64.toNat_ofNat_of_lt' (beNat_slice_lt input 4 8)
    have hsequence : (UInt64.ofNat (beNat ((input.drop 12).take 8))).toNat =
        beNat ((input.drop 12).take 8) := UInt64.toNat_ofNat_of_lt' (beNat_slice_lt input 12 8)
    simp only [Header.encode, hflags, hsession, hsequence, hkind, ← hversion]
    rw [beBytes_slice (by omega), beBytes_slice (by omega), beBytes_slice (by omega),
      List.append_assoc, headerLen, take_drop_append_drop input 12 8, List.append_assoc,
      take_drop_append_drop input 4 8, List.append_assoc, take_drop_append_drop input 2 2]
    exact cons_cons_drop_two (by omega)

theorem Header.decode_fails_iff (input : Bytes) :
    (∃ e, Header.decode input = .error e) ↔ input.length < headerLen ∨
      input.getD 0 0 ≠ version ∨ ¬ PacketKind.Known (input.getD 1 0) := by
  rw [← PacketKind.tryFrom_fails_iff]
  unfold Header.decode
  split_ifs with hshort hversion
  · exact iff_of_true ⟨_, rfl⟩ (Or.inl hshort)
  · exact iff_of_true ⟨_, rfl⟩ (Or.inr (Or.inl hversion))
  · simp only [hshort, hversion, false_or]
    cases PacketKind.tryFrom (input.getD 1 0) <;> simp

theorem Datagram.inverses : Inverses Datagram.encode Datagram.decode where
  decode_encode := Datagram.decode_encode
  encode_decode input d h := by
    unfold Datagram.decode at h
    cases hheader : Header.decode input with
    | error e =>
      rw [hheader] at h
      cases h
    | ok header =>
      rw [hheader] at h
      cases h
      exact Header.encode_of_decode hheader

theorem Datagram.decode_fails_iff (input : Bytes) :
    (∃ e, Datagram.decode input = .error e) ↔ input.length < headerLen ∨
      input.getD 0 0 ≠ version ∨ ¬ PacketKind.Known (input.getD 1 0) := by
  rw [← Header.decode_fails_iff, Datagram.decode]
  cases Header.decode input <;> simp

theorem InnerPacket.inverses : Inverses InnerPacket.encode InnerPacket.decode where
  decode_encode p := InnerPacket.decode_cons_toByte p.kind p.payload
  encode_decode input p h := by
    cases input with
    | nil => cases h
    | cons value payload =>
      unfold InnerPacket.decode at h
      cases hkind : InnerPacketKind.tryFrom value with
      | error e =>
        simp only [hkind] at h
        cases h
      | ok kind =>
        simp only [hkind] at h
        cases h
        rw [InnerPacketKind.tryFrom_eq_ok_iff] at hkind
        rw [InnerPacket.encode, hkind]

theorem InnerPacket.decode_fails_iff (input : Bytes) :
    (∃ e, InnerPacket.decode input = .error e) ↔
      input = [] ∨ ¬ InnerPacketKind.Known (input.getD 0 0) := by
  cases input with
  | nil => exact iff_of_true ⟨_, rfl⟩ (Or.inl rfl)
  | cons value payload =>
    have hvalue : (value :: payload).getD 0 0 = value := rfl
    rw [hvalue, ← InnerPacketKind.tryFrom_fails_iff]
    simp only [InnerPacket.decode]
    cases InnerPacketKind.tryFrom value <;> simp

/-- Both framings are bijections onto what their decoders accept, and so is one inside the
other. -/
theorem framing_bijective (d : Datagram) (p : InnerPacket) (input : Bytes)
    (header header' : Header) (kind kind' : InnerPacketKind) (payload payload' : Bytes) :
    (Datagram.decode d.encode = .ok d ∧ (Datagram.decode input = .ok d → d.encode = input) ∧
      ((∃ e, Datagram.decode input = .error e) ↔ input.length < 20 ∨
        input.getD 0 0 ≠ version ∨ ¬ PacketKind.Known (input.getD 1 0))) ∧
    (InnerPacket.decode p.encode = .ok p ∧
      (InnerPacket.decode input = .ok p → p.encode = input) ∧
      ((∃ e, InnerPacket.decode input = .error e) ↔
        input = [] ∨ ¬ InnerPacketKind.Known (input.getD 0 0))) ∧
    (Datagram.encode ⟨header, InnerPacket.encode ⟨kind, payload⟩⟩ =
        Datagram.encode ⟨header', InnerPacket.encode ⟨kind', payload'⟩⟩ →
      (header, kind, payload) = (header', kind', payload')) := by
  refine ⟨⟨Datagram.inverses.decode_encode d, Datagram.inverses.encode_decode input d,
    Datagram.decode_fails_iff input⟩, ⟨InnerPacket.inverses.decode_encode p,
    InnerPacket.inverses.encode_decode input p, InnerPacket.decode_fails_iff input⟩, ?_⟩
  intro h
  obtain ⟨rfl, hinner⟩ := Datagram.mk.inj (Datagram.inverses.injective h)
  obtain ⟨rfl, rfl⟩ := InnerPacket.mk.inj (InnerPacket.inverses.injective hinner)
  rfl

end MouseVpn.Protocol
