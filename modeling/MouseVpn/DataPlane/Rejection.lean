import MouseVpn.DataPlane.Tunnel

/-!
# What a rejected datagram does to the receiver

A receiver changes only when a payload opens: within the size limit, under an
acceptable sequence, authenticated by the transport. Then exactly that sequence
is marked, whether or not the plaintext is accepted afterwards. The outer header
takes no part in the authentication.
-/

namespace MouseVpn.DataPlane

open MouseVpn.Lib MouseVpn.Crypto MouseVpn.Protocol

def Authentic (sessionId : UInt64) (transport : StatelessTransportState) (window : ReplayWindow)
    (d : Datagram) (plaintext : Bytes) : Prop :=
  d.header.sessionId = sessionId ∧ (d.header.kind = .data ∨ d.header.kind = .keepalive) ∧
    Opens transport window d.header.sequence d.payload d.payload.length plaintext

namespace TunnelReceiver

def mark (r : TunnelReceiver) (sequence : UInt64) : TunnelReceiver :=
  { r with crypto :=
    { r.crypto with receiveWindow := r.crypto.receiveWindow.markAuthenticated sequence } }

def Authentic (r : TunnelReceiver) (d : Datagram) (plaintext : Bytes) : Prop :=
  DataPlane.Authentic r.sessionId r.crypto.transport r.crypto.receiveWindow d plaintext

theorem decodeInto_cases (r : TunnelReceiver) (d : Datagram) (output : Bytes) :
    (∃ plaintext, r.Authentic d plaintext ∧ r.decodeInto d output =
      (r.mark d.header.sequence, plaintext, interpret r.mtu d.header.kind plaintext)) ∨
    ((∀ plaintext, ¬ r.Authentic d plaintext) ∧
      ∃ buffer e, r.decodeInto d output = (r, buffer, .error e)) := by
  by_cases hs : d.header.sessionId = r.sessionId
  swap
  · refine Or.inr ⟨fun p hp => hs hp.1, output, .sessionMismatch, ?_⟩
    simp only [decodeInto, ne_eq, hs, not_false_eq_true, if_true]
  by_cases hk : d.header.kind ≠ .data ∧ d.header.kind ≠ .keepalive
  · refine Or.inr ⟨fun p hp => not_or.mpr hk hp.2.1, output,
      .unexpectedPacketKind d.header.kind, ?_⟩
    simp only [decodeInto, ne_eq, hs, not_true_eq_false, if_false]
    rw [if_pos hk]
  have hkind : d.header.kind = .data ∨ d.header.kind = .keepalive := by
    by_contra hn
    exact hk (not_or.mp hn)
  simp only [decodeInto, ne_eq, hs, not_true_eq_false, if_false]
  rw [if_neg hk]
  simp only [ReceiveHalf.decryptInto, Vec.resize_length]
  rcases decryptInto_cases r.crypto.transport r.crypto.receiveWindow d.header.sequence d.payload
    d.payload.length with ⟨plaintext, ho, he⟩ | ⟨hno, e, he⟩
  · refine Or.inl ⟨plaintext, ⟨hs, hkind, ho⟩, ?_⟩
    have ht := Vec.take_overwrite (Vec.resize output d.payload.length) plaintext
      (Nat.zero_le _)
    simp only [zero_add, List.take_zero, List.nil_append] at ht
    simp only [he, ht]
    rfl
  · refine Or.inr ⟨fun p hp => hno p hp.2.2, Vec.resize output d.payload.length, .crypto e, ?_⟩
    simp only [he]

end TunnelReceiver

namespace TunnelDataPlane

def mark (p : TunnelDataPlane) (sequence : UInt64) : TunnelDataPlane :=
  { p with crypto :=
    { p.crypto with receiveWindow := p.crypto.receiveWindow.markAuthenticated sequence } }

def Authentic (p : TunnelDataPlane) (input plaintext : Bytes) : Prop :=
  ∃ d, Datagram.decode input = .ok d ∧
    DataPlane.Authentic p.sessionId p.crypto.transport p.crypto.receiveWindow d plaintext

theorem decode_cases (p : TunnelDataPlane) (input : Bytes) :
    (∃ d plaintext, Datagram.decode input = .ok d ∧ p.Authentic input plaintext ∧
      p.decode input =
        (p.mark d.header.sequence, interpret p.mtu d.header.kind plaintext)) ∨
    ((∀ plaintext, ¬ p.Authentic input plaintext) ∧ ∃ e, p.decode input = (p, .error e)) := by
  cases hd : Datagram.decode input with
  | error e =>
    refine Or.inr ⟨?_, .outer e, by simp only [decode, hd]⟩
    rintro plaintext ⟨d, h, -⟩
    simp [hd] at h
  | ok d =>
    have hauth : ∀ plaintext, p.Authentic input plaintext ↔
        DataPlane.Authentic p.sessionId p.crypto.transport p.crypto.receiveWindow d plaintext := by
      intro plaintext
      simp [Authentic, hd]
    by_cases hs : d.header.sessionId = p.sessionId
    swap
    · refine Or.inr ⟨fun q hq => hs ((hauth q).mp hq).1, .sessionMismatch, ?_⟩
      simp only [decode, hd, ne_eq, hs, not_false_eq_true, if_true]
    by_cases hk : d.header.kind ≠ .data ∧ d.header.kind ≠ .keepalive
    · refine Or.inr ⟨fun q hq => not_or.mpr hk ((hauth q).mp hq).2.1,
        .unexpectedPacketKind d.header.kind, ?_⟩
      simp only [decode, hd, ne_eq, hs, not_true_eq_false, if_false]
      rw [if_pos hk]
    have hkind : d.header.kind = .data ∨ d.header.kind = .keepalive := by
      by_contra hn
      exact hk (not_or.mp hn)
    simp only [decode, hd, ne_eq, hs, not_true_eq_false, if_false]
    rw [if_neg hk]
    simp only [SecureSession.decrypt]
    rcases decryptInto_cases p.crypto.transport p.crypto.receiveWindow d.header.sequence d.payload
      d.payload.length with ⟨plaintext, ho, he⟩ | ⟨hno, e, he⟩
    · refine Or.inl ⟨d, plaintext, rfl, (hauth _).mpr ⟨hs, hkind, ho⟩, ?_⟩
      simp only [he]
      rfl
    · refine Or.inr ⟨fun q hq => hno q ((hauth q).mp hq).2.2, .crypto e, ?_⟩
      simp only [he]

end TunnelDataPlane

/-- A rejected datagram leaves the receiver as it was, unless its payload opened
under its sequence; then that sequence, and nothing else, has been marked. -/
theorem rejected_unchanged_unless_authentic :
    (∀ (r : TunnelReceiver) (d : Datagram) (output : Bytes) (e : DataPlaneError),
      (r.decodeInto d output).2.2 = .error e →
      ((∀ plaintext, ¬ r.Authentic d plaintext) → (r.decodeInto d output).1 = r) ∧
      (∀ plaintext, r.Authentic d plaintext →
        (r.decodeInto d output).1 = r.mark d.header.sequence)) ∧
    (∀ (p : TunnelDataPlane) (input : Bytes) (e : DataPlaneError),
      (p.decode input).2 = .error e →
      ((∀ plaintext, ¬ p.Authentic input plaintext) → (p.decode input).1 = p) ∧
      (∀ d plaintext, Datagram.decode input = .ok d → p.Authentic input plaintext →
        (p.decode input).1 = p.mark d.header.sequence)) := by
  constructor
  · intro r d output e _
    rcases r.decodeInto_cases d output with ⟨plaintext, ha, he⟩ | ⟨hn, buffer, e', he⟩
    · rw [he]
      exact ⟨fun hn => absurd ha (hn plaintext), fun _ _ => rfl⟩
    · rw [he]
      exact ⟨fun _ => rfl, fun plaintext ha => absurd ha (hn plaintext)⟩
  · intro p input e _
    rcases p.decode_cases input with ⟨d, plaintext, hd, ha, he⟩ | ⟨hn, e', he⟩
    · rw [he]
      refine ⟨fun hn => absurd ha (hn plaintext), fun d' _ hd' _ => ?_⟩
      rw [hd] at hd'
      cases hd'
      rfl
    · rw [he]
      exact ⟨fun _ => rfl, fun _ plaintext _ ha => absurd ha (hn plaintext)⟩

def samplePacket : Bytes :=
  [0x45, 0, 0, 20, 0, 0, 0, 0, 64, 17, 0, 0, 10, 77, 0, 2, 1, 1, 1, 1]

def sampleReceiver : TunnelReceiver :=
  { sessionId := 7
    mtu := 1280
    crypto := ⟨clearTransport, ReplayWindow.default, ⟨Vector.replicate 32 0⟩⟩ }

/-- `samplePacket` as the peer sends it under sequence 0, with the given outer kind. -/
def sampleDatagram (kind : PacketKind) : Datagram :=
  ⟨{ kind, flags := 0, sessionId := 7, sequence := 0 },
    1 :: samplePacket ++ List.replicate authTagLen 0⟩

/-- A copy with the outer kind changed to Keepalive is rejected, marks sequence 0,
and makes the genuine datagram a duplicate. -/
theorem rejected_copy_burns_sequence :
    let after := (sampleReceiver.decodeInto (sampleDatagram .keepalive) []).1
    (sampleReceiver.decodeInto (sampleDatagram .keepalive) []).2.2 =
      .error (.unexpectedInnerPacketKind .data) ∧
    after.crypto.receiveWindow ≠ sampleReceiver.crypto.receiveWindow ∧
    (sampleReceiver.decodeInto (sampleDatagram .data) []).2.2 = .ok (.ip samplePacket) ∧
    (after.decodeInto (sampleDatagram .data) []).2.2 = .error (.crypto (.replay .duplicate)) := by
  decide +kernel

theorem rejected_unchanged_sample :
    (sampleReceiver.decodeInto (sampleDatagram .close) []).1 = sampleReceiver ∧
    (sampleReceiver.decodeInto (sampleDatagram .keepalive) []).1 = sampleReceiver.mark 0 := by
  constructor
  · refine (rejected_unchanged_unless_authentic.1 sampleReceiver (sampleDatagram .close) []
      (.unexpectedPacketKind .close) (by decide)).1 fun _ h => ?_
    simp [sampleDatagram, TunnelReceiver.Authentic, Authentic] at h
  · exact (rejected_unchanged_unless_authentic.1 sampleReceiver (sampleDatagram .keepalive) []
      (.unexpectedInnerPacketKind .data) (by decide +kernel)).2 (1 :: samplePacket)
      ⟨rfl, Or.inr rfl, by decide, by decide, by decide⟩

end MouseVpn.DataPlane
