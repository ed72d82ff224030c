import MouseVpn.DataPlane.Tunnel
import MouseVpn.Lib.Machine

/-!
# Nonce uniqueness

Every encode call ends in one of four ways: it fails before encryption is
reached, no sequence is left, encryption fails, or a datagram is complete. Only
the last one advances the counter. `NonceDiscipline` collects what follows over
a whole run, and holds of the sending half and of the allocating data plane: the sequences,
the nonces, and that each datagram carries what was sealed under its own sequence.
-/

namespace MouseVpn.DataPlane

open MouseVpn.Lib MouseVpn.Crypto MouseVpn.Protocol

def maxSequence : UInt64 := 0xFFFFFFFFFFFFFFFF

theorem eq_maxSequence {n : UInt64} (h : checkedAdd n 1 = none) : n = maxSequence := by
  apply UInt64.toNat_inj.mp
  exact checkedAdd_one_eq_none h

theorem checkedAdd_maxSequence : checkedAdd maxSequence 1 = none := by decide

theorem ne_maxSequence {n next : UInt64} (h : checkedAdd n 1 = some next) : n ≠ maxSequence := by
  rintro rfl
  simp [checkedAdd_maxSequence] at h

def sequenceOf (bytes : Bytes) : Except DecodeError ℕ :=
  (Header.decode bytes).map (fun h => h.sequence.toNat)

theorem sequenceOf_encode (d : Datagram) : sequenceOf d.encode = .ok d.header.sequence.toNat := by
  simp [sequenceOf, Datagram.encode, Header.decode_encode_append, Except.map]

/-- A call of `encrypt_into`: the nonce it is given and what it returns. -/
abbrev Encryption := UInt64 × Except CryptoError Bytes

def producedNonce : Option Encryption → Option ℕ
  | some (nonce, .ok _) => some nonce.toNat
  | _ => none

section Discipline

variable {σ ι : Type*} (step : σ → ι → σ × Except DataPlaneError Bytes) (next : σ → UInt64)
  (encryption : σ → ι → Option Encryption) (Reaches : σ → ι → Prop)

def successes (s : σ) (is : List ι) : List Bytes :=
  (Machine.outputs step s is).filterMap Except.toOption

def producing (s : σ) (is : List ι) : List ℕ :=
  (Machine.observe step encryption s is).filterMap producedNonce

inductive CallOutcome (s : σ) (i : ι) : Prop
  | refused (e : DataPlaneError) (h : ¬ Reaches s i) (he : encryption s i = none)
      (hr : (step s i).2 = .error e) (hn : next (step s i).1 = next s)
  | exhausted (h : next s = maxSequence) (he : encryption s i = none)
      (hr : (step s i).2 = .error .sequenceExhausted) (hn : next (step s i).1 = next s)
  | failed (e : CryptoError) (h : next s ≠ maxSequence)
      (he : encryption s i = some (next s, .error e))
      (hr : (step s i).2 = .error (.crypto e)) (hn : next (step s i).1 = next s)
  | sent (d : Datagram) (h : next s ≠ maxSequence)
      (he : encryption s i = some (next s, .ok d.payload)) (hr : (step s i).2 = .ok d.encode)
      (hs : d.header.sequence = next s) (hn : (next (step s i).1).toNat = (next s).toNat + 1)

structure NonceDiscipline (s : σ) (is : List ι) : Prop where
  consecutive : (successes step s is).map sequenceOf =
    (List.range' (next s).toNat (successes step s is).length).map Except.ok
  advanced : (next (Machine.run step s is)).toNat =
    (next s).toNat + (successes step s is).length
  failed_keeps : ∀ i e, (step (Machine.run step s is) i).2 = .error e →
    next (step (Machine.run step s is) i).1 = next (Machine.run step s is)
  producing_consecutive : producing step encryption s is =
    List.range' (next s).toNat (successes step s is).length
  producing_nodup : (producing step encryption s is).Nodup
  -- What a successful call returns carries the ciphertext that was sealed under the sequence in
  -- its own header.
  carried : ∀ i bytes, (step (Machine.run step s is) i).2 = .ok bytes →
    ∃ d : Datagram, bytes = d.encode ∧
      encryption (Machine.run step s is) i = some (d.header.sequence, .ok d.payload)
  unsealed : ∀ i nonce e, encryption (Machine.run step s is) i = some (nonce, .error e) →
    (step (Machine.run step s is) i).2 = .error (.crypto e)
  never_max : ∀ e, some e ∈ Machine.observe step encryption s is → e.1 ≠ maxSequence
  exhausted : ∀ pre post, is = pre ++ post → next (Machine.run step s pre) = maxSequence →
    ∀ i, Reaches (Machine.run step s is) i →
      (step (Machine.run step s is) i).2 = .error .sequenceExhausted

variable {step next encryption Reaches}
variable (hc : ∀ s i, CallOutcome step next encryption Reaches s i)
include hc

theorem failed_call_keeps (s : σ) (i : ι) (e : DataPlaneError) (h : (step s i).2 = .error e) :
    next (step s i).1 = next s := by
  cases hc s i with
  | refused _ _ _ _ hn => exact hn
  | exhausted _ _ _ hn => exact hn
  | failed _ _ _ _ hn => exact hn
  | sent d _ _ hr _ _ => simp [hr] at h

theorem carried_of_ok (s : σ) (i : ι) (bytes : Bytes) (h : (step s i).2 = .ok bytes) :
    ∃ d : Datagram, bytes = d.encode ∧
      encryption s i = some (d.header.sequence, .ok d.payload) := by
  cases hc s i with
  | refused _ _ _ hr _ => simp [hr] at h
  | exhausted _ _ hr _ => simp [hr] at h
  | failed _ _ _ hr _ => simp [hr] at h
  | sent d _ he hr hs _ =>
    rw [hr, Except.ok.injEq] at h
    exact ⟨d, h.symm, by rw [he, hs]⟩

theorem error_of_unsealed (s : σ) (i : ι) (nonce : UInt64) (e : CryptoError)
    (h : encryption s i = some (nonce, .error e)) : (step s i).2 = .error (.crypto e) := by
  cases hc s i with
  | refused _ _ he _ _ => simp [he] at h
  | exhausted _ he _ _ => simp [he] at h
  | failed e' _ he hr _ =>
    simp only [he, Option.some.injEq, Prod.mk.injEq, Except.error.injEq] at h
    rw [hr, h.2]
  | sent _ _ he _ _ _ => simp [he] at h

theorem run_sequences (s : σ) (is : List ι) :
    (successes step s is).map sequenceOf =
      (List.range' (next s).toNat (successes step s is).length).map Except.ok ∧
    producing step encryption s is =
      List.range' (next s).toNat (successes step s is).length ∧
    (next (Machine.run step s is)).toNat = (next s).toNat + (successes step s is).length := by
  induction is generalizing s with
  | nil => simp [successes, producing, Machine.outputs, Machine.observe]
  | cons i is ih =>
    obtain ⟨h1, h2, h3⟩ := ih (step s i).1
    simp only [successes, producing, Machine.outputs, Machine.observe, Machine.run_cons] at *
    cases hc s i with
    | refused e h he hr hn =>
      rw [hn] at h1 h2 h3
      simpa [he, hr, Except.toOption, producedNonce] using ⟨h1, h2, h3⟩
    | exhausted h he hr hn =>
      rw [hn] at h1 h2 h3
      simpa [he, hr, Except.toOption, producedNonce] using ⟨h1, h2, h3⟩
    | failed e h he hr hn =>
      rw [hn] at h1 h2 h3
      simpa [he, hr, Except.toOption, producedNonce] using ⟨h1, h2, h3⟩
    | sent d h he hr hs hn =>
      rw [hn] at h1 h2 h3
      simp only [he, hr, Except.toOption, producedNonce, List.filterMap_cons, List.map_cons,
        List.length_cons, List.range'_succ, sequenceOf_encode, hs]
      exact ⟨by rw [h1], by rw [h2], by omega⟩

theorem max_persists {s : σ} (h : next s = maxSequence) (is : List ι) :
    next (Machine.run step s is) = maxSequence := by
  refine Machine.run_invariant step (fun s => next s = maxSequence) (fun s i hs => ?_) h is
  cases hc s i with
  | refused _ _ _ _ hn => exact hn.trans hs
  | exhausted _ _ _ hn => exact hn.trans hs
  | failed _ h' _ _ _ => exact absurd hs h'
  | sent _ h' _ _ _ _ => exact absurd hs h'

theorem encryption_ne_max (s : σ) (i : ι) (e : Encryption) (he : encryption s i = some e) :
    e.1 ≠ maxSequence := by
  cases hc s i with
  | refused _ _ he' _ _ => simp [he'] at he
  | exhausted _ he' _ _ => simp [he'] at he
  | failed _ h he' _ _ =>
    rw [he', Option.some.injEq] at he
    rw [← he]
    exact h
  | sent _ h he' _ _ _ =>
    rw [he', Option.some.injEq] at he
    rw [← he]
    exact h

theorem nonceDiscipline_of_outcomes (s : σ) (is : List ι) :
    NonceDiscipline step next encryption Reaches s is := by
  obtain ⟨h1, h2, h3⟩ := run_sequences hc s is
  refine ⟨h1, h3, failed_call_keeps hc _, h2, ?_, carried_of_ok hc _, error_of_unsealed hc _,
    ?_, ?_⟩
  · rw [h2]
    exact List.nodup_range'
  · intro e he
    obtain ⟨pre, i, post, -, hi⟩ := (Machine.mem_observe step).mp he
    exact encryption_ne_max hc _ _ e hi
  · intro pre post his hmax i hreach
    have hend : next (Machine.run step s is) = maxSequence := by
      rw [his, Machine.run_append]
      exact max_persists hc hmax post
    cases hc (Machine.run step s is) i with
    | refused _ h _ _ _ => exact absurd hreach h
    | exhausted _ _ hr _ => exact hr
    | failed _ h _ _ _ => exact absurd hend h
    | sent _ h _ _ _ _ => exact absurd hend h

end Discipline

inductive EncodeCall
  | ip (packet output : Bytes)
  | keepalive (output : Bytes)

def EncodeCall.Reaches (mtu : ℕ) : EncodeCall → Prop
  | .ip packet _ => ∃ ip, parseWithinMtu mtu packet = .ok ip
  | .keepalive _ => True

namespace TunnelSender

def call (s : TunnelSender) (c : EncodeCall) : TunnelSender × Except DataPlaneError Bytes :=
  let (s, output, result) :=
    match c with
    | .ip packet output => s.encodeIpInto packet output
    | .keepalive output => s.encodeKeepaliveInto output
  (s, result.map fun _ => output)

/-- The encryption of `innerKind` and `payload` that `encode_into` makes, if it gets there. -/
def encryptionOf (s : TunnelSender) (innerKind : InnerPacketKind) (payload : Bytes) :
    Option Encryption :=
  (checkedAdd s.nextSequence 1).map fun _ =>
    (s.nextSequence, s.crypto.encryptInto s.nextSequence (innerKind.toByte :: payload)
      (payload.length + 1 + authTagLen))

def encryption (s : TunnelSender) : EncodeCall → Option Encryption
  | .ip packet _ => (parseWithinMtu s.mtu packet).toOption.bind fun ip =>
      s.encryptionOf .data ip.bytes
  | .keepalive _ => s.encryptionOf .keepalive []

theorem encodeInto_outcome (s : TunnelSender) (c : EncodeCall) (kind : PacketKind)
    (innerKind : InnerPacketKind) (payload output : Bytes)
    (hcall : s.call c = (let r := s.encodeInto kind innerKind payload output
      (r.1, r.2.2.map fun _ => r.2.1)))
    (henc : s.encryption c = s.encryptionOf innerKind payload) :
    CallOutcome call nextSequence encryption (fun s c => c.Reaches s.mtu) s c := by
  rcases encodeInto_cases s kind innerKind payload output with
    ⟨hn, he⟩ | ⟨e, hn, hx, he⟩ | ⟨next, c, hn, hx, he⟩
  · refine .exhausted (eq_maxSequence hn) ?_ ?_ ?_
    · simp [henc, encryptionOf, hn]
    · rw [hcall, he]
      rfl
    · rw [hcall, he]
  · obtain ⟨next, hn⟩ := Option.isSome_iff_exists.mp hn
    refine .failed e (ne_maxSequence hn) ?_ ?_ ?_
    · simp [henc, encryptionOf, hn, hx]
    · rw [hcall, he]
      rfl
    · rw [hcall, he]
  · refine .sent (s.datagram kind c) (ne_maxSequence hn) ?_ ?_ rfl ?_
    · simp [henc, encryptionOf, hn, hx, datagram]
    · rw [hcall, he]
      rfl
    · rw [hcall, he]
      exact (checkedAdd_one_eq_some hn).1

theorem call_outcome (s : TunnelSender) (c : EncodeCall) :
    CallOutcome call nextSequence encryption (fun s c => c.Reaches s.mtu) s c := by
  cases c with
  | keepalive output => exact encodeInto_outcome s _ .keepalive .keepalive [] output rfl rfl
  | ip packet output =>
    cases hp : parseWithinMtu s.mtu packet with
    | error e =>
      refine .refused e ?_ ?_ ?_ ?_
      · rintro ⟨ip, hip⟩
        simp [hp] at hip
      · simp [encryption, hp, Except.toOption]
      · simp [call, encodeIpInto, hp, Except.map]
      · simp [call, encodeIpInto, hp]
    | ok ip =>
      refine encodeInto_outcome s _ .data .data ip.bytes output ?_ ?_
      · simp only [call, encodeIpInto, hp]
      · simp [encryption, hp, Except.toOption]

end TunnelSender

namespace TunnelDataPlane

def call (p : TunnelDataPlane) : EncodeCall → TunnelDataPlane × Except DataPlaneError Bytes
  | .ip packet _ => p.encodeIp packet
  | .keepalive _ => p.encodeKeepalive

def encryptionOf (p : TunnelDataPlane) (inner : Bytes) : Option Encryption :=
  (checkedAdd p.nextSequence 1).map fun _ =>
    (p.nextSequence, p.crypto.encrypt p.nextSequence inner)

def encryption (p : TunnelDataPlane) : EncodeCall → Option Encryption
  | .ip packet _ => (parseWithinMtu p.mtu packet).toOption.bind fun ip =>
      p.encryptionOf (InnerPacket.encode ⟨.data, ip.bytes⟩)
  | .keepalive _ => p.encryptionOf (InnerPacket.encode ⟨.keepalive, []⟩)

theorem encode_outcome (p : TunnelDataPlane) (c : EncodeCall) (kind : PacketKind) (inner : Bytes)
    (hcall : p.call c = p.encode kind inner) (henc : p.encryption c = p.encryptionOf inner) :
    CallOutcome call nextSequence encryption (fun p c => c.Reaches p.mtu) p c := by
  cases hn : checkedAdd p.nextSequence 1 with
  | none =>
    refine .exhausted (eq_maxSequence hn) ?_ ?_ ?_
    · simp [henc, encryptionOf, hn]
    · simp [hcall, encode, hn]
    · simp [hcall, encode, hn]
  | some next =>
    cases hx : p.crypto.encrypt p.nextSequence inner with
    | error e =>
      refine .failed e (ne_maxSequence hn) ?_ ?_ ?_
      · simp [henc, encryptionOf, hn, hx]
      · simp [hcall, encode, hn, hx]
      · simp [hcall, encode, hn, hx]
    | ok c =>
      refine .sent
        ⟨{ kind, flags := 0, sessionId := p.sessionId, sequence := p.nextSequence }, c⟩
        (ne_maxSequence hn) ?_ ?_ rfl ?_
      · simp [henc, encryptionOf, hn, hx]
      · simp [hcall, encode, hn, hx]
      · simpa [hcall, encode, hn, hx] using (checkedAdd_one_eq_some hn).1

theorem call_outcome (p : TunnelDataPlane) (c : EncodeCall) :
    CallOutcome call nextSequence encryption (fun p c => c.Reaches p.mtu) p c := by
  cases c with
  | keepalive output => exact encode_outcome p _ .keepalive _ rfl rfl
  | ip packet output =>
    cases hp : parseWithinMtu p.mtu packet with
    | error e =>
      refine .refused e ?_ ?_ ?_ ?_
      · rintro ⟨ip, hip⟩
        simp [hp] at hip
      · simp [encryption, hp, Except.toOption]
      · simp [call, encodeIp, hp]
      · simp [call, encodeIp, hp]
    | ok ip =>
      refine encode_outcome p _ .data (InnerPacket.encode ⟨.data, ip.bytes⟩) ?_ ?_
      · simp only [call, encodeIp, hp]
      · simp [encryption, hp, Except.toOption]

end TunnelDataPlane

/-- Both encoders use consecutive nonces, each once and for the datagram that names it, and stop
before `u64::MAX`. -/
theorem encoders_nonceDiscipline :
    (∀ (s : TunnelSender) (calls : List EncodeCall),
      NonceDiscipline TunnelSender.call TunnelSender.nextSequence TunnelSender.encryption
        (fun s c => c.Reaches s.mtu) s calls) ∧
    (∀ (p : TunnelDataPlane) (calls : List EncodeCall),
      NonceDiscipline TunnelDataPlane.call TunnelDataPlane.nextSequence TunnelDataPlane.encryption
        (fun p c => c.Reaches p.mtu) p calls) :=
  ⟨nonceDiscipline_of_outcomes TunnelSender.call_outcome,
    nonceDiscipline_of_outcomes TunnelDataPlane.call_outcome⟩

end MouseVpn.DataPlane
