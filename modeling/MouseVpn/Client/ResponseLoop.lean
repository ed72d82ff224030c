import MouseVpn.Client.Negotiation

/-!
# One pass through the loop of an attempt

A pass that nothing on the client's own side ends returns exactly what the handshake makes
of the datagram: nothing, if a check in front of the handshake fails.
-/

namespace MouseVpn.Client

open MouseVpn.Lib MouseVpn.Crypto MouseVpn.DataPlane MouseVpn.Protocol MouseVpn.Wire
open MouseVpn.Wire.Morph (MorphCodec MorphKey Profile)

section Conditions

variable {lib : Libraries} (v : Variant) (wire : ClientWire) (i : Initiation lib) (deadline : ℕ)

/-- What the datagram of this pass offers to the handshake: nothing if it fails wire decoding,
framing, or the comparison of the kind and the session id. -/
def Turn.response (t : Turn) : Option Bytes :=
  match t.received with
  | .error _ => none
  | .ok datagram => (readResponse lib wire i.sessionId t.decoding datagram []).2

def Turn.Forged (t : Turn) : Prop :=
  ∃ response e, t.response wire i = some response ∧ i.handshake.finish response = .error e

def Turn.Rejected (t : Turn) : Prop := t.response wire i = none ∨ t.Forged wire i

def Turn.Answers (t : Turn) (session : Session) : Prop :=
  ∃ response crypto payload parameters, t.response wire i = some response ∧
    i.handshake.finish response = .ok (crypto, payload) ∧
    SessionParameters.decode payload = .ok parameters ∧
    session = (TunnelDataPlane.new i.sessionId parameters.mtu.toNat crypto, parameters)

structure Turn.Bearable (t : Turn) : Prop where
  sent : ∀ e, t.sent = .error e → v.isRetryable e
  setReadTimeout : ∀ d e, t.setReadTimeout d = .error e → v.isRetryable e
  received : ∀ e, t.received = .error e → v.isRetryable e

structure Attempt.Bearable (attempt : Attempt) : Prop where
  covers : ∀ k e, (attempt.cover k).sent = .error e → v.isRetryable e
  sent : ∀ e, attempt.sent = .error e → v.isRetryable e
  turns : ∀ t ∈ attempt.turns, t.Bearable v

def Encodes (lib : Libraries) (input : WireInput) (inner : Bytes) : Prop :=
  (wire.encodeInto lib input.calls inner input.clock input.random []).2 = .ok ()

structure Cover.Served (lib : Libraries) (c : Cover) : Prop where
  encodes : (wire.encodeCoverInto lib c.input.clock c.input.random []).2 = .ok ()
  sent : c.sent = .ok ()
  jitter : ∃ ms, wire.handshakeJitterMs c.jitter = .ok ms

structure Turn.Served (x : Exchange) (t : Turn) : Prop where
  running : t.stopping = true → v.cancelled = none
  encodes : x.nextRetransmit ≤ t.now → Encodes wire lib t.encoding i.request
  setReadTimeout :
    t.setReadTimeout (readTimeout deadline (retransmit v wire i x t).1 t) = .ok ()

def Attempt.exchange (attempt : Attempt) : Exchange where
  nextRetransmit := attempt.started + handshakeRetransmit
  encodedRequest := (sendRequest lib v wire i.request attempt.encoding attempt.sent []).1
  decoded := []

structure Attempt.Opened (attempt : Attempt) : Prop where
  covers : ∃ count, wire.coverCount attempt.coverDraw = .ok count ∧
    ∀ k < count, (attempt.cover k).Served wire lib
  encodes : Encodes wire lib attempt.encoding i.request

/-- Nothing on the client's own side ends the attempt up to the end of `turns`. -/
structure Attempt.Served (attempt : Attempt) (turns : List Turn) : Prop where
  opened : attempt.Opened wire i
  turns : Machine.Obeys (loopPass v wire i deadline)
    (fun x t => t.Served v wire i deadline x) (attempt.exchange v wire i) turns

end Conditions

section Buffers

variable {lib : Libraries} {wire : ClientWire}

theorem encodeFrameInto_buffer {key : MorphKey} {profile : Profile} {kind : Morph.FrameKind}
    {inner : Bytes} {direction : Morph.Direction} {now : ClockReading}
    {random : Except String (Vector UInt8 Morph.frameRandomLen)} (output : Bytes) :
    (Morph.encodeFrameInto lib key profile kind inner direction now random output).2 =
      (Morph.encodeFrameInto lib key profile kind inner direction now random []).2 := by
  simp only [Morph.encodeFrameInto]
  split_ifs
  · rfl
  · rfl
  · cases Morph.currentEpoch profile now with
    | error e => rfl
    | ok epoch => cases random <;> rfl

theorem decodeFrameInto_buffer {key : MorphKey} {profile : Profile} {input : Bytes}
    {direction : Morph.Direction} {now : ClockReading} (output : Bytes) :
    Morph.decodeFrameInto lib key profile input direction now output =
        Morph.decodeFrameInto lib key profile input direction now [] ∨
      ∃ e, Morph.decodeFrameInto lib key profile input direction now output = (output, .error e) ∧
        Morph.decodeFrameInto lib key profile input direction now [] = ([], .error e) := by
  simp only [Morph.decodeFrameInto]
  split_ifs
  · exact Or.inr ⟨_, rfl, rfl⟩
  · exact Or.inr ⟨_, rfl, rfl⟩
  · cases Morph.currentEpoch profile now with
    | error e => exact Or.inr ⟨e, rfl, rfl⟩
    | ok epoch =>
      simp only
      split_ifs
      · exact Or.inr ⟨_, rfl, rfl⟩
      · exact Or.inl rfl

theorem encodeInto_morph (codec : MorphCodec) (input : WireInput) (inner output : Bytes) :
    ((ClientWire.morph codec).encodeInto lib input.calls inner input.clock input.random output).2 =
      (codec.encodePayloadInto lib inner .clientToServer input.clock input.random
        output).2.mapError .morph := by
  simp only [ClientWire.encodeInto]
  cases codec.encodePayloadInto lib inner .clientToServer input.clock input.random output with
  | mk frame result => cases result <;> rfl

theorem encodeCoverInto_morph (codec : MorphCodec) (input : WireInput) (output : Bytes) :
    ((ClientWire.morph codec).encodeCoverInto lib input.clock input.random output).2 =
      (codec.encodeCoverInto lib .clientToServer input.clock input.random
        output).2.mapError .morph := by
  simp only [ClientWire.encodeCoverInto]
  cases codec.encodeCoverInto lib .clientToServer input.clock input.random output with
  | mk frame result => cases result <;> rfl

theorem encodeInto_buffer (input : WireInput) (inner output : Bytes) :
    (wire.encodeInto lib input.calls inner input.clock input.random output).2 =
      (wire.encodeInto lib input.calls inner input.clock input.random []).2 := by
  cases wire with
  | legacy => rfl
  | speedy codec => rfl
  | morph codec =>
    rw [encodeInto_morph, encodeInto_morph]
    exact congrArg _ (encodeFrameInto_buffer output)

theorem encodeCoverInto_buffer (input : WireInput) (output : Bytes) :
    (wire.encodeCoverInto lib input.clock input.random output).2 =
      (wire.encodeCoverInto lib input.clock input.random []).2 := by
  cases wire with
  | legacy => rfl
  | speedy codec => rfl
  | morph codec =>
    rw [encodeCoverInto_morph, encodeCoverInto_morph]
    exact congrArg _ (encodeFrameInto_buffer output)

theorem readResponse_buffer (sessionId : UInt64) (input : WireInput) (datagram decoded : Bytes) :
    (readResponse lib wire sessionId input datagram decoded).2 =
      (readResponse lib wire sessionId input datagram []).2 := by
  cases wire with
  | legacy => rfl
  | speedy codec => rfl
  | morph codec =>
    simp only [readResponse, ClientWire.decodeInto, Morph.MorphCodec.decodeInto]
    rcases decodeFrameInto_buffer decoded with h | ⟨e, h, he⟩
    · rw [h]
    · rw [h, he]

end Buffers

section Pass

variable {lib : Libraries} {v : Variant} {wire : ClientWire} {i : Initiation lib} {deadline : ℕ}

theorem sendRequest_ok_iff {request : Bytes} {input : WireInput} {sent : Except IoError Unit}
    (hsent : ∀ e, sent = .error e → v.isRetryable e) (encoded : Bytes) :
    (sendRequest lib v wire request input sent encoded).2 = .ok () ↔
      Encodes wire lib input request := by
  rw [Encodes, ← encodeInto_buffer input request encoded, sendRequest]
  cases wire.encodeInto lib input.calls request input.clock input.random encoded with
  | mk frame result =>
    cases result with
    | error e => simp
    | ok u =>
      cases sent with
      | ok u' => simp
      | error e => simp [hsent e rfl]

theorem retransmit_ok_iff {x : Exchange} {t : Turn} (ht : t.Bearable v) :
    (retransmit v wire i x t).2 = .ok () ↔
      (x.nextRetransmit ≤ t.now → Encodes wire lib t.encoding i.request) := by
  have hsend : (sendRequest lib v wire i.request t.encoding t.sent x.encodedRequest).2 = .ok () ↔
      Encodes wire lib t.encoding i.request := sendRequest_ok_iff ht.sent x.encodedRequest
  rw [retransmit]
  by_cases hdue : x.nextRetransmit ≤ t.now
  · rw [if_pos hdue, ← hsend]
    cases sendRequest lib v wire i.request t.encoding t.sent x.encodedRequest with
    | mk encoded result => cases result <;> simp [hdue]
  · simp [hdue]

theorem awaitDatagram_ok_iff {x : Exchange} {t : Turn} (ht : t.Bearable v)
    (hnow : t.now < deadline) :
    (awaitDatagram v wire i deadline x t).2 = .ok () ↔ t.Served v wire i deadline x := by
  have hrun : (if t.stopping = true then v.cancelled else none) = none ↔
      (t.stopping = true → v.cancelled = none) := by
    cases t.stopping <;> simp
  have hsend : (retransmit v wire i x t).2 = .ok () ↔ _ := retransmit_ok_iff ht
  constructor
  · intro h
    rw [awaitDatagram] at h
    cases hc : if t.stopping = true then v.cancelled else none with
    | some e => simp [hc] at h
    | none =>
      rw [hc, if_neg (Nat.not_le.mpr hnow)] at h
      cases hr : retransmit v wire i x t with
      | mk x' result =>
        rw [hr] at h hsend
        cases result with
        | error e => simp at h
        | ok u =>
          refine ⟨hrun.mp hc, hsend.mp rfl, ?_⟩
          rw [hr]
          cases hd : t.setReadTimeout (readTimeout deadline x' t) with
          | error e => simp [hd] at h
          | ok u' => rfl
  · intro h
    have hr : retransmit v wire i x t = ((retransmit v wire i x t).1, .ok ()) :=
      Prod.ext rfl (hsend.mpr h.encodes)
    rw [awaitDatagram, hrun.mpr h.running, if_neg (Nat.not_le.mpr hnow), hr]
    simp only [h.setReadTimeout]

theorem loopPass_of_served {x : Exchange} {t : Turn} (ht : t.Bearable v) (hnow : t.now < deadline)
    (h : t.Served v wire i deadline x) :
    (loopPass v wire i deadline x t).2 = (t.response wire i).map (finishResponse v i) := by
  have hawait := (awaitDatagram_ok_iff ht hnow).mpr h
  rw [loopPass, Turn.response]
  cases hx : awaitDatagram v wire i deadline x t with
  | mk x' result =>
    rw [hx] at hawait
    obtain rfl : result = .ok () := hawait
    cases hd : t.received with
    | error e => simp [ht.received e hd]
    | ok datagram =>
      simp only
      rw [← readResponse_buffer i.sessionId t.decoding datagram x'.decoded]
      cases readResponse lib wire i.sessionId t.decoding datagram x'.decoded with
      | mk decoded response => cases response <;> rfl

theorem loopPass_of_not_served {x : Exchange} {t : Turn} (ht : t.Bearable v)
    (hnow : t.now < deadline) (h : ¬ t.Served v wire i deadline x) :
    ∃ e, (loopPass v wire i deadline x t).2 = some (.error e) := by
  have hawait := (awaitDatagram_ok_iff ht hnow).not.mpr h
  rw [loopPass]
  cases hx : awaitDatagram v wire i deadline x t with
  | mk x' result =>
    rw [hx] at hawait
    cases result with
    | error e => exact ⟨e, rfl⟩
    | ok u => exact absurd rfl hawait

theorem finishResponse_of_error {response : Bytes} {e : CryptoError}
    (h : i.handshake.finish response = .error e) :
    finishResponse v i response = .error (v.unauthenticated e) := by
  rw [finishResponse, h]
  rfl

theorem Turn.Answers.finishResponse_eq {t : Turn} {session : Session}
    (h : t.Answers wire i session) :
    (t.response wire i).map (finishResponse v i) = some (.ok session) := by
  obtain ⟨response, crypto, payload, parameters, hr, hf, hp, rfl⟩ := h
  have hfinish :
      (i.handshake.finish response).mapError v.unauthenticated = .ok (crypto, payload) := by
    rw [hf]
    rfl
  have hparameters : (SessionParameters.decode payload).mapError .parameters =
      (.ok parameters : Except NegotiationError SessionParameters) := by
    rw [hp]
    rfl
  rw [hr, Option.map_some, finishResponse]
  exact congrArg some (bind_eq_ok.mpr ⟨_, hfinish, bind_eq_ok.mpr ⟨_, hparameters, rfl⟩⟩)

theorem loopPass_eq_none_iff {x : Exchange} {t : Turn} (ht : t.Bearable v)
    (hnow : t.now < deadline) (hrej : t.Rejected wire i) :
    (loopPass v wire i deadline x t).2 = none ↔
      t.Served v wire i deadline x ∧ ¬ t.Forged wire i := by
  by_cases hs : t.Served v wire i deadline x
  · rw [loopPass_of_served ht hnow hs, Option.map_eq_none_iff]
    constructor
    · intro hnone
      refine ⟨hs, ?_⟩
      intro ⟨response, e, hsome, _⟩
      rw [hnone] at hsome
      cases hsome
    · intro h
      exact hrej.resolve_right h.2
  · obtain ⟨e, he⟩ := loopPass_of_not_served ht hnow hs
    simp [he, hs]

theorem loopPass_ne_ok {x : Exchange} {t : Turn} (ht : t.Bearable v) (hnow : t.now < deadline)
    (hrej : t.Rejected wire i) (session : Session) :
    (loopPass v wire i deadline x t).2 ≠ some (.ok session) := by
  by_cases hs : t.Served v wire i deadline x
  · rw [loopPass_of_served ht hnow hs]
    rcases hrej with hnone | ⟨response, e, hsome, hf⟩
    · simp [hnone]
    · simp [hsome, finishResponse_of_error hf]
  · obtain ⟨e, he⟩ := loopPass_of_not_served ht hnow hs
    simp [he]

end Pass

end MouseVpn.Client
