import MouseVpn.Client.ResponseLoop

/-!
# Forged answers to a connection attempt

A datagram that fails a check in front of the handshake is passed over. One that carries the right
kind and session id but fails Noise authentication ends the attempt on Android and Windows, because
`finish` consumes the handshake; the Linux client then starts over with a new session id and a new
Noise state.
-/

namespace MouseVpn.Client

open MouseVpn.Lib MouseVpn.Crypto MouseVpn.Protocol

section Attempts

variable {lib : Libraries} {v : Variant} {wire : ClientWire} {i : Initiation lib} {deadline : ℕ}

theorem sendCovers_ok_iff (covers : List Cover) (cover : Bytes) :
    sendCovers lib wire covers cover = .ok () ↔ ∀ c ∈ covers, c.Served wire lib := by
  induction covers generalizing cover with
  | nil => simp [sendCovers]
  | cons c covers ih =>
    have hbuffer : (wire.encodeCoverInto lib c.input.clock c.input.random cover).2 = _ :=
      encodeCoverInto_buffer c.input cover
    rw [List.forall_mem_cons, sendCovers]
    cases hc : wire.encodeCoverInto lib c.input.clock c.input.random cover with
    | mk frame result =>
      rw [hc] at hbuffer
      cases result with
      | error e =>
        refine ⟨nofun, ?_⟩
        intro h
        rw [h.1.encodes] at hbuffer
        cases hbuffer
      | ok u =>
        cases hsent : c.sent with
        | error e =>
          refine ⟨nofun, ?_⟩
          intro h
          rw [h.1.sent] at hsent
          cases hsent
        | ok u' =>
          cases hjitter : wire.handshakeJitterMs c.jitter with
          | error e =>
            refine ⟨nofun, ?_⟩
            intro h
            obtain ⟨ms, hms⟩ := h.1.jitter
            rw [hms] at hjitter
            cases hjitter
          | ok ms =>
            have hserved : c.Served wire lib := ⟨hbuffer.symm, hsent, ms, hjitter⟩
            simp only [ih, hserved, true_and]

theorem sendPrelude_ok_iff {attempt : Attempt} :
    sendPrelude lib wire attempt = .ok () ↔
      ∃ count, wire.coverCount attempt.coverDraw = .ok count ∧
        ∀ k < count, (attempt.cover k).Served wire lib := by
  rw [sendPrelude]
  cases hc : wire.coverCount attempt.coverDraw with
  | error e => simp
  | ok count =>
    rw [sendCovers_ok_iff]
    simp

theorem converse_of_opened {attempt : Attempt} (hb : attempt.Bearable v)
    (h : attempt.Opened wire i) :
    converse v wire i deadline attempt =
      Machine.returned (loopPass v wire i deadline) (attempt.exchange v wire i) attempt.turns := by
  have hsend : (sendRequest lib v wire i.request attempt.encoding attempt.sent []).2 = .ok () :=
    (sendRequest_ok_iff hb.sent []).mpr h.encodes
  rw [converse, sendPrelude_ok_iff.mpr h.covers, Attempt.exchange]
  cases hr : sendRequest lib v wire i.request attempt.encoding attempt.sent [] with
  | mk encoded result =>
    rw [hr] at hsend
    obtain rfl : result = .ok () := hsend
    rfl

theorem converse_of_not_opened {attempt : Attempt} (hb : attempt.Bearable v)
    (h : ¬ attempt.Opened wire i) : ∃ e, converse v wire i deadline attempt = some (.error e) := by
  have hsend : (sendRequest lib v wire i.request attempt.encoding attempt.sent []).2 = .ok () ↔
      Encodes wire lib attempt.encoding i.request := sendRequest_ok_iff hb.sent []
  rw [converse]
  cases hp : sendPrelude lib wire attempt with
  | error e => exact ⟨e, rfl⟩
  | ok u =>
    cases hr : sendRequest lib v wire i.request attempt.encoding attempt.sent [] with
    | mk encoded result =>
      cases result with
      | error e => exact ⟨e, rfl⟩
      | ok u' =>
        rw [hr] at hsend
        exact absurd ⟨sendPrelude_ok_iff.mp hp, hsend.mp rfl⟩ h

theorem returned_eq_none_iff_served {turns : List Turn} (x : Exchange)
    (hturns : ∀ t ∈ turns, t.Bearable v ∧ t.now < deadline)
    (hrej : ∀ t ∈ turns, t.Rejected wire i) :
    Machine.returned (loopPass v wire i deadline) x turns = none ↔
      Machine.Obeys (loopPass v wire i deadline) (fun x t => t.Served v wire i deadline x) x turns ∧
        ∀ t ∈ turns, ¬ t.Forged wire i := by
  have hpass : ∀ y, ∀ t ∈ turns, (loopPass v wire i deadline y t).2 = none ↔
      t.Served v wire i deadline y ∧ ¬ t.Forged wire i := by
    intro y t ht
    exact loopPass_eq_none_iff (hturns t ht).1 (hturns t ht).2 (hrej t ht)
  rw [Machine.returned_eq_none_iff, Machine.obeys_congr _ hpass, Machine.obeys_and_iff,
    Machine.obeys_forall_iff]

theorem returned_ne_ok {turns : List Turn} (x : Exchange)
    (hturns : ∀ t ∈ turns, t.Bearable v ∧ t.now < deadline)
    (hrej : ∀ t ∈ turns, t.Rejected wire i) (session : Session) :
    Machine.returned (loopPass v wire i deadline) x turns ≠ some (.ok session) := by
  intro h
  obtain ⟨y, t, ht, hpass⟩ := Machine.exists_of_returned _ h
  exact loopPass_ne_ok (hturns t ht).1 (hturns t ht).2 (hrej t ht) session hpass

theorem returned_of_served {before after : List Turn} {last : Turn} {x : Exchange}
    (hturns : ∀ t ∈ before ++ [last], t.Bearable v ∧ t.now < deadline)
    (hrej : ∀ t ∈ before, t.Rejected wire i) (hforged : ∀ t ∈ before, ¬ t.Forged wire i)
    (hserved : Machine.Obeys (loopPass v wire i deadline)
      (fun x t => t.Served v wire i deadline x) x (before ++ [last]))
    {result : Except NegotiationError Session}
    (hlast : (last.response wire i).map (finishResponse v i) = some result) :
    Machine.returned (loopPass v wire i deadline) x (before ++ last :: after) = some result := by
  obtain ⟨hbefore, hs, -⟩ := (Machine.obeys_append _).mp hserved
  have hnone := (returned_eq_none_iff_served x
    (fun t ht => hturns t (List.mem_append_left _ ht)) hrej).mpr ⟨hbefore, hforged⟩
  have hl := hturns last (by simp)
  rw [Machine.returned_append, hnone, Option.none_or, Machine.returned_cons,
    loopPass_of_served hl.1 hl.2 hs, hlast, Option.some_or]

theorem returned_eq_ok_iff {before after : List Turn} {last : Turn} {session : Session}
    (x : Exchange) (hturns : ∀ t ∈ before ++ [last], t.Bearable v ∧ t.now < deadline)
    (hrej : ∀ t ∈ before, t.Rejected wire i) (hlast : last.Answers wire i session) :
    Machine.returned (loopPass v wire i deadline) x (before ++ last :: after) = some (.ok session) ↔
      Machine.Obeys (loopPass v wire i deadline) (fun x t => t.Served v wire i deadline x) x
          (before ++ [last]) ∧
        ∀ t ∈ before, ¬ t.Forged wire i := by
  have hbefore : ∀ t ∈ before, t.Bearable v ∧ t.now < deadline :=
    fun t ht => hturns t (List.mem_append_left _ ht)
  have hl := hturns last (by simp)
  constructor
  · intro h
    rw [Machine.returned_append] at h
    cases hr : Machine.returned (loopPass v wire i deadline) x before with
    | some result =>
      rw [hr, Option.some_or] at h
      exact absurd (hr.trans h) (returned_ne_ok x hbefore hrej session)
    | none =>
      rw [hr, Option.none_or, Machine.returned_cons] at h
      obtain ⟨hserved, hforged⟩ := (returned_eq_none_iff_served x hbefore hrej).mp hr
      refine ⟨(Machine.obeys_append _).mpr ⟨hserved, ?_, trivial⟩, hforged⟩
      by_contra hs
      obtain ⟨e, he⟩ := loopPass_of_not_served hl.1 hl.2 hs
      simp [he] at h
  · intro h
    exact returned_of_served hturns hrej h.2 h.1 hlast.finishResponse_eq

theorem Attempt.Bearable.of_split {attempt : Attempt} {before after : List Turn} {last : Turn}
    (hb : attempt.Bearable v) (hsplit : attempt.turns = before ++ last :: after)
    (hnow : ∀ t ∈ before ++ [last], t.now < deadline) :
    ∀ t ∈ before ++ [last], t.Bearable v ∧ t.now < deadline := by
  have hall : attempt.turns = (before ++ [last]) ++ after := by simp [hsplit]
  intro t ht
  exact ⟨hb.turns t (hall ▸ List.mem_append_left after ht), hnow t ht⟩

theorem converse_eq_none_iff {attempt : Attempt} (hb : attempt.Bearable v)
    (hturns : ∀ t ∈ attempt.turns, t.now < deadline ∧ t.Rejected wire i) :
    converse v wire i deadline attempt = none ↔
      attempt.Served v wire i deadline attempt.turns ∧ ∀ t ∈ attempt.turns, ¬ t.Forged wire i := by
  by_cases ho : attempt.Opened wire i
  · rw [converse_of_opened hb ho, returned_eq_none_iff_served _
      (fun t ht => ⟨hb.turns t ht, (hturns t ht).1⟩) (fun t ht => (hturns t ht).2)]
    exact and_congr_left' ⟨fun h => ⟨ho, h⟩, fun h => h.turns⟩
  · obtain ⟨e, he⟩ : ∃ e, converse v wire i deadline attempt = some (.error e) :=
      converse_of_not_opened hb ho
    rw [he]
    exact ⟨nofun, fun h => absurd h.1.opened ho⟩

theorem converse_eq_ok_iff {attempt : Attempt} {before after : List Turn} {last : Turn}
    {session : Session} (hb : attempt.Bearable v) (hsplit : attempt.turns = before ++ last :: after)
    (hnow : ∀ t ∈ before ++ [last], t.now < deadline) (hrej : ∀ t ∈ before, t.Rejected wire i)
    (hlast : last.Answers wire i session) :
    converse v wire i deadline attempt = some (.ok session) ↔
      attempt.Served v wire i deadline (before ++ [last]) ∧ ∀ t ∈ before, ¬ t.Forged wire i := by
  have hturns := hb.of_split hsplit hnow
  by_cases ho : attempt.Opened wire i
  · rw [converse_of_opened hb ho, hsplit, returned_eq_ok_iff _ hturns hrej hlast]
    exact and_congr_left' ⟨fun h => ⟨ho, h⟩, fun h => h.turns⟩
  · obtain ⟨e, he⟩ : ∃ e, converse v wire i deadline attempt = some (.error e) :=
      converse_of_not_opened hb ho
    rw [he]
    exact ⟨nofun, fun h => absurd h.1.opened ho⟩

/-- The passes in front of `last` have nothing for the handshake, and the client gets to it in
time. -/
def Attempt.Reaches (v : Variant) (wire : ClientWire) (i : Initiation lib) (deadline : ℕ)
    (attempt : Attempt) (last : Turn) : Prop :=
  ∃ before after, attempt.turns = before ++ last :: after ∧
    (∀ t ∈ before ++ [last], t.now < deadline) ∧ (∀ t ∈ before, t.response wire i = none) ∧
    attempt.Served v wire i deadline (before ++ [last])

theorem converse_of_reaches {attempt : Attempt} {last : Turn}
    {result : Except NegotiationError Session} (hb : attempt.Bearable v)
    (h : attempt.Reaches v wire i deadline last)
    (hlast : (last.response wire i).map (finishResponse v i) = some result) :
    converse v wire i deadline attempt = some result := by
  obtain ⟨before, after, hsplit, hnow, hnone, hserved⟩ := h
  have hforged : ∀ t ∈ before, ¬ t.Forged wire i := by
    intro t ht ⟨response, e, hsome, _⟩
    rw [hnone t ht] at hsome
    cases hsome
  rw [converse_of_opened hb hserved.opened, hsplit]
  exact returned_of_served (hb.of_split hsplit hnow) (fun t ht => Or.inl (hnone t ht)) hforged
    hserved.turns hlast

end Attempts

inductive Platform
  | android (interruptible : Bool)
  | windows
  deriving DecidableEq

def Platform.variant : Platform → Variant
  | .android interruptible => Android.variant interruptible
  | .windows => Windows.variant

section Clients

variable (lib : Libraries) (config : ValidatedClientConfig) (wire : ClientWire)

def Platform.negotiate (attempt : Attempt) : Platform → Option (Except NegotiationError Session)
  | .android interruptible => Android.renegotiate lib config wire interruptible attempt
  | .windows => Windows.negotiate lib config wire attempt

def Linux.Spoiled (deadline : ℕ) (p : Attempt × ℕ) : Prop :=
  p.1.started < deadline ∧ p.2 < deadline ∧ p.1.Bearable Linux.variant ∧
    ∃ i forged, prepare lib config p.1 = .ok i ∧ forged.Forged wire i ∧
      p.1.Reaches Linux.variant wire i deadline forged

variable {lib config wire}

theorem Platform.negotiate_eq {attempt : Attempt} {i : Initiation lib}
    (h : prepare lib config attempt = .ok i) (platform : Platform) :
    platform.negotiate lib config wire attempt =
      converse platform.variant wire i (attempt.started + handshakeTimeout) attempt := by
  cases platform with
  | android interruptible => rw [negotiate, Android.renegotiate, h, variant]
  | windows => rw [negotiate, Windows.negotiate, h, variant]

namespace Linux

variable {deadline : ℕ}

theorem negotiateAttempt_of_reaches {attempt : Attempt} {i : Initiation lib} {last : Turn}
    {result : Except NegotiationError Session} (hstarted : attempt.started < deadline)
    (hprepare : prepare lib config attempt = .ok i) (hb : attempt.Bearable Linux.variant)
    (h : attempt.Reaches Linux.variant wire i deadline last)
    (hlast : (last.response wire i).map (finishResponse Linux.variant i) = some result) :
    negotiateAttempt lib config wire deadline attempt = some result := by
  rw [negotiateAttempt, hprepare]
  simp only [ge_iff_le, Nat.not_le.mpr hstarted, if_false]
  exact converse_of_reaches hb h hlast

theorem negotiateUntil_of_spoiled {p : Attempt × ℕ} {attempts : List (Attempt × ℕ)}
    (h : Spoiled lib config wire deadline p) :
    negotiateUntil lib config wire deadline (p :: attempts) =
      negotiateUntil lib config wire deadline attempts := by
  obtain ⟨hstarted, hnow, hb, i, forged, hprepare, ⟨response, e, hsome, hf⟩, hreaches⟩ := h
  have hlast : (forged.response wire i).map (finishResponse Linux.variant i) =
      some (.error .invalidHandshakeResponse) := by
    rw [hsome, Option.map_some, finishResponse_of_error hf]
    rfl
  obtain ⟨attempt, now⟩ := p
  rw [negotiateUntil, negotiateAttempt_of_reaches hstarted hprepare hb hreaches hlast]
  exact if_pos hnow

theorem negotiateUntil_append {spoiled attempts : List (Attempt × ℕ)}
    (h : ∀ p ∈ spoiled, Spoiled lib config wire deadline p) :
    negotiateUntil lib config wire deadline (spoiled ++ attempts) =
      negotiateUntil lib config wire deadline attempts := by
  induction spoiled with
  | nil => rfl
  | cons p spoiled ih =>
    rw [List.cons_append, negotiateUntil_of_spoiled (h p List.mem_cons_self)]
    exact ih (fun q hq => h q (List.mem_cons_of_mem p hq))

end Linux

/-- An attempt outlasts datagrams that fail a check, and succeeds at the server's answer, exactly
when no datagram before has got to the handshake and failed there. The Linux client succeeds
after any number of attempts that ended so. -/
theorem forged_responses_harmless_iff {attempt : Attempt} {i : Initiation lib} (wire : ClientWire)
    (platform : Platform) (hprepare : prepare lib config attempt = .ok i)
    (hsockets : attempt.Bearable platform.variant) :
    ((∀ t ∈ attempt.turns, t.now < attempt.started + handshakeTimeout ∧ t.Rejected wire i) →
      (platform.negotiate lib config wire attempt = none ↔
        attempt.Served platform.variant wire i (attempt.started + handshakeTimeout)
            attempt.turns ∧
          ∀ t ∈ attempt.turns, ¬ t.Forged wire i)) ∧
    (∀ before last after session, attempt.turns = before ++ last :: after →
      (∀ t ∈ before ++ [last], t.now < attempt.started + handshakeTimeout) →
      (∀ t ∈ before, t.Rejected wire i) → last.Answers wire i session →
      (platform.negotiate lib config wire attempt = some (.ok session) ↔
        attempt.Served platform.variant wire i (attempt.started + handshakeTimeout)
            (before ++ [last]) ∧
          ∀ t ∈ before, ¬ t.Forged wire i)) ∧
    ∀ begun spoiled next now rest j last session,
      (∀ p ∈ spoiled, Linux.Spoiled lib config wire (begun + handshakeTimeout) p) →
      next.started < begun + handshakeTimeout → prepare lib config next = .ok j →
      next.Bearable Linux.variant →
      next.Reaches Linux.variant wire j (begun + handshakeTimeout) last →
      last.Answers wire j session →
      Linux.negotiate lib config wire begun (spoiled ++ (next, now) :: rest) =
        some (.ok session) := by
  rw [Platform.negotiate_eq hprepare]
  refine ⟨?_, ?_, ?_⟩
  · intro hturns
    exact converse_eq_none_iff hsockets hturns
  · intro before last after session hsplit hnow hrej hlast
    exact converse_eq_ok_iff hsockets hsplit hnow hrej hlast
  · intro begun spoiled next now rest j last session hspoiled hstarted hnext hb hreaches hlast
    rw [Linux.negotiate, Linux.negotiateUntil_append hspoiled, Linux.negotiateUntil,
      Linux.negotiateAttempt_of_reaches hstarted hnext hb hreaches hlast.finishResponse_eq]

end Clients

section Samples

def legacyClient : ValidatedClientConfig where
  serverPublicKey := ⟨Vector.replicate 32 1⟩
  clientPrivateKey := ⟨Vector.replicate 32 5⟩
  context := ⟨Vector.replicate 32 0⟩
  protocol := .legacy

def sampleInput : WireInput := ⟨[], some 0, .error "unused"⟩

def passWith (datagram : Bytes) : Turn where
  stopping := false
  now := 0
  encoding := sampleInput
  sent := .ok ()
  setReadTimeout _ := .ok ()
  received := .ok datagram
  decoding := sampleInput

def answer (payload : Bytes) : Bytes :=
  Datagram.encode
    ⟨{ kind := .handshakeResponse, flags := 0, sessionId := 0, sequence := 0 }, payload⟩

def sampleParameters : SessionParameters := ⟨⟨10, 0, 0, 2⟩, 24, 1280, ⟨10, 0, 0, 1⟩⟩

def serverAnswer : Turn := passWith (answer (List.replicate 64 0 ++ sampleParameters.encode))

def attemptAfter (datagram : Bytes) : Attempt where
  sessionBytes := .ok (Vector.replicate 8 0)
  entropy := []
  started := 0
  coverDraw := .error "unused"
  cover _ := ⟨sampleInput, .ok (), .error "unused"⟩
  encoding := sampleInput
  sent := .ok ()
  turns := [passWith datagram, serverAnswer]

def sampleInitiation : Initiation clearLibraries where
  sessionId := 0
  handshake := ⟨(List.replicate 32 0, some (List.replicate 32 1))⟩
  request := Datagram.encode
    ⟨{ kind := .handshakeInit, flags := 0, sessionId := 0, sequence := 0 }, []⟩

def sampleSession : Session :=
  (DataPlane.TunnelDataPlane.new 0 1280 (SecureSession.new clearTransport ⟨Vector.replicate 32 0⟩),
    sampleParameters)

theorem prepare_attemptAfter (datagram : Bytes) :
    prepare clearLibraries legacyClient (attemptAfter datagram) = .ok sampleInitiation := rfl

theorem attemptAfter_bearable (v : Variant) (datagram : Bytes) :
    (attemptAfter datagram).Bearable v where
  covers := nofun
  sent := nofun
  turns := by
    have hpass : ∀ bytes, (passWith bytes).Bearable v := fun _ => ⟨nofun, nofun, nofun⟩
    simp [attemptAfter, serverAnswer, hpass]

theorem passWith_served {v : Variant} {deadline : ℕ} {x : Exchange} (datagram : Bytes) :
    (passWith datagram).Served v .legacy sampleInitiation deadline x :=
  ⟨nofun, fun _ => rfl, rfl⟩

theorem attemptAfter_opened (datagram : Bytes) :
    (attemptAfter datagram).Opened .legacy sampleInitiation :=
  ⟨⟨0, rfl, nofun⟩, rfl⟩

theorem serverAnswer_answers : serverAnswer.Answers .legacy sampleInitiation sampleSession :=
  ⟨_, _, _, _, rfl, rfl, rfl, rfl⟩

theorem answer_nil_forged : (passWith (answer [])).Forged .legacy sampleInitiation :=
  ⟨[], .noise .decrypt, rfl, rfl⟩

theorem short_reaches : (attemptAfter [1, 2]).Reaches Linux.variant .legacy sampleInitiation
    (0 + handshakeTimeout) serverAnswer := by
  refine ⟨[passWith [1, 2]], [], rfl, ?_, ?_, attemptAfter_opened _, passWith_served _,
    passWith_served _, trivial⟩
  · simp [serverAnswer, passWith, handshakeTimeout]
  · simp only [List.mem_singleton, forall_eq]
    rfl

theorem answer_nil_reaches : (attemptAfter (answer [])).Reaches Linux.variant .legacy
    sampleInitiation (0 + handshakeTimeout) (passWith (answer [])) := by
  refine ⟨[], [serverAnswer], rfl, ?_, List.forall_mem_nil _, attemptAfter_opened _,
    passWith_served _, trivial⟩
  simp [passWith, handshakeTimeout]

theorem answer_nil_spoils : Linux.Spoiled clearLibraries legacyClient .legacy
    (0 + handshakeTimeout) (attemptAfter (answer []), 1) := by
  have hstarted : (attemptAfter (answer [])).started < 0 + handshakeTimeout := by
    simp [attemptAfter, handshakeTimeout]
  have hnow : 1 < 0 + handshakeTimeout := by simp [handshakeTimeout]
  exact ⟨hstarted, hnow, attemptAfter_bearable _ _, sampleInitiation, _, prepare_attemptAfter _,
    answer_nil_forged, answer_nil_reaches⟩

/-- A datagram too short for a header does not keep a client from the server's answer, and a
forged answer does not keep the Linux client from it. -/
theorem server_answer_harmless :
    (attemptAfter [1, 2]).Bearable Windows.variant ∧
    Windows.negotiate clearLibraries legacyClient .legacy (attemptAfter [1, 2]) =
      some (.ok sampleSession) ∧
    Linux.negotiate clearLibraries legacyClient .legacy 0
        [(attemptAfter (answer []), 1), (attemptAfter [1, 2], 2)] = some (.ok sampleSession) := by
  have hbearable := attemptAfter_bearable Windows.variant [1, 2]
  obtain ⟨-, hok, hlinux⟩ := forged_responses_harmless_iff .legacy .windows
    (prepare_attemptAfter [1, 2]) hbearable
  have hnow : ∀ t ∈ [passWith [1, 2]] ++ [serverAnswer],
      t.now < (attemptAfter [1, 2]).started + handshakeTimeout := by
    simp [serverAnswer, passWith, attemptAfter, handshakeTimeout]
  have hserved : (attemptAfter [1, 2]).Served Windows.variant .legacy sampleInitiation
      ((attemptAfter [1, 2]).started + handshakeTimeout) ([passWith [1, 2]] ++ [serverAnswer]) :=
    ⟨attemptAfter_opened _, passWith_served _, passWith_served _, trivial⟩
  have hnone : (passWith [1, 2]).response .legacy sampleInitiation = none := rfl
  refine ⟨hbearable, ?_, ?_⟩
  · refine (hok _ _ [] sampleSession rfl hnow ?_ serverAnswer_answers).mpr ⟨hserved, ?_⟩
    · exact List.forall_mem_singleton.mpr (Or.inl hnone)
    · simp [Turn.Forged, hnone]
  · have hstarted : (attemptAfter [1, 2]).started < 0 + handshakeTimeout := by
      simp [attemptAfter, handshakeTimeout]
    exact hlinux 0 [_] _ 2 [] sampleInitiation serverAnswer sampleSession
      (List.forall_mem_singleton.mpr answer_nil_spoils) hstarted (prepare_attemptAfter _)
      (attemptAfter_bearable _ _) short_reaches serverAnswer_answers

/-- An empty answer in front of the server's ends the attempt on Android and Windows at once,
while the Linux client goes on to its next attempt. -/
theorem forged_response_aborts :
    (Android.renegotiate clearLibraries legacyClient .legacy true (attemptAfter (answer [])) =
      some (.error (.crypto (.noise .decrypt)))) ∧
    (Windows.negotiate clearLibraries legacyClient .legacy (attemptAfter (answer [])) =
      some (.error .handshakeTimeout)) ∧
    (Linux.negotiate clearLibraries legacyClient .legacy 0
        [(attemptAfter (answer []), 1), (attemptAfter [1, 2], 2)] = some (.ok sampleSession)) := by
  refine ⟨rfl, rfl, rfl⟩

end Samples

end MouseVpn.Client
