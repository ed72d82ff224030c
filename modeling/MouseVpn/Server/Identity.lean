import MouseVpn.Server.ThreadSteps

/-!
# Identity of sessions

Three identities meet in a session: the device that the routing tag named, the
static key that the Noise handshake authenticated, and the device whose lease gave
the tunnel address. The prologue of the handshake fixes the wire mode as well.
-/

namespace MouseVpn.Server

open MouseVpn.Lib MouseVpn.Crypto MouseVpn.Protocol MouseVpn.DataPlane
open MouseVpn.Wire.Speedy (SpeedyCodec)

/-- `made` names the prologue that each initiation for the server key was made under, and
no initiation can be read under another one. -/
def IdealNoise (lib : Libraries) (secret : SecretKey) (made : Bytes → ProtocolContext) : Prop :=
  ∀ context handshake payload read, ServerHandshake.new lib secret context = .ok handshake →
    handshake.readInitial payload = .ok read → made payload = context

/-- The identities of a session agree, as its handshake bound them: `payload` is the
initiation, `registry` the state of the registry that authorized it. -/
structure Identified (lib : Libraries) (config : ValidatedServerConfig)
    (made : Bytes → ProtocolContext) (registry : DeviceRegistry) (payload : Bytes)
    (s : RuntimeSession) : Prop where
  lease : ∃ lease, registry.authorize s.noiseKey = some lease ∧ lease.address = s.clientAddress
  client : ∀ key, s.wire.client = some key → key = s.noiseKey
  prologue : made payload = ProtocolContext.forSpeedyServer lib config.serverPublicKey ↔
    s.wire.isSpeedy = true

section Handshake

variable {lib : Libraries} {config : ValidatedServerConfig} {made : Bytes → ProtocolContext}

theorem Authorized.identified (hnoise : IdealNoise lib config.serverPrivateKey made)
    (hcontext : config.context ≠ ProtocolContext.forSpeedyServer lib config.serverPublicKey)
    {st : ServerState} {peer : SocketAddr} {datagram : Datagram} {wire : WireMode}
    {handshake : ServerHandshake lib} {key : PublicKey} {client : DeviceLease}
    {crypto : SecureSession} {entropy parameters response : Bytes}
    (ha : Authorized lib config datagram wire st handshake key client)
    (hf : handshake.finish entropy parameters = .ok (crypto, response)) :
    Identified lib config made st.registry datagram.payload
      (newSession lib config peer datagram wire client crypto) := by
  obtain ⟨⟨initial, message, hnew, hread⟩, -, hallow⟩ := readInitiation_some ha.read
  have hkey : (newSession lib config peer datagram wire client crypto).noiseKey = key :=
    newSession_noiseKey ha.read hf
  refine ⟨⟨client, by rw [hkey]; exact ha.lease, rfl⟩, fun k hk => ?_, ?_⟩
  · rw [hkey]
    rcases WireMode.client_of_allowsClient hallow with hnone | hsome
    · exact absurd (hnone.symm.trans hk) (by simp)
    · exact Option.some.inj (hk.symm.trans hsome)
  · rw [hnoise _ _ _ _ hnew hread]
    simp only [newSession, handshakeContext]
    cases wire.isSpeedy with
    | false => simpa using hcontext
    | true => simp

theorem Identified.congr {registry : DeviceRegistry} {payload : Bytes} {s s' : RuntimeSession}
    (h : Identified lib config made registry payload s) (hs : SameSession s s') :
    Identified lib config made registry payload s' := by
  obtain ⟨hl, hc, hp⟩ := h
  rw [← hs.noiseKey, ← hs.clientAddress] at hl
  rw [← hs.wire, ← hs.noiseKey] at hc
  rw [← hs.wire] at hp
  exact ⟨hl, hc, hp⟩

end Handshake

def UdpStage.call {lib : Libraries} : UdpStage lib → Option Call
  | .idle => none
  | .decoded call => some call
  | .authorized call _ _ _ => some call
  | .found call _ => some call
  | .checked call _ _ => some call

namespace System

variable (lib : Libraries) (config : ValidatedServerConfig) (registry : DeviceRegistry)

theorem Advances.call {lib : Libraries} {config : ValidatedServerConfig} {σ : System lib}
    {m : Move} {r : System lib × List Output} (h : σ.Advances config m r) {call : Call}
    (hc : r.1.udp.call = some call) :
    σ.udp.call = some call ∨ ∃ arrival, m = .receive arrival ∧ σ.Decodes config arrival call := by
  cases h with
  | @decoded arrival call' router hd =>
    cases hc
    exact Or.inr ⟨arrival, rfl, hd⟩
  | authorized hst | found hst | checked hst =>
    cases hc
    exact Or.inl (by rw [hst]; rfl)
  | dropped | finished | acted => cases hc
  | _ => exact Or.inl hc

def Received (ms : List Move) (call : Call) : Prop :=
  ∃ pre arrival post, ms = pre ++ .receive arrival :: post ∧
    (after config lib registry pre).Decodes config arrival call

def AuthorizedIn (ms : List Move) (call : Call) (handshake : ServerHandshake lib)
    (key : PublicKey) (client : DeviceLease) : Prop :=
  ∃ pre post, ms = pre ++ post ∧ Received lib config registry pre call ∧
    call.datagram.header.kind = .handshakeInit ∧
    Authorized lib config call.datagram call.wire (after config lib registry pre).core handshake
      key client

variable {lib} in
/-- The step to `st` finishes the handshake of `call`, and makes the session at `p` of it. -/
def Makes (σ : System lib) (m : Move) (st : ServerState) (call : Call) (p : ℕ)
    (s : RuntimeSession) : Prop :=
  ∃ handshake key client crypto response, m = .udp ∧ σ.core.heap[p]? = none ∧
    σ.udp = .authorized call handshake key client ∧
    handshake.finish call.env.entropy (sessionParameters config call.wire client).encode =
      .ok (crypto, response) ∧
    st.heap[p]? = some (newSession lib config call.peer call.datagram call.wire client crypto) ∧
    SameSession (newSession lib config call.peer call.datagram call.wire client crypto) s

/-- The session at `p` was made by a handshake that was received and authorized after `pre`. -/
def Established (made : Bytes → ProtocolContext) (ms : List Move) (p : ℕ) (s : RuntimeSession) :
    Prop :=
  ∃ pre mid m post call, ms = pre ++ mid ++ m :: post ∧ Received lib config registry pre call ∧
    call.datagram.header.kind = .handshakeInit ∧
    (after config lib registry (pre ++ mid)).Makes config m
      (after config lib registry (pre ++ mid ++ [m])).core call p s ∧
    s.wire = call.wire ∧
    Identified lib config made (after config lib registry pre).core.registry
      call.datagram.payload s

variable {lib config registry}

theorem stage_received (ms : List Move) {call : Call}
    (h : (after config lib registry ms).udp.call = some call) :
    Received lib config registry ms call := by
  obtain ⟨pre, _, post, hms, arrival, rfl, hd⟩ := Machine.run_origin (step config)
    (fun σ call => σ.udp.call = some call)
    (fun σ m call => ∃ arrival, m = .receive arrival ∧ σ.Decodes config arrival call)
    (by simp [start, UdpStage.call]) (fun σ m _ => (advance_advances config σ m).call) h
  exact ⟨pre, arrival, post, hms, hd⟩

theorem stage_authorized (ms : List Move) {call : Call} {handshake : ServerHandshake lib}
    {key : PublicKey} {client : DeviceLease}
    (h : (after config lib registry ms).udp = .authorized call handshake key client) :
    AuthorizedIn lib config registry ms call handshake key client := by
  obtain ⟨pre, m, post, hms, hst, hk, ha⟩ := Machine.run_origin (step config)
    (fun σ call => σ.udp = .authorized call handshake key client)
    (fun σ _ call => σ.udp = .decoded call ∧ call.datagram.header.kind = .handshakeInit ∧
      Authorized lib config call.datagram call.wire σ.core handshake key client)
    (by simp [start]) (fun σ m _ => (advance_advances config σ m).inFlight) h
  exact ⟨pre, m :: post, hms, stage_received pre (by rw [after, hst]; rfl), hk, ha⟩

theorem Advances.makes {σ : System lib} {m : Move} {r : System lib × List Output}
    (h : σ.Advances config m r) {p : ℕ} {s : RuntimeSession}
    (hs : ∃ t, r.1.core.heap[p]? = some t ∧ SameSession t s) :
    (∃ t, σ.core.heap[p]? = some t ∧ SameSession t s) ∨
      ∃ call, σ.Makes config m r.1.core call p s := by
  obtain ⟨t, ht, hts⟩ := hs
  rcases h.created ht with
    ⟨t₀, ht₀⟩ | ⟨call, handshake, key, client, crypto, response, hm, hnew, hst, hf, rfl⟩
  · obtain ⟨t', ht', hkept⟩ := h.session ht₀
    obtain rfl : t = t' := Option.some.inj (ht.symm.trans ht')
    exact Or.inl ⟨t₀, ht₀, hkept.same.trans hts⟩
  · exact Or.inr ⟨call, handshake, key, client, crypto, response, hm, hnew, hst, hf, ht, hts⟩

theorem session_established {made : Bytes → ProtocolContext}
    (hnoise : IdealNoise lib config.serverPrivateKey made)
    (hcontext : config.context ≠ ProtocolContext.forSpeedyServer lib config.serverPublicKey)
    (ms : List Move) {p : ℕ} {s : RuntimeSession}
    (hs : (after config lib registry ms).core.heap[p]? = some s) :
    Established lib config registry made ms p s := by
  obtain ⟨pre, m, post, rfl, call, hmakes⟩ := Machine.run_origin (step config)
    (fun σ s => ∃ t, σ.core.heap[p]? = some t ∧ SameSession t s)
    (fun σ m s => ∃ call, σ.Makes config m (step config σ m).1.core call p s)
    (by simp [start, ServerState.start])
    (fun σ m _ => (advance_advances config σ m).makes) ⟨s, hs, .refl s⟩
  obtain ⟨handshake, key, client, crypto, response, -, -, hst, hf, -, hsame⟩ := id hmakes
  obtain ⟨pre', mid, rfl, hrec, hk, ha⟩ := stage_authorized pre hst
  refine ⟨pre', mid, m, post, call, rfl, hrec, hk, ?_, hsame.wire,
    (ha.identified hnoise hcontext hf).congr hsame⟩
  rw [after_concat]
  exact hmakes

/-- In every interleaving the identities of every session agree, and a receiver opens
only datagrams that were routed to its own device, or by no tag to a legacy session. -/
theorem session_identity {made : Bytes → ProtocolContext}
    (hnoise : IdealNoise lib config.serverPrivateKey made)
    (hcontext : config.context ≠ ProtocolContext.forSpeedyServer lib config.serverPublicKey)
    (ms : List Move) :
    (∀ (p : ℕ) s, (after config lib registry ms).core.heap[p]? = some s →
      Established lib config registry made ms p s) ∧
    (∀ m (p : ℕ) s s', (after config lib registry ms).core.heap[p]? = some s →
      (after config lib registry (ms ++ [m])).core.heap[p]? = some s' →
      s'.inbound ≠ s.inbound →
      ∃ call checkedAt, (after config lib registry ms).udp = .checked call p checkedAt ∧
        Received lib config registry ms call ∧
        (∀ key, call.wire.client = some key → s.noiseKey = key) ∧
        (call.wire = .legacy → s.wire = .legacy)) := by
  refine ⟨fun p s hs => session_established hnoise hcontext ms hs, ?_⟩
  intro m p s s' hs hs' hne
  obtain ⟨t, ht, hkept⟩ := (advance_advances config _ m).session hs
  rw [after_concat] at hs'
  obtain rfl : s' = t := Option.some.inj (hs'.symm.trans ht)
  obtain ⟨call, checkedAt, hst, hm⟩ := hkept.inbound.resolve_left hne
  obtain ⟨_, _, _, _, _, _, _, _, _, _, hid⟩ := session_established hnoise hcontext ms hs
  have hclient := WireMode.client_eq_of_matches hm
  refine ⟨call, checkedAt, hst, stage_received ms (by rw [hst]; rfl), fun key hk => ?_,
    fun hl => ?_⟩
  · exact (hid.client key (hclient.trans hk)).symm
  · rw [hl] at hclient
    exact WireMode.eq_legacy_of_client hclient

section Sample

def samplePrologue (payload : Bytes) : ProtocolContext :=
  ⟨Vector.ofFn fun i : Fin 32 => payload.getD i 0⟩

theorem samplePrologue_ideal (secret : SecretKey) :
    IdealNoise clearLibraries secret samplePrologue := by
  intro context handshake payload read hnew hread
  cases hnew
  obtain ⟨message, hread, -⟩ := bind_eq_ok.mp hread
  have htake : payload.take 32 = context.bytes.toList := by
    unfold readHandshakeMessage at hread
    split_ifs at hread
    simp only [clearLibraries, clearSnow] at hread
    split_ifs at hread with h
    · exact h.1
  have hbytes : (samplePrologue payload).bytes = context.bytes := by
    refine Vector.ext fun i hi => ?_
    have h := congrArg (fun l => l[i]?) htake
    simp only [List.getElem?_take_of_lt hi, Vector.getElem?_toList] at h
    simp [samplePrologue, h, hi]
  cases context
  exact congrArg ProtocolContext.mk hbytes

def sampleSpeedyInit : Datagram :=
  ⟨{ kind := .handshakeInit, flags := 0, sessionId := 1, sequence := 0 },
    sampleInitiation (ProtocolContext.forSpeedyServer clearLibraries (sampleKey 9)) 2 1⟩

def sampleSpeedyFrame : Bytes :=
  match deriveSpeedyKey clearLibraries sampleConfig.serverPrivateKey (sampleKey 2) (sampleKey 9)
      (sampleKey 2) with
  | .error _ => []
  | .ok key =>
    ((SpeedyCodec.new clearLibraries ⟨key⟩).encode clearLibraries none sampleSpeedyInit.encode
      .clientToServer (some 1000)).2.toOption.getD []

def sampleSpeedyArrival : Arrival :=
  { sampleArrival sampleSpeedyInit 10 with
    bytes := sampleSpeedyFrame
    clock := ⟨some 1000, fun _ _ => some 1000, fun _ => some 1000, some 1000⟩ }

def sampleSpeedyRun : List Move := [.receive sampleSpeedyArrival, .udp, .udp]

theorem session_identity_sample :
    ∃ s, (after sampleConfig clearLibraries sampleRegistry sampleSpeedyRun).core.heap[0]? = some s ∧
      s.wire.isSpeedy = true ∧
      Established clearLibraries sampleConfig sampleRegistry samplePrologue sampleSpeedyRun
        0 s := by
  have hspeedy : ((after sampleConfig clearLibraries sampleRegistry
      sampleSpeedyRun).core.heap[0]?).map (fun s => s.wire.isSpeedy) = some true := by
    decide +kernel
  obtain ⟨s, hs, hw⟩ := Option.map_eq_some_iff.mp hspeedy
  exact ⟨s, hs, hw, (session_identity (samplePrologue_ideal _) (by decide +kernel)
    sampleSpeedyRun).1 0 s hs⟩

end Sample

end System

end MouseVpn.Server
