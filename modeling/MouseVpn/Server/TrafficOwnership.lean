import MouseVpn.Server.Identity
import MouseVpn.Server.SessionIndex

/-!
# Whose packets pass

What the daemon writes to the TUN device and what it seals for a packet of that device belong to
one session, and the address of the packet is the one that was leased to the key of its handshake.
The index of the sessions may change while a packet is on its way through the TUN worker.
-/

namespace MouseVpn.Server

open MouseVpn.Lib MouseVpn.Crypto MouseVpn.Protocol MouseVpn.DataPlane

def TunStage.aim : TunStage → Option (TunPacket × Ipv4Packet × ℕ)
  | .idle => none
  | .found input ip p => some (input, ip, p)
  | .checked input ip p _ => some (input, ip, p)

namespace System

variable {lib : Libraries} {config : ValidatedServerConfig} {σ : System lib} {m : Move}
  {r : System lib × List Output}

theorem Advances.persists (h : σ.Advances config m r) : Persists σ.core r.1.core := by
  intro p s hs
  obtain ⟨s', hs', hkept⟩ := h.session hs
  exact ⟨s', hs', hkept.same⟩

theorem Advances.indexed (h : σ.Advances config m r) (hi : Indexed σ.core) :
    Indexed r.1.core := by
  have hp := h.persists
  cases h with
  | finished _ ho =>
    rcases ho.state with hsame | ⟨_, _, -, hc, rfl⟩
    · rw [hsame]
      exact hi
    · exact hi.installed hc
  | acted _ ho => exact hi.frame hp ho.frame
  | tunEncoded _ _ ho => exact hi.frame hp ⟨ho.sessions, ho.cache, ho.length⟩
  | _ => exact hi.frame hp ⟨rfl, rfl, rfl⟩

theorem Advances.aim (h : σ.Advances config m r) {aim : TunPacket × Ipv4Packet × ℕ}
    (ha : r.1.tun.aim = some aim) : σ.tun.aim = some aim ∨ ∃ input, m = .readTun input := by
  cases h with
  | tunFound => exact Or.inr ⟨_, rfl⟩
  | tunDropped | tunEncoded => cases ha
  | tunChecked hs =>
    rw [hs]
    exact Or.inl ha
  | _ => exact Or.inl ha

/-- The packet on its way is for the address of the session that was found for it. -/
def ForSession (σ : System lib) (input : TunPacket) (ip : Ipv4Packet) (p : ℕ) : Prop :=
  Ipv4Packet.parse input.packet = .ok ip ∧
    ∃ s, σ.core.heap[p]? = some s ∧ s.clientAddress = ip.destination

structure Aimed (σ : System lib) : Prop where
  indexed : Indexed σ.core
  address : ∀ input ip p, σ.tun.aim = some (input, ip, p) → σ.ForSession input ip p

theorem Aimed.start (registry : DeviceRegistry) : (start registry : System lib).Aimed :=
  ⟨Indexed.start registry, fun _ _ _ h => nomatch h⟩

theorem aim_readTun (hi : Indexed σ.core) {input input' : TunPacket} {ip : Ipv4Packet} {p : ℕ}
    (h : (σ.readTun input').tun.aim = some (input, ip, p)) :
    σ.tun.aim = some (input, ip, p) ∨ σ.ForSession input ip p := by
  unfold readTun at h
  split at h
  · split at h
    · exact Or.inl h
    next ip' hparse =>
      split at h
      · exact Or.inl h
      next p' hlookup =>
        cases h
        have hp := List.getElem?_eq_getElem (hi.inRange.byAddress _ _ hlookup)
        have haddress := hi.bijective.own_address _ _ hlookup
        rw [ServerState.addressIn, hp] at haddress
        exact Or.inr ⟨hparse, _, hp, haddress⟩
  · exact Or.inl h

theorem Aimed.step (h : σ.Aimed) (m : Move) : (step config σ m).1.Aimed := by
  have hadvance := advance_advances config σ m
  refine ⟨hadvance.indexed h.indexed, ?_⟩
  intro input ip p haim
  have hbefore : σ.ForSession input ip p := by
    rcases hadvance.aim haim with hold | ⟨input', rfl⟩
    · exact h.address input ip p hold
    · exact (aim_readTun h.indexed haim).elim (h.address input ip p) id
  obtain ⟨hparse, s, hs, haddress⟩ := hbefore
  obtain ⟨s', hs', hsame⟩ := hadvance.persists p s hs
  exact ⟨hparse, s', hs', hsame.clientAddress.trans haddress⟩

/-- The step encodes a packet into `q`. -/
def Encodes (σ : System lib) (m : Move) (q : Queued) : Prop :=
  m = .tun ∧ ∃ input ip, σ.tun = .checked input ip q.session q.checkedAt ∧
    (encodeTunPacket lib input ip q.session σ.core).2 = some q.outgoing

theorem Advances.batch (h : σ.Advances config m r) :
    r.1.batch = σ.batch ∨ r.1.batch = [] ∨ m = .tun := by
  cases h with
  | flushed => exact Or.inr (Or.inl rfl)
  | tunEncoded => exact Or.inr (Or.inr rfl)
  | _ => exact Or.inl rfl

theorem batch_step {q : Queued} (h : q ∈ (step config σ m).1.batch) :
    q ∈ σ.batch ∨ σ.Encodes m q := by
  rcases (advance_advances config σ m).batch with hsame | hempty | rfl
  · exact Or.inl (hsame ▸ h)
  · exact absurd (hempty ▸ h) List.not_mem_nil
  · simp only [step, advance, stepTun] at h
    split at h
    · exact Or.inl h
    · exact Or.inl h
    next input ip p checkedAt hs =>
      rcases List.mem_append.mp h with hold | hnew
      · exact Or.inl hold
      · obtain ⟨outgoing, hmem, rfl⟩ := List.mem_map.mp hnew
        exact Or.inr ⟨rfl, input, ip, hs, Option.mem_toList.mp hmem⟩

/-- The session at `p` opens the datagram and finds the packet in it. Its source is the address of
the session. -/
structure Opens (σ : System lib) (call : Call) (p : ℕ) (s : RuntimeSession) (packet : Bytes) :
    Prop where
  session : σ.core.heap[p]? = some s
  wire : s.wire.matches call.wire = true
  carries : Carries s call.datagram (.ip packet)
  source : ∃ ip, Ipv4Packet.parse packet = .ok ip ∧ ip.source = s.clientAddress

theorem opens_of_tunWrite {call : Call} {p : ℕ} {r : ServerState × List Effect} {packet : Bytes}
    (ho : DatagramOutcome call.env call.peer call.datagram call.wire p σ.core r)
    (hmem : .tunWrite packet ∈ r.2) : ∃ s, σ.Opens call p s packet := by
  cases ho with
  | ignored => cases hmem
  | dropped => cases hmem
  | @accepted s inner outbound effects hs hm hc ha hw =>
    obtain rfl := hw packet hmem
    exact ⟨s, hs, hm, hc, ha⟩

theorem Advances.tunWrite (h : σ.Advances config m r) {packet : Bytes}
    (hmem : .tunWrite packet ∈ r.2.filterMap Output.effect) :
    ∃ call p checkedAt s, σ.udp = .checked call p checkedAt ∧ σ.Opens call p s packet := by
  cases h with
  | finished _ ho => cases ho <;> simp_all [Output.effect, framed]
  | @acted call p checkedAt r hs ho =>
    rw [effects_act] at hmem
    obtain ⟨s, hopens⟩ := opens_of_tunWrite ho hmem
    exact ⟨call, p, checkedAt, s, hs, hopens⟩
  | flushed sent =>
    obtain ⟨output, hout, heffect⟩ := List.mem_filterMap.mp hmem
    rcases List.mem_append.mp hout with hsend | hcount
    · obtain ⟨q, -, rfl⟩ := List.mem_map.mp hsend
      cases heffect
    · obtain ⟨q, -, rfl⟩ := List.mem_map.mp hcount
      cases heffect
  | _ => cases hmem

/-- Every packet that reaches the TUN device was carried by a received datagram that a session has
opened, and its source is the address leased to the key of the handshake that made the session.
Every packet sealed for a client has as its destination the address of the session that seals
it. -/
theorem traffic_owned {registry : DeviceRegistry} {made : Bytes → ProtocolContext}
    (hnoise : IdealNoise lib config.serverPrivateKey made)
    (hcontext : config.context ≠ ProtocolContext.forSpeedyServer lib config.serverPublicKey)
    (ms : List Move) :
    (∀ m packet, .tunWrite packet ∈
        (step config (after config lib registry ms) m).2.filterMap Output.effect →
      ∃ call p checkedAt s, (after config lib registry ms).udp = .checked call p checkedAt ∧
        Received lib config registry ms call ∧
        (after config lib registry ms).Opens call p s packet ∧
        Established lib config registry made ms p s) ∧
    (∀ q ∈ (after config lib registry ms).batch, ∃ pre post input ip s,
      ms = pre ++ .tun :: post ∧ (after config lib registry pre).core.heap[q.session]? = some s ∧
      Established lib config registry made pre q.session s ∧
      Ipv4Packet.parse input.packet = .ok ip ∧ ip.destination = s.clientAddress ∧
      (encodeTunPacket lib input ip q.session (after config lib registry pre).core).2 =
        some q.outgoing) := by
  constructor
  · intro m packet hmem
    obtain ⟨call, p, checkedAt, s, hudp, hopens⟩ := (advance_advances config _ m).tunWrite hmem
    exact ⟨call, p, checkedAt, s, hudp, stage_received ms (by rw [hudp]; rfl), hopens,
      session_established hnoise hcontext ms hopens.session⟩
  · intro q hq
    obtain ⟨pre, m, post, rfl, rfl, input, ip, htun, hencode⟩ := Machine.run_origin (step config)
      (fun σ q => q ∈ σ.batch) (fun σ m q => σ.Encodes m q) (by simp [start])
      (fun σ m q => batch_step) hq
    have haimed : (after config lib registry pre).Aimed :=
      Machine.run_invariant (step config) Aimed (fun _ m h => h.step m) (.start registry) pre
    obtain ⟨hparse, s, hs, haddress⟩ := haimed.address input ip q.session (by rw [after, htun]; rfl)
    exact ⟨pre, post, input, ip, s, rfl, hs, session_established hnoise hcontext pre hs, hparse,
      haddress.symm, hencode⟩

/-- The device has a session, sends a packet, and gets one back. -/
def sampleExchange : List Move :=
  [.receive (sampleArrival (sampleInit 1 1) 10), .udp, .udp, .readTun sampleReply, .tun, .tun,
    .receive (sampleArrival (sampleData 0) 10), .udp, .udp]

theorem traffic_owned_sample :
    (∃ packet call p checkedAt s,
      .tunWrite packet ∈ (step sampleConfig (after sampleConfig clearLibraries sampleRegistry
        sampleExchange) .udp).2.filterMap Output.effect ∧
      (after sampleConfig clearLibraries sampleRegistry sampleExchange).udp =
        .checked call p checkedAt ∧
      (after sampleConfig clearLibraries sampleRegistry sampleExchange).Opens call p s packet ∧
      Established clearLibraries sampleConfig sampleRegistry samplePrologue sampleExchange p s) ∧
    ∃ q ∈ (after sampleConfig clearLibraries sampleRegistry sampleExchange).batch,
      ∃ pre, ∃ input : TunPacket, ∃ ip s,
        Established clearLibraries sampleConfig sampleRegistry samplePrologue pre q.session s ∧
        Ipv4Packet.parse input.packet = .ok ip ∧ ip.destination = s.clientAddress := by
  have howned := @traffic_owned clearLibraries sampleConfig sampleRegistry samplePrologue
    (samplePrologue_ideal _) (by decide +kernel) sampleExchange
  have hwrite : .tunWrite [0x45, 0, 0, 20, 0, 0, 0, 0, 64, 17, 0, 0, 10, 77, 0, 2, 192, 0, 2, 80] ∈
      (step sampleConfig (after sampleConfig clearLibraries sampleRegistry sampleExchange)
        .udp).2.filterMap Output.effect := by
    decide +kernel
  have hlength : (after sampleConfig clearLibraries sampleRegistry
      sampleExchange).batch.length = 1 := by
    decide +kernel
  refine ⟨?_, ?_⟩
  · obtain ⟨call, p, checkedAt, s, hudp, -, hopens, hs⟩ := howned.1 _ _ hwrite
    exact ⟨_, call, p, checkedAt, s, hwrite, hudp, hopens, hs⟩
  · obtain ⟨q, hq⟩ := List.exists_mem_of_length_pos (hlength ▸ Nat.one_pos)
    obtain ⟨pre, -, input, ip, s, -, -, hs, hparse, hdestination, -⟩ := howned.2 q hq
    exact ⟨q, hq, pre, input, ip, s, hs, hparse, hdestination⟩

end System

end MouseVpn.Server
