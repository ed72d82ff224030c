import MouseVpn.Server.Outcomes
import MouseVpn.Server.Threads

/-!
# What one step of a thread can do

`Advances` lists the steps of the three threads. A session that exists is kept by
every step, its receiver is run only by a handler that has checked it, and new
sessions come from handshakes in flight.
-/

namespace MouseVpn.Server

open MouseVpn.Lib MouseVpn.Crypto MouseVpn.Protocol MouseVpn.DataPlane

theorem Call.act_outcome (lib : Libraries) (call : Call) (p : ℕ) (st : ServerState) :
    DatagramOutcome call.env call.peer call.datagram call.wire p st (call.act lib p st) := by
  unfold act
  split
  · exact answerKeepalive_outcome lib call.env call.peer call.wire p st
  · exact deliverClientData_outcome call.env call.peer call.wire p st

namespace System

variable {lib : Libraries} (config : ValidatedServerConfig)

structure Decodes (σ : System lib) (arrival : Arrival) (call : Call) : Prop where
  wire : ∃ payload, (σ.decodeWire config arrival).2 = some (call.wire, payload) ∧
    Datagram.decode payload = .ok call.datagram
  peer : call.peer = arrival.peer

inductive Advances (σ : System lib) : Move → System lib × List Output → Prop
  | stay (m : Move) : Advances σ m (σ, [])
  | routed (arrival : Arrival) (router : MorphRouter) :
      Advances σ (.receive arrival) ({ σ with router }, [])
  | decoded {arrival : Arrival} {call : Call} (router : MorphRouter)
      (hd : σ.Decodes config arrival call) :
      Advances σ (.receive arrival) ({ σ with router, udp := .decoded call }, [])
  | dropped : Advances σ .udp ({ σ with udp := .idle }, [])
  | authorized {call : Call} {handshake : ServerHandshake lib} {key : PublicKey}
      {client : DeviceLease} (hs : σ.udp = .decoded call)
      (hk : call.datagram.header.kind = .handshakeInit)
      (ha : Authorized lib config call.datagram call.wire σ.core handshake key client) :
      Advances σ .udp ({ σ with udp := .authorized call handshake key client }, [])
  | found {call : Call} {p : ℕ} (hs : σ.udp = .decoded call) :
      Advances σ .udp ({ σ with udp := .found call p }, [])
  | finished {call : Call} {handshake : ServerHandshake lib} {key : PublicKey}
      {client : DeviceLease} {r : ServerState × List Effect}
      (hs : σ.udp = .authorized call handshake key client)
      (ho : FinishOutcome lib config call.env call.peer call.datagram call.wire σ.core handshake
        key client r) :
      Advances σ .udp ({ σ with core := r.1, udp := .idle }, r.2.map .response)
  | checked {call : Call} {p : ℕ} (hs : σ.udp = .found call p) (ha : σ.core.isActive p = true) :
      Advances σ .udp ({ σ with udp := .checked call p σ.clock }, [])
  | acted {call : Call} {p checkedAt : ℕ} {r : ServerState × List Effect}
      (hs : σ.udp = .checked call p checkedAt)
      (ho : DatagramOutcome call.env call.peer call.datagram call.wire p σ.core r) :
      Advances σ .udp ({ σ with core := r.1, udp := .idle },
        r.2.map (.act p checkedAt) ++ moves p checkedAt σ.core r.1)
  | tunFound {input : TunPacket} {ip : Ipv4Packet} {p : ℕ} :
      Advances σ (.readTun input) ({ σ with tun := .found input ip p }, [])
  | tunDropped : Advances σ .tun ({ σ with tun := .idle }, [])
  | tunChecked {input : TunPacket} {ip : Ipv4Packet} {p : ℕ} (hs : σ.tun = .found input ip p)
      (ha : σ.core.isActive p = true) :
      Advances σ .tun ({ σ with tun := .checked input ip p σ.clock }, [])
  | tunEncoded {input : TunPacket} {ip : Ipv4Packet} {p checkedAt : ℕ} {core : ServerState}
      (outgoing : Option Outgoing) (hs : σ.tun = .checked input ip p checkedAt)
      (ho : OutboundOnly σ.core core) :
      Advances σ .tun
        ({ σ with core, tun := .idle,
                  batch := σ.batch ++ outgoing.toList.map fun o => ⟨o, p, checkedAt⟩ }, [])
  | flushed (sent : ℕ) :
      Advances σ (.flush sent) ({ σ with batch := [] }, sendBatch (σ.batch.take sent))
  | revoked {publicKey : String} {persist : Except String Unit} {registry : DeviceRegistry}
      (hr : registry = (σ.core.registry.revoke lib publicKey persist).1) :
      Advances σ (.revoke publicKey persist) ({ σ with core := { σ.core with registry } }, [])
  | provisioned {name : String} {platform : DevicePlatform} {keys : Except String KeyPair}
      {persist : Except String Unit} {registry : DeviceRegistry}
      (hr : registry = (σ.core.registry.provision lib name platform keys persist).1) :
      Advances σ (.provision name platform keys persist)
        ({ σ with core := { σ.core with registry } }, [])

theorem dispatch_eq_some {arrival : Arrival} {wire : WireMode} {payload : Bytes} {call : Call}
    (h : dispatch arrival wire payload = some call) :
    call.wire = wire ∧ call.peer = arrival.peer ∧ Datagram.decode payload = .ok call.datagram := by
  unfold dispatch at h
  cases hl : looksLikeProtocolDatagram payload with
  | false => simp [hl] at h
  | true =>
    cases hd : Datagram.decode payload with
    | error e => simp [hl, hd] at h
    | ok d =>
      simp only [hl, hd] at h
      cases hk : d.header.kind <;> simp [hk] at h
      · obtain ⟨-, rfl⟩ := h
        exact ⟨rfl, rfl, rfl⟩
      all_goals
        subst h
        exact ⟨rfl, rfl, rfl⟩

theorem receive_advances (σ : System lib) (arrival : Arrival) :
    σ.Advances config (.receive arrival) (σ.receive config arrival, []) := by
  unfold receive
  split
  · cases hb : (σ.decodeWire config arrival).2.bind fun d => dispatch arrival d.1 d.2 with
    | none =>
      simp only [hb]
      exact .routed arrival _
    | some call =>
      simp only [hb]
      obtain ⟨⟨wire, payload⟩, hw, hd⟩ := Option.bind_eq_some_iff.mp hb
      obtain ⟨rfl, hp, hdec⟩ := dispatch_eq_some hd
      exact .decoded _ ⟨⟨payload, hw, hdec⟩, hp⟩
  · exact .stay _

theorem stepUdp_advances (σ : System lib) : σ.Advances config .udp (σ.stepUdp config) := by
  unfold stepUdp
  cases hs : σ.udp with
  | idle => exact .stay _
  | decoded call =>
    simp only
    split
    next hk =>
      cases hr : readInitiation lib config call.wire call.datagram.payload with
      | none => exact .dropped
      | some initiation =>
        cases hl : σ.core.registry.authorize initiation.2 with
        | none =>
          simp only [hl]
          exact .dropped
        | some client =>
          simp only [hl]
          exact .authorized hs hk ⟨hr, hl⟩
    next =>
      split
      · exact .dropped
      · exact .found hs
  | authorized call handshake key client =>
    exact .finished hs (finishHandshake_outcome lib config _ _ _ _ _ _ _ _)
  | found call p =>
    simp only
    split_ifs with ha
    · exact .checked hs ha
    · exact .dropped
  | checked call p checkedAt => exact .acted hs (call.act_outcome lib p σ.core)

theorem readTun_advances (σ : System lib) (input : TunPacket) :
    σ.Advances config (.readTun input) (σ.readTun input, []) := by
  unfold readTun
  split
  · split
    · exact .stay _
    · split
      · exact .stay _
      · exact .tunFound
  · exact .stay _

theorem stepTun_advances (σ : System lib) : σ.Advances config .tun (σ.stepTun, []) := by
  unfold stepTun
  cases hs : σ.tun with
  | idle => exact .stay _
  | found input ip p =>
    simp only
    split_ifs with ha
    · exact .tunChecked hs ha
    · exact .tunDropped
  | checked input ip p checkedAt =>
    exact .tunEncoded _ hs (encodeTunPacket_outboundOnly lib input ip p σ.core)

theorem flush_advances (σ : System lib) (sent : ℕ) :
    σ.Advances config (.flush sent) (σ.flush sent) := by
  unfold flush
  split
  · exact .flushed sent
  · exact .stay _

theorem advance_advances (σ : System lib) (m : Move) :
    σ.Advances config m (σ.advance config m) := by
  cases m with
  | receive arrival => exact receive_advances config σ arrival
  | udp => exact stepUdp_advances config σ
  | readTun input => exact readTun_advances config σ input
  | tun => exact stepTun_advances config σ
  | flush sent => exact flush_advances config σ sent
  | revoke publicKey persist => exact .revoked rfl
  | provision name platform keys persist => exact .provisioned rfl

/-- What one step does to a session that exists. Its receiver decodes only a datagram
of its wire mode whose handler has checked it, and a new endpoint is reported. -/
structure SessionKept (σ : System lib) (outputs : List Output) (p : ℕ) (s s' : RuntimeSession) :
    Prop where
  same : SameSession s s'
  inbound : s'.inbound = s.inbound ∨ ∃ call checkedAt, σ.udp = .checked call p checkedAt ∧
    s.wire.matches call.wire = true
  peer : s'.peer = s.peer ∨ ∃ checkedAt, .moved p checkedAt s'.peer ∈ outputs

theorem SessionKept.refl (σ : System lib) (outputs : List Output) (p : ℕ) (s : RuntimeSession) :
    SessionKept σ outputs p s s := ⟨.refl s, Or.inl rfl, Or.inl rfl⟩

variable {config}

theorem Advances.session {σ : System lib} {m : Move} {r : System lib × List Output}
    (h : σ.Advances config m r) {q : ℕ} {s : RuntimeSession} (hs : σ.core.heap[q]? = some s) :
    ∃ s', r.1.core.heap[q]? = some s' ∧ SessionKept σ r.2 q s s' := by
  cases h with
  | finished hst ho =>
    refine ⟨s, ?_, .refl ..⟩
    rcases ho.state with hsame | ⟨_, _, -, -, rfl⟩
    · rw [hsame]
      exact hs
    · exact heapWith_old lib config _ _ _ _ hs
  | @acted call p checkedAt r hst ho =>
    obtain ⟨s', hs', hsame, htouched⟩ := ho.touched hs
    refine ⟨s', hs', ?_⟩
    cases htouched with
    | untouched heq =>
      rw [heq]
      exact .refl ..
    | decoded hq hm =>
      subst hq
      refine ⟨hsame, Or.inr ⟨call, checkedAt, hst, hm⟩, ?_⟩
      by_cases hp : s'.peer = s.peer
      · exact Or.inl hp
      · exact Or.inr ⟨checkedAt, by simp [moves, hs, hs', hp]⟩
  | tunEncoded _ _ ho =>
    obtain ⟨outbound, hs'⟩ := ho.session q s hs
    exact ⟨_, hs', ⟨rfl, rfl, rfl, rfl, rfl⟩, Or.inl rfl, Or.inl rfl⟩
  | _ => exact ⟨s, hs, .refl ..⟩

theorem Advances.created {σ : System lib} {m : Move} {r : System lib × List Output}
    (h : σ.Advances config m r) {p : ℕ} {s : RuntimeSession}
    (hs : r.1.core.heap[p]? = some s) :
    (∃ t, σ.core.heap[p]? = some t) ∨ ∃ call handshake key client crypto response,
      m = .udp ∧ σ.core.heap[p]? = none ∧ σ.udp = .authorized call handshake key client ∧
      handshake.finish call.env.entropy (sessionParameters config call.wire client).encode =
        .ok (crypto, response) ∧
      s = newSession lib config call.peer call.datagram call.wire client crypto := by
  have hold : r.1.core.heap.length = σ.core.heap.length → ∃ t, σ.core.heap[p]? = some t := by
    intro hlen
    have hp := (List.getElem?_eq_some_iff.mp hs).1
    exact ⟨_, List.getElem?_eq_getElem (hlen ▸ hp)⟩
  cases h with
  | @finished call handshake key client r hst ho =>
    rcases ho.state with hsame | ⟨crypto, response, hf, -, rfl⟩
    · exact Or.inl (hold (by rw [hsame]))
    · rcases heapWith_cases lib config _ _ _ _ hs with h | ⟨hp, rfl⟩
      · exact Or.inl ⟨s, h⟩
      · exact Or.inr ⟨call, handshake, key, client, crypto, response, rfl,
          List.getElem?_eq_none (Nat.le_of_eq hp.symm), hst, hf, rfl⟩
  | acted _ ho => exact Or.inl (hold ho.frame.length)
  | tunEncoded _ _ ho => exact Or.inl (hold ho.length)
  | _ => exact Or.inl (hold rfl)

theorem Advances.inFlight {σ : System lib} {m : Move} {r : System lib × List Output}
    (h : σ.Advances config m r) {call : Call} {handshake : ServerHandshake lib}
    {key : PublicKey} {client : DeviceLease}
    (hs : r.1.udp = .authorized call handshake key client) :
    σ.udp = .authorized call handshake key client ∨
      σ.udp = .decoded call ∧ call.datagram.header.kind = .handshakeInit ∧
        Authorized lib config call.datagram call.wire σ.core handshake key client := by
  cases h with
  | authorized hst hk ha =>
    cases hs
    exact Or.inr ⟨hst, hk, ha⟩
  | decoded | dropped | found | finished | checked | acted => cases hs
  | _ => exact Or.inl hs

theorem Advances.registry_eq {σ : System lib} {m : Move} {r : System lib × List Output}
    (h : σ.Advances config m r) :
    r.1.core.registry = σ.core.registry ∨
    (∃ text persist, m = .revoke text persist ∧
      r.1.core.registry = (σ.core.registry.revoke lib text persist).1) ∨
    ∃ name platform keys persist, m = .provision name platform keys persist ∧
      r.1.core.registry = (σ.core.registry.provision lib name platform keys persist).1 := by
  cases h with
  | finished _ ho =>
    apply Or.inl
    rcases ho.state with hsame | ⟨_, _, -, -, rfl⟩
    · rw [hsame]
    · rfl
  | acted _ ho => exact Or.inl ho.registry
  | tunEncoded _ _ ho => exact Or.inl ho.registry
  | @revoked text persist registry hr => exact Or.inr (Or.inl ⟨text, persist, rfl, hr⟩)
  | @provisioned name platform keys persist registry hr =>
    exact Or.inr (Or.inr ⟨name, platform, keys, persist, rfl, hr⟩)
  | _ => exact Or.inl rfl

theorem after_persists {registry : DeviceRegistry} (ms ms' : List Move) :
    Persists (after config lib registry ms).core (after config lib registry (ms ++ ms')).core := by
  rw [after, after, Machine.run_append]
  refine Machine.run_rel (step config) (fun σ σ' : System lib => Persists σ.core σ'.core)
    (fun σ => .refl σ.core) (fun _ _ _ => .trans) ?_ _ ms'
  intro σ m p s hs
  obtain ⟨s', hs', hkept⟩ := (advance_advances config σ m).session hs
  exact ⟨s', hs', hkept.same⟩

end System

end MouseVpn.Server
