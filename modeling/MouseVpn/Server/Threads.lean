import MouseVpn.Server.Daemon

/-!
# The threads of the daemon

The receive loop, the TUN worker and the calls of the admin API run side by side
over one state. A registry call is one step, taken under the registry lock. A
handler is cut where another thread can come between: a datagram is decoded, an
initiation is authorized or a session is found, its authorization is checked, and
then the handler acts. `clock` counts the steps, so that each act can be traced to
the check that allowed it.
-/

namespace MouseVpn.Server

open MouseVpn.Lib MouseVpn.Crypto MouseVpn.Protocol MouseVpn.DataPlane

/-- A received UDP datagram and what decoding it takes: the clock of the router, the
iteration order of its device set and the verdict of the handshake limiter. -/
structure Arrival where
  peer : SocketAddr
  bytes : Bytes
  clock : RouterClock
  iteration : IterationOrder
  limiterAllows : Bool
  env : Env

structure Call where
  env : Env
  peer : SocketAddr
  datagram : Datagram
  wire : WireMode

def Call.event (call : Call) : Event :=
  match call.datagram.header.kind with
  | .handshakeInit => .handshake call.env call.peer call.datagram call.wire
  | .keepalive => .keepalive call.env call.peer call.datagram call.wire
  | _ => .clientData call.env call.peer call.datagram call.wire

def Call.act (lib : Libraries) (call : Call) (p : ℕ) (st : ServerState) :
    ServerState × List Effect :=
  match call.datagram.header.kind with
  | .keepalive => answerKeepalive lib call.env call.peer call.datagram call.wire p st
  | _ => deliverClientData call.env call.peer call.datagram call.wire p st

def looksLikeProtocolDatagram (input : Bytes) : Bool :=
  headerLen ≤ input.length ∧ input.getD 0 0 = version

def dispatch (arrival : Arrival) (wire : WireMode) (payload : Bytes) : Option Call :=
  if !looksLikeProtocolDatagram payload then none
  else
    match Datagram.decode payload with
    | .error _ => none
    | .ok datagram =>
      let call : Call := ⟨arrival.env, arrival.peer, datagram, wire⟩
      match datagram.header.kind with
      | .handshakeInit => if arrival.limiterAllows then some call else none
      | .data => some call
      | .keepalive => some call
      | _ => none

inductive UdpStage (lib : Libraries)
  | idle
  | decoded (call : Call)
  | authorized (call : Call) (handshake : ServerHandshake lib) (publicKey : PublicKey)
      (client : DeviceLease)
  | found (call : Call) (p : ℕ)
  | checked (call : Call) (p checkedAt : ℕ)

inductive TunStage
  | idle
  | found (input : TunPacket) (ip : Ipv4Packet) (p : ℕ)
  | checked (input : TunPacket) (ip : Ipv4Packet) (p checkedAt : ℕ)

structure Queued where
  outgoing : Outgoing
  session : ℕ
  checkedAt : ℕ

structure System (lib : Libraries) where
  core : ServerState
  router : MorphRouter
  udp : UdpStage lib
  tun : TunStage
  batch : List Queued
  clock : ℕ

inductive Move
  | receive (arrival : Arrival)
  | udp
  | readTun (input : TunPacket)
  | tun
  | flush (sent : ℕ)
  | revoke (publicKey : String) (persist : Except String Unit)
  | provision (name : String) (platform : DevicePlatform) (keys : Except String KeyPair)
      (persist : Except String Unit)

/-- What leaves the server. Everything but a handshake response is done for a session,
on the strength of a check. -/
inductive Output
  | response (effect : Effect)
  | act (session checkedAt : ℕ) (effect : Effect)
  | moved (session checkedAt : ℕ) (peer : SocketAddr)

def Output.effect : Output → Option Effect
  | .response effect => some effect
  | .act _ _ effect => some effect
  | .moved _ _ _ => none

namespace System

variable {lib : Libraries} (config : ValidatedServerConfig)

def start (registry : DeviceRegistry) : System lib :=
  { core := ServerState.start registry
    router := MorphRouter.default
    udp := .idle
    tun := .idle
    batch := []
    clock := 0 }

def decodeWire (σ : System lib) (arrival : Arrival) : MorphRouter × Option (WireMode × Bytes) :=
  decodeWireInto lib config arrival.clock arrival.iteration arrival.bytes σ.core.registry σ.router

def receive (arrival : Arrival) (σ : System lib) : System lib :=
  match σ.udp with
  | .idle =>
    let (router, decoded) := σ.decodeWire config arrival
    match decoded.bind fun d => dispatch arrival d.1 d.2 with
    | none => { σ with router }
    | some call => { σ with router, udp := .decoded call }
  | _ => σ

def moves (p checkedAt : ℕ) (st st' : ServerState) : List Output :=
  match st.heap[p]?, st'.heap[p]? with
  | some s, some s' => if s'.peer = s.peer then [] else [.moved p checkedAt s'.peer]
  | _, _ => []

def stepUdp (σ : System lib) : System lib × List Output :=
  match σ.udp with
  | .idle => (σ, [])
  | .decoded call =>
    match call.datagram.header.kind with
    | .handshakeInit =>
      match readInitiation lib config call.wire call.datagram.payload with
      | none => ({ σ with udp := .idle }, [])
      | some (handshake, publicKey) =>
        match σ.core.registry.authorize publicKey with
        | none => ({ σ with udp := .idle }, [])
        | some client => ({ σ with udp := .authorized call handshake publicKey client }, [])
    | _ =>
      match σ.core.sessions.byId.lookup call.datagram.header.sessionId with
      | none => ({ σ with udp := .idle }, [])
      | some p => ({ σ with udp := .found call p }, [])
  | .authorized call handshake publicKey client =>
    let (core, effects) := finishHandshake lib config call.env call.peer call.datagram call.wire
      handshake publicKey client σ.core
    ({ σ with core, udp := .idle }, effects.map .response)
  | .found call p =>
    if σ.core.isActive p then ({ σ with udp := .checked call p σ.clock }, [])
    else ({ σ with udp := .idle }, [])
  | .checked call p checkedAt =>
    let (core, effects) := call.act lib p σ.core
    ({ σ with core, udp := .idle },
      effects.map (.act p checkedAt) ++ moves p checkedAt σ.core core)

def readTun (input : TunPacket) (σ : System lib) : System lib :=
  match σ.tun with
  | .idle =>
    match Ipv4Packet.parse input.packet with
    | .error _ => σ
    | .ok ip =>
      match σ.core.sessions.byAddress.lookup ip.destination with
      | none => σ
      | some p => { σ with tun := .found input ip p }
  | _ => σ

def stepTun (σ : System lib) : System lib :=
  match σ.tun with
  | .idle => σ
  | .found input ip p =>
    { σ with tun := if σ.core.isActive p then .checked input ip p σ.clock else .idle }
  | .checked input ip p checkedAt =>
    let (core, outgoing) := encodeTunPacket lib input ip p σ.core
    { σ with core, tun := .idle,
             batch := σ.batch ++ outgoing.toList.map fun o => ⟨o, p, checkedAt⟩ }

def sendBatch (taken : List Queued) : List Output :=
  taken.map (fun q => .act q.session q.checkedAt
    (.send q.outgoing.datagram q.outgoing.frame q.outgoing.peer)) ++
  taken.map (fun q => .act q.session q.checkedAt
    (.addDownload q.outgoing.traffic q.outgoing.payloadLength))

def flush (sent : ℕ) (σ : System lib) : System lib × List Output :=
  match σ.tun with
  | .idle => ({ σ with batch := [] }, sendBatch (σ.batch.take sent))
  | _ => (σ, [])

def advance (σ : System lib) : Move → System lib × List Output
  | .receive arrival => (σ.receive config arrival, [])
  | .udp => σ.stepUdp config
  | .readTun input => (σ.readTun input, [])
  | .tun => (σ.stepTun, [])
  | .flush sent => σ.flush sent
  | .revoke publicKey persist =>
    ({ σ with core.registry := (σ.core.registry.revoke lib publicKey persist).1 }, [])
  | .provision name platform keys persist =>
    ({ σ with core.registry := (σ.core.registry.provision lib name platform keys persist).1 }, [])

def step (σ : System lib) (m : Move) : System lib × List Output :=
  let (σ', outputs) := σ.advance config m
  ({ σ' with clock := σ.clock + 1 }, outputs)

def after (lib : Libraries) (registry : DeviceRegistry) (ms : List Move) : System lib :=
  Machine.run (step config) (start registry) ms

theorem after_concat (registry : DeviceRegistry) (ms : List Move) (m : Move) :
    after config lib registry (ms ++ [m]) = (step config (after config lib registry ms) m).1 :=
  Machine.run_concat _ _ _ _

theorem step_transport (call : Call) (hk : call.datagram.header.kind ≠ .handshakeInit)
    (st : ServerState) :
    Server.step lib config st call.event =
      match st.sessions.byId.lookup call.datagram.header.sessionId with
      | none => (st, [])
      | some p => if st.isActive p then call.act lib p st else (st, []) := by
  cases hf : st.sessions.byId.lookup call.datagram.header.sessionId with
  | none =>
    cases hkind : call.datagram.header.kind <;>
      simp_all [Call.event, Server.step, handleKeepalive, handleClientData]
  | some p =>
    cases ha : st.isActive p <;> cases hkind : call.datagram.header.kind <;>
      simp_all [Call.event, Call.act, Server.step, handleKeepalive, handleClientData]

theorem effects_act (effects : List Effect) (p checkedAt : ℕ) (st st' : ServerState) :
    (effects.map (Output.act p checkedAt) ++ moves p checkedAt st st').filterMap Output.effect =
      effects := by
  have hmoves : (moves p checkedAt st st').filterMap Output.effect = [] := by
    unfold moves
    split
    · split_ifs <;> rfl
    · rfl
  rw [List.filterMap_append, hmoves, List.append_nil]
  induction effects with
  | nil => rfl
  | cons e effects ih => simp [Output.effect, ih]

theorem run_uninterrupted (σ : System lib) {call : Call} (hs : σ.udp = .decoded call) :
    (Machine.run (step config) σ [.udp, .udp, .udp]).core =
        (Server.step lib config σ.core call.event).1 ∧
      (Machine.outputs (step config) σ [.udp, .udp, .udp]).flatten.filterMap Output.effect =
        (Server.step lib config σ.core call.event).2 := by
  by_cases hk : call.datagram.header.kind = .handshakeInit
  · cases hr : readInitiation lib config call.wire call.datagram.payload with
    | none =>
      simp [Machine.outputs, Machine.observe, step, advance, stepUdp, hs, hk, hr, Call.event,
        Server.step, handleHandshake]
    | some initiation =>
      cases hl : σ.core.registry.authorize initiation.2 with
      | none =>
        simp [Machine.outputs, Machine.observe, step, advance, stepUdp, hs, hk, hr, hl, Call.event,
          Server.step, handleHandshake]
      | some client =>
        simp [Machine.outputs, Machine.observe, step, advance, stepUdp, hs, hk, hr, hl, Call.event,
          Server.step, handleHandshake, Output.effect, Function.comp_def]
  · rw [step_transport config call hk]
    have hfirst : step config σ .udp =
        match σ.core.sessions.byId.lookup call.datagram.header.sessionId with
        | none => ({ σ with udp := .idle, clock := σ.clock + 1 }, [])
        | some p => ({ σ with udp := .found call p, clock := σ.clock + 1 }, []) := by
      cases hf : σ.core.sessions.byId.lookup call.datagram.header.sessionId <;>
        cases hkind : call.datagram.header.kind <;> simp_all [step, advance, stepUdp]
    cases hf : σ.core.sessions.byId.lookup call.datagram.header.sessionId with
    | none =>
      simp only [hf] at hfirst
      simp only [Machine.run_cons, Machine.run_nil, Machine.outputs, Machine.observe, hfirst]
      simp [step, advance, stepUdp]
    | some p =>
      simp only [hf] at hfirst
      simp only [Machine.run_cons, Machine.run_nil, Machine.outputs, Machine.observe, hfirst]
      cases ha : σ.core.isActive p with
      | false => simp [step, advance, stepUdp, ha]
      | true =>
        simp only [step, advance, stepUdp, ha, if_true, List.flatten_cons, List.nil_append,
          List.flatten_nil, List.append_nil, effects_act, and_self]

end System

section Sample

def sampleArrival (datagram : Datagram) (peer : UInt8) : Arrival :=
  { peer := samplePeer peer
    bytes := datagram.encode
    clock := ⟨none, fun _ _ => none, fun _ => none, none⟩
    iteration := ⟨id, fun _ => .refl _⟩
    limiterAllows := true
    env := sampleEnv }

end Sample

end MouseVpn.Server
