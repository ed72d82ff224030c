import MouseVpn.DataPlane.Tunnel
import MouseVpn.Lib.Machine
import MouseVpn.Protocol.SessionParameters
import MouseVpn.Server.Router
import MouseVpn.Server.Sessions

/-!
# The server daemon

Sessions live on a heap and are shared by pointer between the two indexes, the
receive loop and the TUN worker. A handler reads and changes the state and leaves
a list of effects. What the operating system decides during a handler (clock,
randomness, whether the TUN device takes a packet, what a reused buffer still
holds) is in its `Env`.
-/

namespace MouseVpn.Server

open MouseVpn.Lib MouseVpn.Crypto MouseVpn.Protocol MouseVpn.DataPlane

/-- `traffic` names the counter of the device, by the text of its key. -/
structure RuntimeSession where
  clientAddress : Ipv4Addr
  authorization : DeviceAuthorization
  traffic : String
  peer : SocketAddr
  inbound : TunnelReceiver
  outbound : TunnelSender
  wire : WireMode

namespace RuntimeSession

def adoptPeer (s : RuntimeSession) (peer : SocketAddr) : RuntimeSession :=
  if s.peer = peer then s else { s with peer }

@[simp] theorem adoptPeer_eq (s : RuntimeSession) (peer : SocketAddr) :
    s.adoptPeer peer = { s with peer } := by
  unfold adoptPeer
  split_ifs with h
  · rw [← h]
  · rfl

def noiseKey (s : RuntimeSession) : PublicKey := s.inbound.crypto.peerStaticKey

end RuntimeSession

structure CachedHandshake where
  request : Bytes
  response : Bytes
  deriving DecidableEq

structure ServerState where
  registry : DeviceRegistry
  heap : List RuntimeSession
  sessions : Sessions ℕ
  cache : HashMap PublicKey CachedHandshake

structure Env where
  sources : FrameSources
  entropy : Bytes
  tunAccepts : Bool
  plaintext : Bytes
  response : Bytes

inductive Effect
  | send (datagram frame : Bytes) (peer : SocketAddr)
  | tunWrite (packet : Bytes)
  | addUpload (traffic : String) (bytes : ℕ)
  | addDownload (traffic : String) (bytes : ℕ)
  deriving DecidableEq

namespace ServerState

def start (registry : DeviceRegistry) : ServerState := ⟨registry, [], Sessions.empty, ∅⟩

def addressIn (heap : List RuntimeSession) (p : ℕ) : Ipv4Addr :=
  match heap[p]? with
  | some s => s.clientAddress
  | none => ⟨0, 0, 0, 0⟩

def setSession (st : ServerState) (p : ℕ) (s : RuntimeSession) : ServerState :=
  { st with heap := st.heap.set p s }

def isActive (st : ServerState) (p : ℕ) : Bool :=
  match st.heap[p]? with
  | some s => st.registry.isActive s.authorization
  | none => false

end ServerState

variable (lib : Libraries) (config : ValidatedServerConfig)

def handshakeContext (wire : WireMode) : ProtocolContext :=
  if wire.isSpeedy then ProtocolContext.forSpeedyServer lib config.serverPublicKey
  else config.context

def readInitiation (wire : WireMode) (payload : Bytes) :
    Option (ServerHandshake lib × PublicKey) :=
  match ServerHandshake.new lib config.serverPrivateKey (handshakeContext lib config wire) with
  | .error _ => none
  | .ok handshake =>
    match handshake.readInitial payload with
    | .error _ => none
    | .ok (handshake, _) =>
      match handshake.peerStaticKey with
      | none => none
      | some publicKey =>
        if wire.allowsClient publicKey then some (handshake, publicKey) else none

def sessionParameters (wire : WireMode) (client : DeviceLease) : SessionParameters :=
  { clientAddress := client.address
    prefixLen := config.tun.prefixLen
    mtu := wire.sessionMtu config.tun.mtu
    dns := config.tun.dns }

def newSession (peer : SocketAddr) (datagram : Datagram) (wire : WireMode) (client : DeviceLease)
    (crypto : SecureSession) : RuntimeSession :=
  let halves := (TunnelDataPlane.new datagram.header.sessionId
    (wire.sessionMtu config.tun.mtu).toNat crypto).split
  { clientAddress := client.address
    authorization := client.authorization
    traffic := encodePublicKey lib client.publicKey
    peer
    inbound := halves.2
    outbound := halves.1
    wire }

def responseDatagram (datagram : Datagram) (response : Bytes) : Datagram :=
  ⟨{ kind := .handshakeResponse, flags := 0, sessionId := datagram.header.sessionId,
      sequence := 0 }, response⟩

/-- The rest of a handshake that is not answered from the cache. A session that
the index refuses is dropped. -/
def establish (env : Env) (peer : SocketAddr) (datagram : Datagram) (wire : WireMode)
    (handshake : ServerHandshake lib) (publicKey : PublicKey) (client : DeviceLease)
    (st : ServerState) : ServerState × List Effect :=
  match handshake.finish env.entropy (sessionParameters config wire client).encode with
  | .error _ => (st, [])
  | .ok (crypto, response) =>
    let heap := st.heap ++ [newSession lib config peer datagram wire client crypto]
    match st.sessions.replaceClient (ServerState.addressIn heap) datagram.header.sessionId
        st.heap.length with
    | (_, false) => (st, [])
    | (sessions, true) =>
      let st := { st with heap, sessions }
      let encoded := (responseDatagram datagram response).encode
      match wire.encodeServer lib encoded env.sources with
      | none => (st, [])
      | some frame =>
        ({ st with cache := st.cache.insert publicKey ⟨datagram.payload, encoded⟩ },
          [.send encoded frame peer])

def finishHandshake (env : Env) (peer : SocketAddr) (datagram : Datagram) (wire : WireMode)
    (handshake : ServerHandshake lib) (publicKey : PublicKey) (client : DeviceLease)
    (st : ServerState) : ServerState × List Effect :=
  match st.cache.lookup publicKey with
  | some cached =>
    if cached.request = datagram.payload then
      match wire.encodeServer lib cached.response env.sources with
      | none => (st, [])
      | some frame => (st, [.send cached.response frame peer])
    else establish lib config env peer datagram wire handshake publicKey client st
  | none => establish lib config env peer datagram wire handshake publicKey client st

def handleHandshake (env : Env) (peer : SocketAddr) (datagram : Datagram) (wire : WireMode)
    (st : ServerState) : ServerState × List Effect :=
  match readInitiation lib config wire datagram.payload with
  | none => (st, [])
  | some (handshake, publicKey) =>
    match st.registry.authorize publicKey with
    | none => (st, [])
    | some client =>
      finishHandshake lib config env peer datagram wire handshake publicKey client st

def answerKeepalive (env : Env) (peer : SocketAddr) (datagram : Datagram) (wire : WireMode)
    (p : ℕ) (st : ServerState) : ServerState × List Effect :=
  match st.heap[p]? with
  | none => (st, [])
  | some s =>
    if !s.wire.matches wire then (st, [])
    else
      match s.inbound.decodeInto datagram env.plaintext with
      | (inbound, _, .ok .keepalive) =>
        let s := { s with inbound }.adoptPeer peer
        match s.outbound.encodeKeepaliveInto env.response with
        | (outbound, _, .error _) => (st.setSession p { s with outbound }, [])
        | (outbound, response, .ok ()) =>
          match s.wire.encodeServer lib response env.sources with
          | none => (st.setSession p { s with outbound }, [])
          | some frame => (st.setSession p { s with outbound }, [.send response frame peer])
      | (inbound, _, _) => (st.setSession p { s with inbound }, [])

def handleKeepalive (env : Env) (peer : SocketAddr) (datagram : Datagram) (wire : WireMode)
    (st : ServerState) : ServerState × List Effect :=
  match st.sessions.byId.lookup datagram.header.sessionId with
  | none => (st, [])
  | some p =>
    if !st.isActive p then (st, [])
    else answerKeepalive lib env peer datagram wire p st

def deliverClientData (env : Env) (peer : SocketAddr) (datagram : Datagram) (wire : WireMode)
    (p : ℕ) (st : ServerState) : ServerState × List Effect :=
  match st.heap[p]? with
  | none => (st, [])
  | some s =>
    if !s.wire.matches wire then (st, [])
    else
      match s.inbound.decodeInto datagram env.plaintext with
      | (inbound, _, .ok (.ip packet)) =>
        let s := { s with inbound }
        match Ipv4Packet.parse packet with
        | .error _ => (st.setSession p s, [])
        | .ok ip =>
          if ip.source ≠ s.clientAddress then (st.setSession p s, [])
          else if env.tunAccepts then
            (st.setSession p (s.adoptPeer peer),
              [.tunWrite packet, .addUpload s.traffic packet.length])
          else (st.setSession p s, [])
      | (inbound, _, _) => (st.setSession p { s with inbound }, [])

def handleClientData (env : Env) (peer : SocketAddr) (datagram : Datagram) (wire : WireMode)
    (st : ServerState) : ServerState × List Effect :=
  match st.sessions.byId.lookup datagram.header.sessionId with
  | none => (st, [])
  | some p =>
    if !st.isActive p then (st, [])
    else deliverClientData env peer datagram wire p st

structure TunPacket where
  packet : Bytes
  sources : FrameSources
  datagram : Bytes

structure Outgoing where
  peer : SocketAddr
  datagram : Bytes
  frame : Bytes
  traffic : String
  payloadLength : ℕ

def encodeTunPacket (input : TunPacket) (ip : Ipv4Packet) (p : ℕ) (st : ServerState) :
    ServerState × Option Outgoing :=
  match st.heap[p]? with
  | none => (st, none)
  | some s =>
    match s.outbound.encodeIpInto ip.bytes input.datagram with
    | (outbound, _, .error _) => (st.setSession p { s with outbound }, none)
    | (outbound, datagram, .ok ()) =>
      let st := st.setSession p { s with outbound }
      match s.wire.encodeServer lib datagram input.sources with
      | none => (st, none)
      | some frame => (st, some ⟨s.peer, datagram, frame, s.traffic, ip.bytes.length⟩)

def handleTunPacket (input : TunPacket) (st : ServerState) : ServerState × Option Outgoing :=
  match Ipv4Packet.parse input.packet with
  | .error _ => (st, none)
  | .ok ip =>
    match st.sessions.byAddress.lookup ip.destination with
    | none => (st, none)
    | some p => if !st.isActive p then (st, none) else encodeTunPacket lib input ip p st

def encodeTunBatch : List TunPacket → ServerState → ServerState × List Outgoing
  | [], st => (st, [])
  | input :: inputs, st =>
    let (st, first) := handleTunPacket lib input st
    let (st, rest) := encodeTunBatch inputs st
    (st, first.toList ++ rest)

/-- The kernel takes the first `sent` datagrams of the batch. -/
def handleTunBatch (inputs : List TunPacket) (sent : ℕ) (st : ServerState) :
    ServerState × List Effect :=
  let (st, batch) := encodeTunBatch lib inputs st
  let taken := batch.take sent
  (st, taken.map (fun o => .send o.datagram o.frame o.peer) ++
    taken.map (fun o => .addDownload o.traffic o.payloadLength))

inductive Event
  | handshake (env : Env) (peer : SocketAddr) (datagram : Datagram) (wire : WireMode)
  | keepalive (env : Env) (peer : SocketAddr) (datagram : Datagram) (wire : WireMode)
  | clientData (env : Env) (peer : SocketAddr) (datagram : Datagram) (wire : WireMode)
  | tun (inputs : List TunPacket) (sent : ℕ)
  | revoke (publicKey : String) (persist : Except String Unit)
  | provision (name : String) (platform : DevicePlatform) (keys : Except String KeyPair)
      (persist : Except String Unit)

def step (st : ServerState) : Event → ServerState × List Effect
  | .handshake env peer datagram wire => handleHandshake lib config env peer datagram wire st
  | .keepalive env peer datagram wire => handleKeepalive lib env peer datagram wire st
  | .clientData env peer datagram wire => handleClientData env peer datagram wire st
  | .tun inputs sent => handleTunBatch lib inputs sent st
  | .revoke publicKey persist =>
    ({ st with registry := (st.registry.revoke lib publicKey persist).1 }, [])
  | .provision name platform keys persist =>
    ({ st with registry := (st.registry.provision lib name platform keys persist).1 }, [])

def after (registry : DeviceRegistry) (es : List Event) : ServerState :=
  Machine.run (step lib config) (ServerState.start registry) es

theorem after_concat (registry : DeviceRegistry) (es : List Event) (e : Event) :
    after lib config registry (es ++ [e]) = (step lib config (after lib config registry es) e).1 :=
  Machine.run_concat _ _ _ _

section Sample

def sampleKey (b : UInt8) : PublicKey := ⟨Vector.replicate 32 b⟩

def sampleConfig : ValidatedServerConfig :=
  { serverPublicKey := sampleKey 9
    serverPrivateKey := ⟨Vector.replicate 32 8⟩
    context := ProtocolContext.forServer clearLibraries (sampleKey 9)
    tun := { address := ⟨10, 77, 0, 1⟩, prefixLen := 24, mtu := 1280, dns := ⟨1, 1, 1, 1⟩ } }

def sampleRecord (b : UInt8) : DeviceRecord :=
  { name := "device", platform := .linux, publicKey := encodePublicKey clearLibraries (sampleKey b),
    address := ⟨10, 77, 0, b⟩ }

def sampleRegistry : DeviceRegistry :=
  let first := DeviceRegistry.addLease ∅ [] (sampleKey 2) (sampleRecord 2)
  let second := DeviceRegistry.addLease first.1 first.2 (sampleKey 3) (sampleRecord 3)
  { tunnelAddress := ⟨10, 77, 0, 1⟩
    prefixLen := 24
    devices := [sampleRecord 2, sampleRecord 3]
    leases := second.1
    flags := second.2
    file := some ⟨0o600, .ok ⟨registryVersion, [sampleRecord 2, sampleRecord 3]⟩⟩ }

def sampleEnv : Env :=
  { sources := ⟨some 1000, .ok (Vector.replicate 45 0)⟩
    entropy := []
    tunAccepts := true
    plaintext := []
    response := [] }

def samplePeer (b : UInt8) : SocketAddr := .v4 ⟨192, 0, 2, b⟩ 5000

def sampleInitiation (context : ProtocolContext) (b nonce : UInt8) : Bytes :=
  context.bytes.toList ++ (sampleKey b).bytes.toList ++ [nonce]

def sampleInit (sessionId : UInt64) (nonce : UInt8) : Datagram :=
  ⟨{ kind := .handshakeInit, flags := 0, sessionId, sequence := 0 },
    sampleInitiation sampleConfig.context 2 nonce⟩

def sampleHandshake (sessionId : UInt64) (nonce peer : UInt8) : Event :=
  .handshake sampleEnv (samplePeer peer) (sampleInit sessionId nonce) .legacy

def sampleKeepalive (sequence : UInt64) : Datagram :=
  ⟨{ kind := .keepalive, flags := 0, sessionId := 1, sequence }, 2 :: List.replicate authTagLen 0⟩

/-- A packet of the first device, sealed for its session. -/
def sampleData (sequence : UInt64) : Datagram :=
  ⟨{ kind := .data, flags := 0, sessionId := 1, sequence },
    1 :: [0x45, 0, 0, 20, 0, 0, 0, 0, 64, 17, 0, 0, 10, 77, 0, 2, 192, 0, 2, 80] ++
      List.replicate authTagLen 0⟩

def sampleReply : TunPacket :=
  ⟨[0x45, 0, 0, 20, 0, 0, 0, 0, 64, 17, 0, 0, 192, 0, 2, 80, 10, 77, 0, 2], sampleEnv.sources, []⟩

def endpointOf (st : ServerState) (a : Ipv4Addr) : Option SocketAddr :=
  (st.sessions.byAddress.lookup a).bind fun p => (st.heap[p]?).map RuntimeSession.peer

end Sample

end MouseVpn.Server
