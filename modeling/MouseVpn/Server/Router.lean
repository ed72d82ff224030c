import MouseVpn.Server.Registry
import MouseVpn.Wire.Morph
import MouseVpn.Wire.Speedy

/-!
# Wire modes and the routing table

The first eight bytes of a masked datagram select the device and the codec. The
table of tags is rebuilt from the registry when the epoch changes; a tag that two
entries claim is ambiguous and belongs to neither. Each reading of the clock is an
argument at its own call site, and so is the iteration order of the device set.
-/

namespace MouseVpn.Server

open MouseVpn.Lib MouseVpn.Crypto MouseVpn.Protocol MouseVpn.Wire
open MouseVpn.Wire.Morph (MorphCodec MorphKey Profile)
open MouseVpn.Wire.Speedy (SpeedyCodec SpeedyKey)

structure ServerTunConfig where
  address : Ipv4Addr
  prefixLen : UInt8
  mtu : UInt16
  dns : Ipv4Addr

structure ValidatedServerConfig where
  serverPublicKey : PublicKey
  serverPrivateKey : SecretKey
  context : ProtocolContext
  tun : ServerTunConfig

inductive WireMode
  | legacy
  | speedy (clientPublicKey : PublicKey) (codec : SpeedyCodec)
  | morph (clientPublicKey : PublicKey) (codec : MorphCodec)
  deriving DecidableEq

structure FrameSources where
  now : ClockReading
  random : Except String (Vector UInt8 Morph.frameRandomLen)

namespace WireMode

def encodeServer (lib : Libraries) (wire : WireMode) (inner : Bytes) (sources : FrameSources) :
    Option Bytes :=
  match wire with
  | .legacy => some inner
  | .morph _ codec =>
    (codec.encodePayload lib inner .serverToClient sources.now sources.random).toOption
  | .speedy _ codec => (codec.encode lib none inner .serverToClient sources.now).2.toOption

def allowsClient (wire : WireMode) (publicKey : PublicKey) : Bool :=
  match wire with
  | .legacy => true
  | .morph clientPublicKey _ => clientPublicKey = publicKey
  | .speedy clientPublicKey _ => clientPublicKey = publicKey

def «matches» (wire incoming : WireMode) : Bool :=
  match wire, incoming with
  | .legacy, .legacy => true
  | .speedy expected _, .speedy actual _ => expected = actual
  | .morph expected expectedCodec, .morph actual actualCodec =>
    expected = actual ∧ expectedCodec.profile = actualCodec.profile
  | _, _ => false

def sessionMtu (wire : WireMode) (configured : UInt16) : UInt16 :=
  match wire with
  | .legacy => configured
  | .speedy _ _ => min configured Speedy.safeTunMtu
  | .morph _ _ => min configured Morph.safeTunMtu

def client : WireMode → Option PublicKey
  | .legacy => none
  | .speedy clientPublicKey _ => some clientPublicKey
  | .morph clientPublicKey _ => some clientPublicKey

def isSpeedy : WireMode → Bool
  | .speedy _ _ => true
  | _ => false

theorem client_eq_of_matches {wire incoming : WireMode} (h : wire.matches incoming = true) :
    wire.client = incoming.client := by
  cases wire <;> cases incoming <;> simp_all [WireMode.matches, client]

theorem client_of_allowsClient {wire : WireMode} {key : PublicKey}
    (h : wire.allowsClient key = true) : wire.client = none ∨ wire.client = some key := by
  cases wire <;> simp_all [allowsClient, client]

theorem eq_legacy_of_client {wire : WireMode} (h : wire.client = WireMode.legacy.client) :
    wire = .legacy := by
  cases wire <;> simp_all [client]

end WireMode

structure MorphRoute where
  publicKey : PublicKey
  key : MorphKey
  profile : Profile

structure MorphRouter where
  epoch : Option UInt64
  keys : HashMap PublicKey MorphKey
  speedyCodecs : HashMap PublicKey SpeedyCodec
  speedyRoutes : HashMap Bytes (PublicKey × SpeedyCodec)
  routes : HashMap Bytes MorphRoute
  ambiguous : List Bytes

structure IterationOrder where
  order : List PublicKey → List PublicKey
  perm : ∀ devices, (order devices).Perm devices

structure RouterClock where
  resolve : ClockReading
  profile : PublicKey → Profile → ClockReading
  speedy : PublicKey → ClockReading
  frame : ClockReading

namespace MorphRouter

def default : MorphRouter := ⟨none, ∅, ∅, ∅, ∅, []⟩

def addRoute (r : MorphRouter) (route : MorphRoute) (tag : Bytes) : MorphRouter :=
  if tag ∈ r.ambiguous then r
  else if (r.speedyRoutes.lookup tag).isSome then
    { r with speedyRoutes := r.speedyRoutes.erase tag, ambiguous := tag :: r.ambiguous }
  else if (r.routes.lookup tag).isSome then
    { r with routes := r.routes.erase tag, ambiguous := tag :: r.ambiguous }
  else { r with routes := r.routes.insert tag route }

def addSpeedyRoute (r : MorphRouter) (publicKey : PublicKey) (codec : SpeedyCodec)
    (tag : Bytes) : MorphRouter :=
  if tag ∈ r.ambiguous then r
  else if (r.routes.lookup tag).isSome then
    { r with routes := r.routes.erase tag, ambiguous := tag :: r.ambiguous }
  else if (r.speedyRoutes.lookup tag).isSome then
    { r with speedyRoutes := r.speedyRoutes.erase tag, ambiguous := tag :: r.ambiguous }
  else { r with speedyRoutes := r.speedyRoutes.insert tag (publicKey, codec) }

variable (lib : Libraries) (config : ValidatedServerConfig) (clock : RouterClock)

def addProfileRoutes (r : MorphRouter) (publicKey : PublicKey) (key : MorphKey) : MorphRouter :=
  [Profile.quiet, .balanced, .paranoid].foldl (fun r profile =>
    match Morph.currentEpoch profile (clock.profile publicKey profile) with
    | .error _ => r
    | .ok epoch =>
      (Morph.acceptedEpochs epoch).foldl (fun r accepted =>
        r.addRoute ⟨publicKey, key, profile⟩
          (Morph.routingTagAt lib key profile .clientToServer accepted)) r) r

def speedyCodec (r : MorphRouter) (publicKey : PublicKey) : Except CryptoError SpeedyCodec :=
  match r.speedyCodecs.lookup publicKey with
  | some codec => .ok codec
  | none =>
    match deriveSpeedyKey lib config.serverPrivateKey publicKey config.serverPublicKey
        publicKey with
    | .error e => .error e
    | .ok key => .ok (SpeedyCodec.new lib ⟨key⟩)

def morphKey (r : MorphRouter) (publicKey : PublicKey) : Except CryptoError MorphKey :=
  match r.keys.lookup publicKey with
  | some key => .ok key
  | none =>
    match deriveMorphKey lib config.serverPrivateKey publicKey config.serverPublicKey
        publicKey with
    | .error e => .error e
    | .ok key => .ok ⟨key⟩

def addSpeedyRoutes (r : MorphRouter) (publicKey : PublicKey) : MorphRouter × Except Unit Unit :=
  match r.speedyCodec lib config publicKey with
  | .error _ => (r, .error ())
  | .ok codec =>
    let r := { r with speedyCodecs := r.speedyCodecs.insert publicKey codec }
    match Speedy.currentEpoch (clock.speedy publicKey) with
    | .error _ => (r, .error ())
    | .ok epoch =>
      ((Speedy.acceptedEpochs epoch).foldl (fun r epoch =>
        r.addSpeedyRoute publicKey codec (codec.routingTagAt lib .clientToServer epoch)) r,
        .ok ())

/-- The loop over the devices: a device without a shared secret is skipped, a
failure of its Speedy routes ends the refresh where it stands. -/
def addDevices (r : MorphRouter) : List PublicKey → MorphRouter × Except Unit Unit
  | [] => (r, .ok ())
  | publicKey :: devices =>
    match r.morphKey lib config publicKey with
    | .error _ => addDevices r devices
    | .ok key =>
      let r := { r with keys := r.keys.insert publicKey key }
      let r := r.addProfileRoutes lib clock publicKey key
      match r.addSpeedyRoutes lib config clock publicKey with
      | (r, .error e) => (r, .error e)
      | (r, .ok ()) => addDevices r devices

def registeredKeys (registry : DeviceRegistry) : List PublicKey :=
  (registry.list.filterMap fun device => (decodePublicKey lib device.publicKey).toOption).dedup

def refresh (iteration : IterationOrder) (r : MorphRouter) (epoch : UInt64)
    (registry : DeviceRegistry) : MorphRouter × Except Unit Unit :=
  let devices := registeredKeys lib registry
  let r : MorphRouter :=
    { r with
      keys := r.keys.retain fun publicKey _ => publicKey ∈ devices
      speedyCodecs := r.speedyCodecs.retain fun publicKey _ => publicKey ∈ devices
      speedyRoutes := ∅
      routes := ∅
      ambiguous := [] }
  match r.addDevices lib config clock (iteration.order devices) with
  | (r, .error e) => (r, .error e)
  | (r, .ok ()) => ({ r with epoch := some epoch }, .ok ())

def resolve (iteration : IterationOrder) (r : MorphRouter) (input : Bytes)
    (registry : DeviceRegistry) : MorphRouter × Option MorphRoute :=
  if input.length < 8 then (r, none)
  else
    match Morph.currentEpoch .paranoid clock.resolve with
    | .error _ => (r, none)
    | .ok epoch =>
      if r.epoch ≠ some epoch then
        match r.refresh lib config clock iteration epoch registry with
        | (r, .error _) => (r, none)
        | (r, .ok ()) => (r, r.routes.lookup (input.take 8))
      else (r, r.routes.lookup (input.take 8))

end MorphRouter

def decodeWireInto (lib : Libraries) (config : ValidatedServerConfig) (clock : RouterClock)
    (iteration : IterationOrder) (input : Bytes) (registry : DeviceRegistry)
    (router : MorphRouter) : MorphRouter × Option (WireMode × Bytes) :=
  match router.resolve lib config clock iteration input registry with
  | (router, none) =>
    if 8 ≤ input.length ∧ input.take 8 ∈ router.ambiguous then (router, none)
    else
      match if 8 ≤ input.length then router.speedyRoutes.lookup (input.take 8) else none with
      | some (publicKey, codec) =>
        match (codec.decode lib none input .clientToServer clock.frame).2 with
        | .error _ => (router, none)
        | .ok output => (router, some (.speedy publicKey codec, output))
      | none => (router, some (.legacy, input))
  | (router, some route) =>
    match MorphCodec.decode lib ⟨route.key, route.profile⟩ input .clientToServer clock.frame with
    | .ok (.payload profile, output) =>
      (router, some (.morph route.publicKey ⟨route.key, profile⟩, output))
    | _ => (router, none)

end MouseVpn.Server
