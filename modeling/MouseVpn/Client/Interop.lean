import MouseVpn.Client.Wire
import MouseVpn.Server.WireDecoding

/-!
# The client and the server on the wire

Both sides derive the same keys, because the key agreement commutes. A datagram that
the client encodes carries a tag that the server's table holds for this client, so
the server opens it with the client's codec; in the other direction the client has
only one codec to try.
-/

namespace MouseVpn.Client

open MouseVpn.Lib MouseVpn.Crypto MouseVpn.Server MouseVpn.Wire
open MouseVpn.Server.MorphRouter (Produces Refreshed)
open MouseVpn.Wire.Morph (IdealAead MorphCodec MorphKey Profile)
open MouseVpn.Wire.Speedy (SpeedyCodec)

def X25519Commutes (lib : Libraries) : Prop :=
  ∀ a b : SecretKey, lib.x25519 a.bytes (b.publicKey lib).bytes =
    lib.x25519 b.bytes (a.publicKey lib).bytes

structure Paired (lib : Libraries) (config : ValidatedServerConfig)
    (client : ValidatedClientConfig) : Prop where
  keyPair : config.serverPrivateKey.publicKey lib = config.serverPublicKey
  server : client.serverPublicKey = config.serverPublicKey

def ValidatedClientConfig.device (lib : Libraries) (client : ValidatedClientConfig) : PublicKey :=
  client.clientPrivateKey.publicKey lib

def deviceMode (lib : Libraries) (config : ValidatedServerConfig) (device : PublicKey)
    (protocol : ClientProtocol) : Except CryptoError WireMode :=
  match protocol.morphProfile with
  | some profile => (deviceMorphKey lib config device).map fun key => .morph device ⟨key, profile⟩
  | none =>
    if protocol = .speedy then (deviceSpeedyCodec lib config device).map (.speedy device)
    else .ok .legacy

namespace ClientWire

def serverMode (device : PublicKey) : ClientWire → WireMode
  | .legacy => .legacy
  | .morph codec => .morph device codec
  | .speedy codec => .speedy device codec

def tableReading (wire : ClientWire) (clock : RouterClock) (device : PublicKey) : ClockReading :=
  match wire with
  | .legacy => clock.resolve
  | .morph codec => clock.profile device codec.profile
  | .speedy _ => clock.speedy device

def EpochsAgree (wire : ClientWire) (now now' : ClockReading) : Prop :=
  match wire with
  | .legacy => True
  | .morph codec => ∃ seconds seconds', now = some seconds ∧ now' = some seconds' ∧
      Adjacent (seconds / codec.profile.epochSeconds) (seconds' / codec.profile.epochSeconds)
  | .speedy _ => ∃ seconds seconds', now = some seconds ∧ now' = some seconds' ∧
      Adjacent (seconds / Speedy.epochSeconds) (seconds' / Speedy.epochSeconds)

def NoCollision (lib : Libraries) (config : ValidatedServerConfig) (clock : RouterClock)
    (registry : DeviceRegistry) (wire : ClientWire) (frame : Bytes) : Prop :=
  match wire with
  | .legacy => 8 ≤ frame.length → ∀ e, ¬ Produces lib config clock registry e (frame.take 8)
  | _ => ∀ e e', Produces lib config clock registry e (frame.take 8) →
      Produces lib config clock registry e' (frame.take 8) → e = e'

end ClientWire

structure Reception where
  router : MorphRouter
  lastClock : RouterClock
  lastRegistry : DeviceRegistry
  clock : RouterClock
  iteration : IterationOrder
  registry : DeviceRegistry
  seconds : UInt64

namespace Reception

def tableClock (m : Reception) : RouterClock :=
  if m.router.epoch = some m.seconds then m.lastClock else m.clock

def tableRegistry (m : Reception) : DeviceRegistry :=
  if m.router.epoch = some m.seconds then m.lastRegistry else m.registry

def decode (lib : Libraries) (config : ValidatedServerConfig) (m : Reception)
    (calls : SpeedyCodec → List SpeedyCodec.Call) (input output : Bytes) :
    Bytes × Option WireMode :=
  (decodeWireBuffer lib config m.clock m.iteration calls input m.registry m.router output).2

structure Fresh (lib : Libraries) (config : ValidatedServerConfig) (m : Reception) : Prop where
  reachable : MorphRouter.Reachable lib config m.router
  resolve : m.clock.resolve = some m.seconds
  last : m.router.epoch = some m.seconds →
    Refreshed lib config m.lastClock m.lastRegistry m.router
  refresh : m.router.epoch ≠ some m.seconds →
    (m.router.refresh lib config m.clock m.iteration m.seconds m.registry).2 = .ok ()

theorem Fresh.tables {lib : Libraries} {config : ValidatedServerConfig} {m : Reception}
    (h : m.Fresh lib config) :
    Refreshed lib config m.tableClock m.tableRegistry
      (m.router.current lib config m.clock m.iteration m.seconds m.registry) :=
  h.reachable.refreshed_current h.last h.refresh

/-- The server can tell a frame of the device: the device is in the table, its epochs agree
with the client's and no tag collides. -/
structure Ready (lib : Libraries) (config : ValidatedServerConfig) (m : Reception)
    (wire : ClientWire) (device : PublicKey) (now : ClockReading) (frame : Bytes) : Prop where
  fresh : m.Fresh lib config
  registered : device ∈ MorphRouter.registeredKeys lib m.tableRegistry
  tableEpoch : wire.EpochsAgree now (wire.tableReading m.tableClock device)
  frameEpoch : wire.EpochsAgree now m.clock.frame
  noCollision : wire.NoCollision lib config m.tableClock m.tableRegistry frame

end Reception

namespace ClientWire

variable {lib : Libraries} {config : ValidatedServerConfig} {client : ValidatedClientConfig}
  {wire : ClientWire}

theorem deriveWireKey_agrees (hdh : X25519Commutes lib) (hp : Paired lib config client)
    (label : Bytes) :
    deriveWireKey lib config.serverPrivateKey (client.device lib) config.serverPublicKey
        (client.device lib) label =
      deriveWireKey lib client.clientPrivateKey client.serverPublicKey client.serverPublicKey
        (client.clientPrivateKey.publicKey lib) label := by
  have hshared : lib.x25519 config.serverPrivateKey.bytes
      (client.clientPrivateKey.publicKey lib).bytes =
      lib.x25519 client.clientPrivateKey.bytes config.serverPublicKey.bytes := by
    rw [← hp.keyPair, hdh]
  simp only [deriveWireKey, hp.server, ValidatedClientConfig.device, hshared]

theorem deviceMode_of_fromConfig (hdh : X25519Commutes lib) (hp : Paired lib config client)
    (h : fromConfig lib client = .ok wire) :
    deviceMode lib config (client.device lib) client.protocol =
      .ok (wire.serverMode (client.device lib)) := by
  unfold fromConfig at h
  by_cases hspeedy : client.protocol = .speedy
  · rw [if_pos hspeedy, deriveSpeedyKey, ← deriveWireKey_agrees hdh hp] at h
    simp only [deviceMode, hspeedy, ClientProtocol.morphProfile, if_true, deviceSpeedyCodec,
      deriveSpeedyKey]
    split at h
    · cases h
    · rename_i key hk
      cases h
      rw [hk]
      rfl
  · rw [if_neg hspeedy] at h
    rw [deviceMode, if_neg hspeedy]
    cases hprofile : client.protocol.morphProfile with
    | none =>
      rw [hprofile] at h
      cases h
      rfl
    | some profile =>
      simp only [hprofile, deriveMorphKey, ← deriveWireKey_agrees hdh hp] at h
      simp only [deviceMorphKey, deriveMorphKey]
      split at h
      · cases h
      · rename_i key hk
        cases h
        rw [hk]
        rfl

theorem deviceMorphKey_of_deviceMode {device : PublicKey} {protocol : ClientProtocol}
    {codec : MorphCodec} (h : deviceMode lib config device protocol = .ok (.morph device codec)) :
    deviceMorphKey lib config device = .ok codec.key := by
  unfold deviceMode at h
  split at h
  · cases hk : deviceMorphKey lib config device with
    | error e => simp [hk, Except.map] at h
    | ok key =>
      rw [hk] at h
      cases h
      rfl
  · split_ifs at h
    · cases hk : deviceSpeedyCodec lib config device with
      | error e => simp [hk, Except.map] at h
      | ok codec => simp [hk, Except.map] at h
    · cases h

theorem deviceSpeedyCodec_of_deviceMode {device : PublicKey} {protocol : ClientProtocol}
    {codec : SpeedyCodec}
    (h : deviceMode lib config device protocol = .ok (.speedy device codec)) :
    deviceSpeedyCodec lib config device = .ok codec := by
  unfold deviceMode at h
  split at h
  · cases hk : deviceMorphKey lib config device with
    | error e => simp [hk, Except.map] at h
    | ok key => simp [hk, Except.map] at h
  · split_ifs at h
    · cases hk : deviceSpeedyCodec lib config device with
      | error e => simp [hk, Except.map] at h
      | ok codec =>
        rw [hk] at h
        cases h
        rfl
    · cases h

theorem encodeInto_morph {codec : MorphCodec} {calls : List SpeedyCodec.Call}
    {inner frame output : Bytes} {now : ClockReading}
    {random : Except String (Vector UInt8 Morph.frameRandomLen)}
    (h : encodeInto lib (.morph codec) calls inner now random output = (frame, .ok ())) :
    codec.encodePayloadInto lib inner .clientToServer now random output = (frame, .ok ()) := by
  simp only [encodeInto] at h
  split at h <;> simp_all

theorem encodeInto_speedy {codec : SpeedyCodec} {calls : List SpeedyCodec.Call}
    {inner frame output : Bytes} {now : ClockReading}
    {random : Except String (Vector UInt8 Morph.frameRandomLen)}
    (h : encodeInto lib (.speedy codec) calls inner now random output = (frame, .ok ())) :
    (codec.encodeInto lib (codec.cacheAfter lib calls) inner .clientToServer now output).2 =
      (frame, .ok ()) := by
  simp only [encodeInto] at h
  split at h <;> simp_all

section ToServer

variable {m : Reception} {calls : SpeedyCodec → List SpeedyCodec.Call}
  {inner frame buffer : Bytes} {now : ClockReading}
  {random : Except String (Vector UInt8 Morph.frameRandomLen)}

theorem legacy_to_server (hm : m.Fresh lib config)
    (hc : NoCollision lib config m.tableClock m.tableRegistry .legacy frame) (output : Bytes) :
    m.decode lib config calls frame output = (frame, some .legacy) := by
  refine MorphRouter.decodeWireBuffer_legacy hm.resolve hm.refresh fun hlen => ?_
  rw [hm.tables.represents, MorphRouter.free_iff.mpr (hc hlen)]

theorem morph_to_server (ha : IdealAead lib) {codec : MorphCodec} {device : PublicKey}
    (hk : deviceMorphKey lib config device = .ok codec.key)
    (hm : m.Ready lib config (.morph codec) device now frame)
    (he : codec.encodePayloadInto lib inner .clientToServer now random buffer = (frame, .ok ()))
    (output : Bytes) :
    m.decode lib config calls frame output = (inner, some (.morph device codec)) := by
  obtain ⟨sent, tabled, rfl, htable, hadj⟩ := hm.tableEpoch
  obtain ⟨_, received, ⟨⟩, hframe, hadj'⟩ := hm.frameEpoch
  have htag := Morph.take_encodeFrame ha ((MorphCodec.encodePayloadInto_ok_iff buffer).mp he)
  have hlen : 8 ≤ frame.length := by
    have := congrArg List.length htag
    simp only [List.length_take, Morph.routingTagAt_length, Morph.routingTagLen] at this
    omega
  obtain ⟨position, hb⟩ := MorphRouter.bid_morph_of_epoch hk htable hadj
  rw [← htag] at hb
  have hroute := hm.fresh.tables.represents.lookup_routes.mpr
    (MorphRouter.held_of_bid hm.registered hb hm.noCollision)
  refine MorphRouter.decodeWireBuffer_morph hm.fresh.resolve hm.fresh.refresh hlen hroute ?_
  rw [hframe]
  exact MorphCodec.decodeInto_encodePayloadInto ha hadj' he output

theorem speedy_to_server {codec : SpeedyCodec} {device : PublicKey}
    {clientCalls : List SpeedyCodec.Call}
    (hk : deviceSpeedyCodec lib config device = .ok codec)
    (hm : m.Ready lib config (.speedy codec) device now frame)
    (he : (codec.encodeInto lib (codec.cacheAfter lib clientCalls) inner .clientToServer now
      buffer).2 = (frame, .ok ())) (output : Bytes) :
    m.decode lib config calls frame output = (inner, some (.speedy device codec)) := by
  obtain ⟨sent, tabled, rfl, htable, hadj⟩ := hm.tableEpoch
  obtain ⟨_, received, ⟨⟩, hframe, hadj'⟩ := hm.frameEpoch
  have hvalid := codec.valid_cacheAfter lib clientCalls
  obtain ⟨_, ⟨⟩, hv, hwire⟩ := (SpeedyCodec.encodeInto_ok_iff hvalid buffer).mp he
  have htag : frame.take 8 = codec.routingTagAt lib .clientToServer (sent / Speedy.epochSeconds) :=
    hwire ▸ codec.take_frameAt .clientToServer _ inner
  have hlen : 8 ≤ frame.length := by
    rw [← hwire, SpeedyCodec.frameAt_length]
    simp only [Speedy.overhead, Speedy.routingTagLen]
    omega
  obtain ⟨position, hb⟩ := MorphRouter.bid_speedy_of_epoch hk htable hadj
  rw [← htag] at hb
  have hheld := MorphRouter.held_of_bid hm.registered hb hm.noCollision
  have hs := hm.fresh.tables.represents.lookup_speedyRoutes.mpr hheld
  have hcell := hm.fresh.tables.represents (frame.take 8)
  rw [hheld] at hcell
  refine MorphRouter.decodeWireBuffer_speedy hm.fresh.resolve hm.fresh.refresh hlen
    (congrArg MorphRouter.Cell.route hcell) ?_ hs ?_
  · simpa [MorphRouter.cell, MorphRouter.Cell.of] using
      congrArg MorphRouter.Cell.ambiguous hcell
  · rw [hframe]
    exact SpeedyCodec.decodeInto_encodeInto hvalid (codec.valid_cacheAfter lib _) hadj' he output

theorem to_server (ha : IdealAead lib) {device : PublicKey} {protocol : ClientProtocol}
    (hmode : deviceMode lib config device protocol = .ok (wire.serverMode device))
    {clientCalls : List SpeedyCodec.Call} (hm : m.Ready lib config wire device now frame)
    (he : wire.encodeInto lib clientCalls inner now random buffer = (frame, .ok ()))
    (output : Bytes) :
    m.decode lib config calls frame output = (inner, some (wire.serverMode device)) := by
  cases wire with
  | legacy =>
    obtain rfl : inner = frame := by simpa [encodeInto, Vec.clear] using he
    exact legacy_to_server hm.fresh hm.noCollision output
  | morph codec =>
    exact morph_to_server ha (deviceMorphKey_of_deviceMode hmode) hm (encodeInto_morph he) output
  | speedy codec =>
    exact speedy_to_server (deviceSpeedyCodec_of_deviceMode hmode) hm (encodeInto_speedy he) output

end ToServer

theorem to_client (ha : IdealAead lib) (device : PublicKey)
    (calls : SpeedyCodec → List SpeedyCodec.Call) (clientCalls : List SpeedyCodec.Call)
    {inner frame buffer : Bytes} {sources : FrameSources} {now : ClockReading}
    (hf : wire.EpochsAgree sources.now now)
    (he : (wire.serverMode device).encodeServerInto lib calls inner sources buffer =
      (frame, .ok ())) (output : Bytes) :
    wire.decodeInto lib clientCalls frame now output = (inner, .ok true) := by
  cases wire with
  | legacy =>
    simp only [serverMode, WireMode.encodeServerInto, Vec.clear, List.nil_append,
      Prod.mk.injEq, and_true] at he
    simp [decodeInto, Vec.clear, he]
  | morph codec =>
    obtain ⟨sent, received, hsent, rfl, hadj⟩ := hf
    have hcodec := (WireMode.encodeServerInto_morph lib calls).mp he
    rw [hsent] at hcodec
    simp only [decodeInto, MorphCodec.decodeInto_encodePayloadInto ha hadj hcodec output]
  | speedy codec =>
    obtain ⟨sent, received, hsent, rfl, hadj⟩ := hf
    have hcodec := (WireMode.encodeServerInto_speedy lib calls).mp he
    rw [hsent] at hcodec
    simp only [decodeInto, SpeedyCodec.decodeInto_encodeInto (codec.valid_cacheAfter lib _)
      (codec.valid_cacheAfter lib _) hadj hcodec output]

/-- What a registered device encodes reaches the server in the mode of the device, and what
the server encodes in that mode reaches the device. -/
theorem interoperates (ha : IdealAead lib) (hdh : X25519Commutes lib)
    (hp : Paired lib config client) (hwire : fromConfig lib client = .ok wire) :
    let device := client.device lib
    ∃ mode, deviceMode lib config device client.protocol = .ok mode ∧
    (∀ (m : Reception) calls clientCalls inner now random buffer frame output,
      m.Ready lib config wire device now frame →
      wire.encodeInto lib clientCalls inner now random buffer = (frame, .ok ()) →
      m.decode lib config calls frame output = (inner, some mode)) ∧
    (∀ calls clientCalls inner sources buffer frame now output,
      wire.EpochsAgree sources.now now →
      mode.encodeServerInto lib calls inner sources buffer = (frame, .ok ()) →
      wire.decodeInto lib clientCalls frame now output = (inner, .ok true)) := by
  have hmode := deviceMode_of_fromConfig hdh hp hwire
  refine ⟨_, hmode, ?_, ?_⟩
  · intro m calls clientCalls inner now random buffer frame output hm he
    exact to_server ha hmode hm he output
  · intro calls clientCalls inner sources buffer frame now output hf he
    exact to_client ha _ calls clientCalls hf he output

section Sample

def pairedConfig : ValidatedServerConfig :=
  { sampleConfig with
    serverPublicKey := sampleConfig.serverPrivateKey.publicKey clearLibraries }

def sampleClient : ValidatedClientConfig :=
  { serverPublicKey := pairedConfig.serverPublicKey
    clientPrivateKey := ⟨Vector.replicate 32 5⟩
    context := ProtocolContext.forSpeedyServer clearLibraries pairedConfig.serverPublicKey
    protocol := .speedy }

def sampleDevice : DeviceRecord :=
  { sampleRecord 2 with
    publicKey := encodePublicKey clearLibraries (sampleClient.device clearLibraries) }

def sampleClientRegistry : DeviceRegistry :=
  let leases := DeviceRegistry.addLease ∅ [] (sampleClient.device clearLibraries) sampleDevice
  { sampleRegistry with
    devices := [sampleDevice]
    leases := leases.1
    flags := leases.2
    file := some ⟨0o600, .ok ⟨registryVersion, [sampleDevice]⟩⟩ }

theorem clearLibraries_x25519Commutes : X25519Commutes clearLibraries := by
  intro a b
  have hget : ∀ (f : Fin 32 → UInt8) (i : Fin 32), (Vector.ofFn f).get i = f i := by
    intro f i
    exact Vector.getElem_ofFn i.isLt
  have hx : ∀ s p : Array32, clearLibraries.x25519 s p =
      Vector.ofFn fun i => s.get i ^^^ p.get i := fun _ _ => rfl
  simp only [SecretKey.publicKey, hx]
  refine congrArg Vector.ofFn (funext fun i => ?_)
  rw [hget, hget, ← UInt8.xor_assoc, ← UInt8.xor_assoc, UInt8.xor_comm (a.bytes.get i)]

def sampleCodec : SpeedyCodec :=
  match deviceSpeedyCodec clearLibraries pairedConfig (sampleClient.device clearLibraries) with
  | .ok codec => codec
  | .error _ => SpeedyCodec.new clearLibraries ⟨Vector.replicate 32 0⟩

theorem fromConfig_sample :
    fromConfig clearLibraries sampleClient = .ok (.speedy sampleCodec) := by
  decide +kernel

theorem sample_unique (e e' : RouteEntry)
    (h : Produces clearLibraries pairedConfig (.fixed 1000) sampleClientRegistry e
      (sampleCodec.routingTagAt clearLibraries .clientToServer 100))
    (h' : Produces clearLibraries pairedConfig (.fixed 1000) sampleClientRegistry e'
      (sampleCodec.routingTagAt clearLibraries .clientToServer 100)) : e = e' := by
  by_contra hne
  have hcontested := MorphRouter.contested_iff.mpr ⟨e, e', hne, h, h'⟩
  have hheld : (match Bids.holding (MorphRouter.tableBids clearLibraries pairedConfig (.fixed 1000)
      sampleClientRegistry) (sampleCodec.routingTagAt clearLibraries .clientToServer 100) with
      | .contested => true
      | _ => false) = false := by
    decide +kernel
  rw [hcontested] at hheld
  cases hheld

def sampleReception : Reception :=
  ⟨.default, .fixed 1000, sampleClientRegistry, .fixed 1000, ⟨id, List.Perm.refl⟩,
    sampleClientRegistry, 1000⟩

theorem sampleReception_fresh : sampleReception.Fresh clearLibraries pairedConfig where
  reachable := .default
  resolve := rfl
  last h := nomatch h
  refresh _ := (MorphRouter.refresh_fixed .default 1000 1000 _ _).1

def sampleFrame : Bytes :=
  sampleCodec.frameAt clearLibraries .clientToServer 100 (sampleKeepalive 5).encode

theorem sampleReception_ready :
    sampleReception.Ready clearLibraries pairedConfig (.speedy sampleCodec)
      (sampleClient.device clearLibraries) (some 1000) sampleFrame where
  fresh := sampleReception_fresh
  registered := by decide +kernel
  tableEpoch := ⟨1000, 1000, rfl, rfl, by decide⟩
  frameEpoch := ⟨1000, 1000, rfl, rfl, by decide⟩
  noCollision := by
    intro e e' h h'
    rw [show (8 : ℕ) = Speedy.routingTagLen from rfl, sampleFrame, SpeedyCodec.take_frameAt] at h h'
    exact sample_unique e e' h h'

theorem interoperates_sample :
    X25519Commutes clearLibraries ∧ Paired clearLibraries pairedConfig sampleClient ∧
    ∃ mode, deviceMode clearLibraries pairedConfig (sampleClient.device clearLibraries) .speedy =
        .ok mode ∧
      sampleReception.decode clearLibraries pairedConfig (fun _ => []) sampleFrame [] =
        ((sampleKeepalive 5).encode, some mode) := by
  have hp : Paired clearLibraries pairedConfig sampleClient := ⟨rfl, rfl⟩
  obtain ⟨mode, hmode, hserver, -⟩ := interoperates MorphCodec.clearLibraries_idealAead
    clearLibraries_x25519Commutes hp fromConfig_sample
  have hframe : encodeInto clearLibraries (.speedy sampleCodec) [] (sampleKeepalive 5).encode
      (some 1000) (.error "") [] = (sampleFrame, .ok ()) := by
    decide +kernel
  exact ⟨clearLibraries_x25519Commutes, hp, mode, hmode,
    hserver sampleReception _ [] _ _ _ _ _ _ sampleReception_ready hframe⟩

end Sample

end ClientWire

end MouseVpn.Client
