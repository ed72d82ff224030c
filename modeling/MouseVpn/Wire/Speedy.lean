import MouseVpn.Crypto.Handshake
import MouseVpn.Protocol.Datagram

/-!
# The Speedy envelope

A routing tag, the datagram with its header masked, and a keyed hash over both.
A codec and its clones share one cache of routing tags. The cache only ever
holds what would be computed anew, so no result depends on it.
-/

namespace MouseVpn.Wire.Speedy

open MouseVpn.Lib MouseVpn.Lib.BigEndian MouseVpn.Crypto MouseVpn.Protocol

def routingTagLen : ℕ := 8

def authTagLen : ℕ := 16

def sampleLen : ℕ := 16

def overhead : ℕ := routingTagLen + authTagLen

def maxDatagramLen : ℕ := 1452

def maxInnerDatagramLen : ℕ := maxDatagramLen - overhead

def safeTunMtu : UInt16 := 1391

def epochSeconds : UInt64 := 10

def minFrameLen : ℕ := overhead + headerLen + sampleLen

inductive SpeedyError
  | invalidLength
  | invalidHeader
  | unknownRoutingTag
  | authentication
  | clock
  | cache
  deriving DecidableEq, Repr

inductive Direction
  | clientToServer
  | serverToClient
  deriving DecidableEq, Repr

def Direction.toByte : Direction → UInt8
  | .clientToServer => 0
  | .serverToClient => 1

structure SpeedyKey where
  bytes : Array32
  deriving DecidableEq

structure DirectionKeys where
  route : SpeedyKey
  mask : SpeedyKey
  auth : SpeedyKey
  deriving DecidableEq

structure SpeedyCodec where
  clientToServer : DirectionKeys
  serverToClient : DirectionKeys
  deriving DecidableEq

structure RouteCache where
  epoch : UInt64
  tags : Direction → List Bytes

def currentEpoch (now : ClockReading) : Except SpeedyError UInt64 :=
  match now with
  | none => .error .clock
  | some seconds => .ok (seconds / epochSeconds)

def acceptedEpochs (epoch : UInt64) : List UInt64 :=
  [epoch, saturatingSub epoch 1, saturatingAdd epoch 1]

def validateInner (inner : Bytes) (direction : Direction) : Except SpeedyError Unit :=
  if inner.length < headerLen + sampleLen ∨ inner.length > maxInnerDatagramLen then
    .error .invalidLength
  else
    match Datagram.decode inner with
    | .error _ => .error .invalidHeader
    | .ok packet =>
      if packet.header.flags ≠ 0 then .error .invalidHeader
      else
        match packet.header.kind, direction with
        | .data, _ => .ok ()
        | .keepalive, _ => .ok ()
        | .handshakeInit, .clientToServer =>
          if packet.header.sequence = 0 then .ok () else .error .invalidHeader
        | .handshakeResponse, .serverToClient =>
          if packet.header.sequence = 0 then .ok () else .error .invalidHeader
        | _, _ => .error .invalidHeader

def maskHeader (datagram : Bytes) (mask : Array32) : Bytes :=
  (datagram.take headerLen).zipWith (· ^^^ ·) mask.toList ++ datagram.drop headerLen

namespace SpeedyCodec

variable (lib : Libraries)

def new (key : SpeedyKey) : SpeedyCodec :=
  let derive (direction : Direction) (purpose : UInt8) : SpeedyKey :=
    ⟨lib.hkdfExpand key.bytes (ascii "SP" ++ [1, direction.toByte, purpose])⟩
  let keys (direction : Direction) : DirectionKeys :=
    ⟨derive direction 0, derive direction 1, derive direction 2⟩
  ⟨keys .clientToServer, keys .serverToClient⟩

def keys (codec : SpeedyCodec) : Direction → DirectionKeys
  | .clientToServer => codec.clientToServer
  | .serverToClient => codec.serverToClient

def routingTagAt (codec : SpeedyCodec) (direction : Direction) (epoch : UInt64) : Bytes :=
  (lib.hmacSha256 (codec.keys direction).route.bytes
    (ascii "Speedy v1 route\x00" ++ beBytes 8 epoch.toNat)).toList.take routingTagLen

def headerMask (codec : SpeedyCodec) (direction : Direction) (route inner : Bytes) : Array32 :=
  lib.blake3KeyedHash (codec.keys direction).mask.bytes
    (route ++ inner.drop (inner.length - sampleLen))

def authTag (codec : SpeedyCodec) (direction : Direction) (frame : Bytes) : Bytes :=
  (lib.blake3KeyedHash (codec.keys direction).auth.bytes frame).toList.take authTagLen

def computeTags (codec : SpeedyCodec) (epoch : UInt64) : RouteCache :=
  ⟨epoch, fun direction => (acceptedEpochs epoch).map (codec.routingTagAt lib direction)⟩

def tags (codec : SpeedyCodec) (cache : Option RouteCache) (direction : Direction)
    (epoch : UInt64) : RouteCache × List Bytes :=
  let cached :=
    match cache with
    | some cached => if cached.epoch = epoch then cached else codec.computeTags lib epoch
    | none => codec.computeTags lib epoch
  (cached, cached.tags direction)

def encodeAt (codec : SpeedyCodec) (cache : Option RouteCache) (inner : Bytes)
    (direction : Direction) (epoch : UInt64) : Option RouteCache × Except SpeedyError Bytes :=
  match validateInner inner direction with
  | .error e => (cache, .error e)
  | .ok () =>
    let (cache, tags) := codec.tags lib cache direction epoch
    let route := tags.headD []
    let frame := route ++ maskHeader inner (codec.headerMask lib direction route inner)
    (some cache, .ok (frame ++ codec.authTag lib direction frame))

def encode (codec : SpeedyCodec) (cache : Option RouteCache) (inner : Bytes)
    (direction : Direction) (now : ClockReading) :
    Option RouteCache × Except SpeedyError Bytes :=
  match currentEpoch now with
  | .error e => (cache, .error e)
  | .ok epoch => codec.encodeAt lib cache inner direction epoch

def decodeAt (codec : SpeedyCodec) (cache : Option RouteCache) (input : Bytes)
    (direction : Direction) (epoch : UInt64) : Option RouteCache × Except SpeedyError Bytes :=
  if input.length < minFrameLen ∨ input.length > maxDatagramLen then
    (cache, .error .invalidLength)
  else
    let route := input.take routingTagLen
    let (cache, tags) := codec.tags lib cache direction epoch
    if !tags.contains route then (some cache, .error .unknownRoutingTag)
    else
      let authenticated := input.take (input.length - authTagLen)
      if codec.authTag lib direction authenticated ≠ input.drop (input.length - authTagLen) then
        (some cache, .error .authentication)
      else
        let inner := authenticated.drop routingTagLen
        let output := maskHeader inner (codec.headerMask lib direction route inner)
        match validateInner output direction with
        | .error e => (some cache, .error e)
        | .ok () => (some cache, .ok output)

def decode (codec : SpeedyCodec) (cache : Option RouteCache) (input : Bytes)
    (direction : Direction) (now : ClockReading) :
    Option RouteCache × Except SpeedyError Bytes :=
  match currentEpoch now with
  | .error e => (cache, .error e)
  | .ok epoch => codec.decodeAt lib cache input direction epoch

def Valid (codec : SpeedyCodec) (cache : Option RouteCache) : Prop :=
  ∀ cached, cache = some cached → cached = codec.computeTags lib cached.epoch

variable {lib}

theorem tags_of_valid {codec : SpeedyCodec} {cache : Option RouteCache}
    (h : codec.Valid lib cache) (direction : Direction) (epoch : UInt64) :
    codec.tags lib cache direction epoch =
      (codec.computeTags lib epoch, (codec.computeTags lib epoch).tags direction) := by
  unfold tags
  cases cache with
  | none => rfl
  | some cached =>
    have hc := h cached rfl
    by_cases he : cached.epoch = epoch
    · rw [he] at hc
      simp [hc]
    · simp [he]

theorem encode_of_valid {codec : SpeedyCodec} {cache : Option RouteCache}
    (h : codec.Valid lib cache) (inner : Bytes) (direction : Direction) (now : ClockReading) :
    codec.Valid lib (codec.encode lib cache inner direction now).1 ∧
      (codec.encode lib cache inner direction now).2 =
        (codec.encode lib none inner direction now).2 := by
  have hnone : codec.Valid lib none := by simp [Valid]
  have hvalid : ∀ epoch, codec.Valid lib (some (codec.computeTags lib epoch)) := by
    rintro epoch cached ⟨⟩
    rfl
  unfold encode
  cases currentEpoch now with
  | error e => exact ⟨h, rfl⟩
  | ok epoch =>
    simp only [encodeAt, tags_of_valid h, tags_of_valid hnone]
    cases validateInner inner direction with
    | error e => exact ⟨h, rfl⟩
    | ok u => exact ⟨hvalid epoch, rfl⟩

theorem decode_of_valid {codec : SpeedyCodec} {cache : Option RouteCache}
    (h : codec.Valid lib cache) (input : Bytes) (direction : Direction) (now : ClockReading) :
    codec.Valid lib (codec.decode lib cache input direction now).1 ∧
      (codec.decode lib cache input direction now).2 =
        (codec.decode lib none input direction now).2 := by
  have hnone : codec.Valid lib none := by simp [Valid]
  have hvalid : ∀ epoch, codec.Valid lib (some (codec.computeTags lib epoch)) := by
    rintro epoch cached ⟨⟩
    rfl
  unfold decode
  cases currentEpoch now with
  | error e => exact ⟨h, rfl⟩
  | ok epoch =>
    simp only [decodeAt, tags_of_valid h, tags_of_valid hnone]
    split
    · exact ⟨h, rfl⟩
    · split
      · exact ⟨hvalid epoch, rfl⟩
      · split
        · exact ⟨hvalid epoch, rfl⟩
        · split
          · exact ⟨hvalid epoch, rfl⟩
          · exact ⟨hvalid epoch, rfl⟩

end SpeedyCodec

end MouseVpn.Wire.Speedy
