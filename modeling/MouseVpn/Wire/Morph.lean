import MouseVpn.Crypto.Handshake
import MouseVpn.Lib.BigEndian

/-!
# The MouseMorph envelope

A frame is a routing tag, a nonce and an AEAD-sealed inner header with payload
and padding. The clock reading and the random bytes of one call are arguments.
-/

namespace MouseVpn.Wire.Morph

open MouseVpn.Lib MouseVpn.Lib.BigEndian MouseVpn.Crypto

def formatVersion : UInt8 := 2

def routingTagLen : ℕ := 8

def nonceLen : ℕ := 12

def clearPrefixLen : ℕ := routingTagLen + nonceLen

def innerHeaderLen : ℕ := 6

def authTagLen : ℕ := 16

def minFrameLen : ℕ := clearPrefixLen + innerHeaderLen + authTagLen

def maxDatagramLen : ℕ := 1472

def safeTunMtu : UInt16 := 1280

def maxRandomPadding : ℕ := 31

def frameRandomLen : ℕ := nonceLen + 2 + maxRandomPadding

inductive MorphError
  | truncated (actual minimum : ℕ)
  | frameTooLarge (actual maximum : ℕ)
  | invalidFrame
  | invalidProfile (value : UInt8)
  | unknownRoutingTag
  | clock
  | random (error : String)
  | cipherInit
  | encryption
  | authentication
  deriving DecidableEq, Repr

inductive Profile
  | quiet
  | balanced
  | paranoid
  deriving DecidableEq, Repr

namespace Profile

def toByte : Profile → UInt8
  | .quiet => 1
  | .balanced => 2
  | .paranoid => 3

def epochSeconds : Profile → UInt64
  | .quiet => 30
  | .balanced => 5
  | .paranoid => 1

def fromId (value : UInt8) : Except MorphError Profile :=
  match value with
  | 1 => .ok .quiet
  | 2 => .ok .balanced
  | 3 => .ok .paranoid
  | value => .error (.invalidProfile value)

end Profile

inductive Direction
  | clientToServer
  | serverToClient
  deriving DecidableEq, Repr

def Direction.toByte : Direction → UInt8
  | .clientToServer => 0
  | .serverToClient => 1

inductive FrameKind
  | cover
  | payload
  deriving DecidableEq, Repr

def FrameKind.toByte : FrameKind → UInt8
  | .cover => 0
  | .payload => 1

inductive DecodedFrame
  | cover (profile : Profile)
  | payload (profile : Profile)
  deriving DecidableEq, Repr

structure MorphKey where
  bytes : Array32
  deriving DecidableEq

structure MorphCodec where
  key : MorphKey
  profile : Profile
  deriving DecidableEq

def currentEpoch (profile : Profile) (now : ClockReading) : Except MorphError UInt64 :=
  match now with
  | none => .error .clock
  | some seconds => .ok (seconds / profile.epochSeconds)

def acceptedEpochs (epoch : UInt64) : List UInt64 :=
  [saturatingSub epoch 1, epoch, saturatingAdd epoch 1]

variable (lib : Libraries)

def routingTagAt (key : MorphKey) (profile : Profile) (direction : Direction) (epoch : UInt64) :
    Bytes :=
  (lib.hmacSha256 key.bytes (ascii "MouseVPN MouseMorph v2 route" ++ [profile.toByte] ++
    [direction.toByte] ++ beBytes 8 epoch.toNat)).toList.take routingTagLen

def matchesRoutingTag (key : MorphKey) (profile : Profile) (direction : Direction)
    (epoch : UInt64) (route : Bytes) : Bool :=
  [epoch, saturatingSub epoch 1, saturatingAdd epoch 1].any fun candidate =>
    routingTagAt lib key profile direction candidate = route

def associatedData (route : Bytes) (direction : Direction) : Bytes := route ++ [direction.toByte]

def encodeFrame (key : MorphKey) (profile : Profile) (kind : FrameKind) (inner : Bytes)
    (direction : Direction) (now : ClockReading)
    (random : Except String (Vector UInt8 frameRandomLen)) : Except MorphError Bytes :=
  let minimum := minFrameLen + inner.length
  if inner.length > 65535 then .error (.frameTooLarge inner.length 65535)
  else if minimum > maxDatagramLen then .error (.frameTooLarge minimum maxDatagramLen)
  else
    match currentEpoch profile now with
    | .error e => .error e
    | .ok epoch =>
      let route := routingTagAt lib key profile direction epoch
      match random with
      | .error e => .error (.random e)
      | .ok random =>
        let nonce := random.toList.take nonceLen
        let choice := beNat ((random.toList.drop nonceLen).take 2)
        let paddingLen := min (choice % (maxRandomPadding + 1)) (maxDatagramLen - minimum)
        let header := [formatVersion, kind.toByte, profile.toByte, 0] ++ beBytes 2 inner.length
        let padding := (random.toList.drop (nonceLen + 2)).take paddingLen
        match lib.chachaEncrypt key.bytes nonce (associatedData route direction)
            (header ++ inner ++ padding) with
        | none => .error .encryption
        | some (ciphertext, authentication) => .ok (route ++ nonce ++ ciphertext ++ authentication)

def openFrame (expectedProfile : Profile) (output : Bytes) :
    Except MorphError (DecodedFrame × Bytes) :=
  if output.length < innerHeaderLen ∨ output.getD 0 0 ≠ formatVersion ∨ output.getD 3 0 ≠ 0 then
    .error .invalidFrame
  else
    match Profile.fromId (output.getD 2 0) with
    | .error e => .error e
    | .ok profile =>
      let innerLen := beNat ((output.drop 4).take 2)
      if profile ≠ expectedProfile then .error .invalidFrame
      else if innerHeaderLen + innerLen > output.length then .error .invalidFrame
      else if output.getD 1 0 = FrameKind.cover.toByte ∧ innerLen = 0 then .ok (.cover profile, [])
      else if output.getD 1 0 = FrameKind.payload.toByte then
        .ok (.payload profile, (output.drop innerHeaderLen).take innerLen)
      else .error .invalidFrame

def decodeFrame (key : MorphKey) (expectedProfile : Profile) (input : Bytes)
    (direction : Direction) (now : ClockReading) : Except MorphError (DecodedFrame × Bytes) :=
  if input.length < minFrameLen then .error (.truncated input.length minFrameLen)
  else if input.length > maxDatagramLen then .error (.frameTooLarge input.length maxDatagramLen)
  else
    let route := input.take routingTagLen
    match currentEpoch expectedProfile now with
    | .error e => .error e
    | .ok epoch =>
      if !matchesRoutingTag lib key expectedProfile direction epoch route then
        .error .unknownRoutingTag
      else
        let nonce := (input.drop routingTagLen).take nonceLen
        let ciphertextEnd := input.length - authTagLen
        match lib.chachaDecrypt key.bytes nonce (associatedData route direction)
            ((input.take ciphertextEnd).drop clearPrefixLen) (input.drop ciphertextEnd) with
        | none => .error .authentication
        | some output => openFrame expectedProfile output

namespace MorphCodec

def encodePayload (codec : MorphCodec) (inner : Bytes) (direction : Direction)
    (now : ClockReading) (random : Except String (Vector UInt8 frameRandomLen)) :
    Except MorphError Bytes :=
  encodeFrame lib codec.key codec.profile .payload inner direction now random

def decode (codec : MorphCodec) (input : Bytes) (direction : Direction) (now : ClockReading) :
    Except MorphError (DecodedFrame × Bytes) :=
  decodeFrame lib codec.key codec.profile input direction now

end MorphCodec

end MouseVpn.Wire.Morph
