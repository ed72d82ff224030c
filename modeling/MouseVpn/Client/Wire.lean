import MouseVpn.Server.Registry
import MouseVpn.Wire.MorphRoundTrip
import MouseVpn.Wire.SpeedyFrames

/-!
# The client's side of the wire

The protocol of a client configuration selects one of the three wire forms; the
key of a masked form is derived from the client's static key and the server's.
-/

namespace MouseVpn.Client

open MouseVpn.Lib MouseVpn.Crypto MouseVpn.Server MouseVpn.Wire
open MouseVpn.Wire.Morph (MorphCodec MorphError MorphKey Profile)
open MouseVpn.Wire.Speedy (SpeedyCodec SpeedyError)

def maxWireDatagramLen : ℕ := Morph.maxDatagramLen

inductive ClientProtocol
  | legacy
  | morphQuiet
  | morphBalanced
  | morphParanoid
  | speedy
  deriving DecidableEq, Repr

def ClientProtocol.morphProfile : ClientProtocol → Option Profile
  | .legacy | .speedy => none
  | .morphQuiet => some .quiet
  | .morphBalanced => some .balanced
  | .morphParanoid => some .paranoid

structure ValidatedClientConfig where
  serverPublicKey : PublicKey
  clientPrivateKey : SecretKey
  context : ProtocolContext
  protocol : ClientProtocol

inductive ClientWireError
  | crypto (error : CryptoError)
  | morph (error : MorphError)
  | speedy (error : SpeedyError)
  deriving DecidableEq

inductive ClientWire
  | legacy
  | morph (codec : MorphCodec)
  | speedy (codec : SpeedyCodec)
  deriving DecidableEq

namespace ClientWire

variable (lib : Libraries)

def fromConfig (config : ValidatedClientConfig) : Except ClientWireError ClientWire :=
  if config.protocol = .speedy then
    match deriveSpeedyKey lib config.clientPrivateKey config.serverPublicKey
        config.serverPublicKey (config.clientPrivateKey.publicKey lib) with
    | .error e => .error (.crypto e)
    | .ok key => .ok (.speedy (SpeedyCodec.new lib ⟨key⟩))
  else
    match config.protocol.morphProfile with
    | none => .ok .legacy
    | some profile =>
      let clientPublicKey := config.clientPrivateKey.publicKey lib
      match deriveMorphKey lib config.clientPrivateKey config.serverPublicKey
          config.serverPublicKey clientPublicKey with
      | .error e => .error (.crypto e)
      | .ok key => .ok (.morph ⟨⟨key⟩, profile⟩)

/-- `calls` are the earlier calls on a Speedy codec and its clones, which share a cache. -/
def encodeInto (wire : ClientWire) (calls : List SpeedyCodec.Call) (inner : Bytes)
    (now : ClockReading) (random : Except String (Vector UInt8 Morph.frameRandomLen))
    (output : Bytes) : Bytes × Except ClientWireError Unit :=
  match wire with
  | .speedy codec =>
    match (codec.encodeInto lib (codec.cacheAfter lib calls) inner .clientToServer now
        output).2 with
    | (output, .error e) => (output, .error (.speedy e))
    | (output, .ok ()) => (output, .ok ())
  | .legacy => (Vec.clear output ++ inner, .ok ())
  | .morph codec =>
    match codec.encodePayloadInto lib inner .clientToServer now random output with
    | (output, .error e) => (output, .error (.morph e))
    | (output, .ok ()) => (output, .ok ())

def decodeInto (wire : ClientWire) (calls : List SpeedyCodec.Call) (outer : Bytes)
    (now : ClockReading) (output : Bytes) : Bytes × Except ClientWireError Bool :=
  match wire with
  | .speedy codec =>
    match (codec.decodeInto lib (codec.cacheAfter lib calls) outer .serverToClient now
        output).2 with
    | (output, .error e) => (output, .error (.speedy e))
    | (output, .ok ()) => (output, .ok true)
  | .legacy => (Vec.clear output ++ outer, .ok true)
  | .morph codec =>
    match codec.decodeInto lib outer .serverToClient now output with
    | (output, .error e) => (output, .error (.morph e))
    | (output, .ok (.payload _)) => (output, .ok true)
    | (output, .ok (.cover _)) => (output, .ok false)

def encodeCoverInto (wire : ClientWire) (now : ClockReading)
    (random : Except String (Vector UInt8 Morph.frameRandomLen)) (output : Bytes) :
    Bytes × Except ClientWireError Unit :=
  match wire with
  | .legacy | .speedy _ => (Vec.clear output, .ok ())
  | .morph codec =>
    match codec.encodeCoverInto lib .clientToServer now random output with
    | (output, .error e) => (output, .error (.morph e))
    | (output, .ok ()) => (output, .ok ())

end ClientWire

end MouseVpn.Client
