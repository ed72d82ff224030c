import MouseVpn.Client.Wire
import MouseVpn.DataPlane.Tunnel
import MouseVpn.Protocol.SessionParameters
import MouseVpn.Wire.MorphReference

/-!
# Connection attempts of the clients

The three clients run one loop: they send the first Noise message, repeat it while no answer comes,
and hand the first datagram that looks like the answer to the handshake. They differ in the I/O
errors they bear, in the errors they report, and in what an answer that fails authentication does:
it ends the attempt on Android and Windows, while the Linux client starts a new one.
-/

namespace MouseVpn.Client

open MouseVpn.Lib MouseVpn.Crypto MouseVpn.DataPlane MouseVpn.Protocol MouseVpn.Wire
open MouseVpn.Wire.Morph (MorphError Profile)
open MouseVpn.Wire.Morph.Reference (randomInclusive)
open MouseVpn.Wire.Speedy (SpeedyCodec)

/-- The kinds of `std::io::ErrorKind` that some client tells apart. -/
inductive ErrorKind
  | timedOut
  | wouldBlock
  | interrupted
  | connectionRefused
  | connectionReset
  | connectionAborted
  | notConnected
  | hostUnreachable
  | networkUnreachable
  | networkDown
  | brokenPipe
  | other
  deriving DecidableEq, Repr

structure IoError where
  kind : ErrorKind
  rawOsError : Option ℤ
  deriving DecidableEq, Repr

def enomem : ℤ := 12

def enobufs : ℤ := 105

/-- `is_retryable` of the Android and of the Windows client. -/
def isRetryable (error : IoError) : Bool :=
  error.kind ∈ [ErrorKind.timedOut, .wouldBlock, .interrupted, .connectionRefused,
    .connectionReset, .notConnected]

namespace Linux

def isPeerUnavailable (error : IoError) : Bool :=
  error.kind ∈ [ErrorKind.connectionRefused, .connectionReset, .connectionAborted, .notConnected,
    .hostUnreachable, .networkUnreachable, .networkDown, .brokenPipe]

def isRetryableNetwork (error : IoError) : Bool :=
  error.kind ∈ [ErrorKind.interrupted, .wouldBlock, .timedOut] ||
    error.rawOsError ∈ [some enobufs, some enomem] || isPeerUnavailable error

end Linux

/-- The errors of the three clients; `message` is an `anyhow!` text. -/
inductive NegotiationError
  | random (error : String)
  | crypto (error : CryptoError)
  | wire (error : ClientWireError)
  | io (error : IoError)
  | parameters (error : SessionParametersError)
  | handshakeTimeout
  | invalidHandshakeResponse
  | message (text : String)
  deriving DecidableEq

/-- What the clients do differently. `cancelled` is the error on a raised stop flag, if the
loop has one to look at. -/
structure Variant where
  isRetryable : IoError → Bool
  cancelled : Option NegotiationError
  timedOut : NegotiationError
  unauthenticated : CryptoError → NegotiationError

/-- The Android client gets its stop flag only from `negotiate_interruptible`. -/
def Android.variant (interruptible : Bool) : Variant where
  isRetryable := isRetryable
  cancelled := if interruptible then some (.message "handshake cancelled") else none
  timedOut := .message "handshake timed out"
  unauthenticated := .crypto

def Windows.variant : Variant where
  isRetryable := isRetryable
  cancelled := none
  timedOut := .handshakeTimeout
  unauthenticated _ := .handshakeTimeout

def Linux.variant : Variant where
  isRetryable := Linux.isRetryableNetwork
  cancelled := none
  timedOut := .handshakeTimeout
  unauthenticated _ := .invalidHandshakeResponse

def handshakeTimeout : ℕ := 10 * 10 ^ 9

def handshakeRetransmit : ℕ := 700 * 10 ^ 6

def Profile.coverCount (draw : Except String (Vector UInt8 2)) : Profile → Except MorphError ℕ
  | .quiet => .ok 0
  | .balanced => randomInclusive 1 2 draw
  | .paranoid => randomInclusive 3 5 draw

def Profile.handshakeJitterMs (draw : Except String (Vector UInt8 2)) :
    Profile → Except MorphError ℕ
  | .quiet => .ok 0
  | .balanced => randomInclusive 1 4 draw
  | .paranoid => randomInclusive 2 12 draw

namespace ClientWire

def coverCount (wire : ClientWire) (draw : Except String (Vector UInt8 2)) :
    Except ClientWireError ℕ :=
  match wire with
  | .legacy | .speedy _ => .ok 0
  | .morph codec => (Profile.coverCount draw codec.profile).mapError .morph

def handshakeJitterMs (wire : ClientWire) (draw : Except String (Vector UInt8 2)) :
    Except ClientWireError ℕ :=
  match wire with
  | .legacy | .speedy _ => .ok 0
  | .morph codec => (Profile.handshakeJitterMs draw codec.profile).mapError .morph

end ClientWire

structure WireInput where
  calls : List SpeedyCodec.Call
  clock : ClockReading
  random : Except String (Vector UInt8 Morph.frameRandomLen)

structure Cover where
  input : WireInput
  sent : Except IoError Unit
  jitter : Except String (Vector UInt8 2)

/-- One pass through the loop. The fields `encoding` and `sent` count when the request is due
again; the read timeout that the socket is given decides whether it takes it. -/
structure Turn where
  stopping : Bool
  now : ℕ
  encoding : WireInput
  sent : Except IoError Unit
  setReadTimeout : ℕ → Except IoError Unit
  received : Except IoError Bytes
  decoding : WireInput

structure Attempt where
  sessionBytes : Except String (Vector UInt8 8)
  entropy : Bytes
  started : ℕ
  coverDraw : Except String (Vector UInt8 2)
  cover : ℕ → Cover
  encoding : WireInput
  sent : Except IoError Unit
  turns : List Turn

abbrev Session := TunnelDataPlane × SessionParameters

structure Initiation (lib : Libraries) where
  sessionId : UInt64
  handshake : ClientHandshake lib
  request : Bytes

structure Exchange where
  nextRetransmit : ℕ
  encodedRequest : Bytes
  decoded : Bytes

section Attempt

variable (lib : Libraries) (v : Variant) (wire : ClientWire)

def prepare (config : ValidatedClientConfig) (attempt : Attempt) :
    Except NegotiationError (Initiation lib) := do
  let bytes ← attempt.sessionBytes.mapError .random
  let sessionId := UInt64.ofNat (BigEndian.beNat bytes.toList)
  let handshake ← (ClientHandshake.new lib config.clientPrivateKey config.serverPublicKey
    config.context).mapError .crypto
  let (handshake, initial) ← (handshake.writeInitial attempt.entropy []).mapError .crypto
  let header : Header := { kind := .handshakeInit, flags := 0, sessionId, sequence := 0 }
  return { sessionId, handshake, request := Datagram.encode ⟨header, initial⟩ }

def sendRequest (request : Bytes) (input : WireInput) (sent : Except IoError Unit)
    (encoded : Bytes) : Bytes × Except NegotiationError Unit :=
  match wire.encodeInto lib input.calls request input.clock input.random encoded with
  | (encoded, .error e) => (encoded, .error (.wire e))
  | (encoded, .ok ()) =>
    match sent with
    | .ok () => (encoded, .ok ())
    | .error e => if v.isRetryable e then (encoded, .ok ()) else (encoded, .error (.io e))

def sendCovers : List Cover → Bytes → Except NegotiationError Unit
  | [], _ => .ok ()
  | c :: covers, cover =>
    match wire.encodeCoverInto lib c.input.clock c.input.random cover with
    | (_, .error e) => .error (.wire e)
    | (cover, .ok ()) =>
      match c.sent with
      | .error e => .error (.io e)
      | .ok () =>
        match wire.handshakeJitterMs c.jitter with
        | .error e => .error (.wire e)
        | .ok _ => sendCovers covers cover

def sendPrelude (attempt : Attempt) : Except NegotiationError Unit :=
  match wire.coverCount attempt.coverDraw with
  | .error e => .error (.wire e)
  | .ok count => sendCovers lib wire ((List.range count).map attempt.cover) []

def readResponse (sessionId : UInt64) (input : WireInput) (datagram decoded : Bytes) :
    Bytes × Option Bytes :=
  match wire.decodeInto lib input.calls datagram input.clock decoded with
  | (decoded, .ok true) =>
    match Datagram.decode decoded with
    | .error _ => (decoded, none)
    | .ok response =>
      if response.header.kind ≠ .handshakeResponse ∨ response.header.sessionId ≠ sessionId then
        (decoded, none)
      else (decoded, some response.payload)
  | (decoded, _) => (decoded, none)

variable {lib}

def finishResponse (i : Initiation lib) (response : Bytes) : Except NegotiationError Session := do
  let (crypto, payload) ← (i.handshake.finish response).mapError v.unauthenticated
  let parameters ← (SessionParameters.decode payload).mapError .parameters
  return (TunnelDataPlane.new i.sessionId parameters.mtu.toNat crypto, parameters)

def retransmit (i : Initiation lib) (x : Exchange) (t : Turn) :
    Exchange × Except NegotiationError Unit :=
  if t.now ≥ x.nextRetransmit then
    match sendRequest lib v wire i.request t.encoding t.sent x.encodedRequest with
    | (encodedRequest, .error e) => ({ x with encodedRequest }, .error e)
    | (encodedRequest, .ok ()) =>
      ({ x with encodedRequest, nextRetransmit := t.now + handshakeRetransmit }, .ok ())
  else (x, .ok ())

def readTimeout (deadline : ℕ) (x : Exchange) (t : Turn) : ℕ :=
  max (min x.nextRetransmit deadline - t.now) (10 ^ 6)

/-- A pass through the loop up to the call of `receive`. -/
def awaitDatagram (i : Initiation lib) (deadline : ℕ) (x : Exchange) (t : Turn) :
    Exchange × Except NegotiationError Unit :=
  match if t.stopping then v.cancelled else none with
  | some e => (x, .error e)
  | none =>
    if t.now ≥ deadline then (x, .error v.timedOut)
    else
      match retransmit v wire i x t with
      | (x, .error e) => (x, .error e)
      | (x, .ok ()) =>
        match t.setReadTimeout (readTimeout deadline x t) with
        | .error e => (x, .error (.io e))
        | .ok () => (x, .ok ())

def loopPass (i : Initiation lib) (deadline : ℕ) (x : Exchange) (t : Turn) :
    Exchange × Option (Except NegotiationError Session) :=
  match awaitDatagram v wire i deadline x t with
  | (x, .error e) => (x, some (.error e))
  | (x, .ok ()) =>
    match t.received with
    | .error e => if v.isRetryable e then (x, none) else (x, some (.error (.io e)))
    | .ok datagram =>
      match readResponse lib wire i.sessionId t.decoding datagram x.decoded with
      | (decoded, none) => ({ x with decoded }, none)
      | (decoded, some response) => ({ x with decoded }, some (finishResponse v i response))

/-- What follows the reading of `started`; nothing is returned while the loop still runs. -/
def converse (i : Initiation lib) (deadline : ℕ) (attempt : Attempt) :
    Option (Except NegotiationError Session) :=
  match sendPrelude lib wire attempt with
  | .error e => some (.error e)
  | .ok () =>
    match sendRequest lib v wire i.request attempt.encoding attempt.sent [] with
    | (_, .error e) => some (.error e)
    | (encodedRequest, .ok ()) =>
      let nextRetransmit := attempt.started + handshakeRetransmit
      Machine.returned (loopPass v wire i deadline)
        { nextRetransmit, encodedRequest, decoded := [] } attempt.turns

end Attempt

section Clients

variable (lib : Libraries) (config : ValidatedClientConfig) (wire : ClientWire)

def Android.renegotiate (interruptible : Bool) (attempt : Attempt) :
    Option (Except NegotiationError Session) :=
  match prepare lib config attempt with
  | .error e => some (.error e)
  | .ok i =>
    converse (Android.variant interruptible) wire i (attempt.started + handshakeTimeout) attempt

def Windows.negotiate (attempt : Attempt) : Option (Except NegotiationError Session) :=
  match prepare lib config attempt with
  | .error e => some (.error e)
  | .ok i => converse Windows.variant wire i (attempt.started + handshakeTimeout) attempt

namespace Linux

def negotiateAttempt (deadline : ℕ) (attempt : Attempt) :
    Option (Except NegotiationError Session) :=
  match prepare lib config attempt with
  | .error e => some (.error e)
  | .ok i =>
    if attempt.started ≥ deadline then some (.error .handshakeTimeout)
    else converse Linux.variant wire i deadline attempt

def negotiateUntil (deadline : ℕ) : List (Attempt × ℕ) → Option (Except NegotiationError Session)
  | [] => none
  | (attempt, now) :: attempts =>
    match negotiateAttempt lib config wire deadline attempt with
    | some (.error .invalidHandshakeResponse) =>
      if now < deadline then negotiateUntil deadline attempts
      else some (.error .invalidHandshakeResponse)
    | result => result

def negotiate (begun : ℕ) (attempts : List (Attempt × ℕ)) :
    Option (Except NegotiationError Session) :=
  negotiateUntil lib config wire (begun + handshakeTimeout) attempts

end Linux

end Clients

end MouseVpn.Client
