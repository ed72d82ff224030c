import MouseVpn.Crypto.Libraries

/-!
# Keys, contexts and handshakes

Static keys and the wire keys derived from them, the context that separates
deployments and modes, and the two sides of a Noise IK handshake.
-/

namespace MouseVpn.Crypto

open MouseVpn.Lib

structure SecretKey where
  bytes : Array32
  deriving DecidableEq

structure KeyPair where
  secret : SecretKey
  publicKey : PublicKey

def x25519BasepointBytes : Array32 := Vector.ofFn fun i => if i = 0 then 9 else 0

def SecretKey.publicKey (lib : Libraries) (secret : SecretKey) : PublicKey :=
  ⟨lib.x25519 secret.bytes x25519BasepointBytes⟩

def deriveWireKey (lib : Libraries) (localSecretKey : SecretKey)
    (peerPublicKey serverPublicKey clientPublicKey : PublicKey) (label : Bytes) :
    Except CryptoError Array32 :=
  let shared := lib.x25519 localSecretKey.bytes peerPublicKey.bytes
  if shared = Vector.replicate 32 0 then .error .invalidSharedSecret
  else
    let info := serverPublicKey.bytes.toList ++ clientPublicKey.bytes.toList
    .ok (lib.hkdfExpand (lib.hkdfExtract label shared.toList) info)

def deriveMorphKey (lib : Libraries) (localSecretKey : SecretKey)
    (peerPublicKey serverPublicKey clientPublicKey : PublicKey) : Except CryptoError Array32 :=
  deriveWireKey lib localSecretKey peerPublicKey serverPublicKey clientPublicKey
    (ascii "MouseVPN MouseMorph v2 key")

def deriveSpeedyKey (lib : Libraries) (localSecretKey : SecretKey)
    (peerPublicKey serverPublicKey clientPublicKey : PublicKey) : Except CryptoError Array32 :=
  deriveWireKey lib localSecretKey peerPublicKey serverPublicKey clientPublicKey
    (ascii "MouseVPN Speedy v1 key")

structure ProtocolContext where
  bytes : Array32
  deriving DecidableEq

namespace ProtocolContext

def forSpeedyServer (lib : Libraries) (serverPublicKey : PublicKey) : ProtocolContext :=
  ⟨lib.sha256 (ascii "MouseVPN Speedy v1 context\x00" ++ serverPublicKey.bytes.toList)⟩

def forServer (lib : Libraries) (serverPublicKey : PublicKey) : ProtocolContext :=
  ⟨lib.sha256 (ascii "MouseVPN deployment context v1\x00" ++ serverPublicKey.bytes.toList)⟩

end ProtocolContext

variable {lib : Libraries}

/-- The peer's key as `finish` reads it: absence is an error. -/
def peerStaticKey (state : lib.snow.HandshakeState) : Except CryptoError PublicKey :=
  match lib.snow.getRemoteStatic state with
  | none => .error .missingPeerStaticKey
  | some bytes => PublicKey.fromSlice bytes

def writeHandshakeMessage (state : lib.snow.HandshakeState) (entropy payload : Bytes) :
    Except CryptoError (lib.snow.HandshakeState × Bytes) :=
  match lib.snow.writeMessage state entropy payload maxNoiseMessageLen with
  | .error e => .error (.noise e)
  | .ok written => .ok written

def readHandshakeMessage (state : lib.snow.HandshakeState) (message : Bytes) :
    Except CryptoError (lib.snow.HandshakeState × Bytes) :=
  if message.length > maxNoiseMessageLen then
    .error (.messageTooLarge message.length maxNoiseMessageLen)
  else
    match lib.snow.readMessage state message message.length with
    | .error e => .error (.noise e)
    | .ok read => .ok read

def intoSession (state : lib.snow.HandshakeState) (peer : PublicKey) (message : Bytes) :
    Except CryptoError (SecureSession × Bytes) :=
  match lib.snow.intoStatelessTransportMode state with
  | .error e => .error (.noise e)
  | .ok transport => .ok (SecureSession.new transport peer, message)

structure ClientHandshake (lib : Libraries) where
  state : lib.snow.HandshakeState

namespace ClientHandshake

def new (lib : Libraries) (clientSecretKey : SecretKey) (serverPublicKey : PublicKey)
    (context : ProtocolContext) : Except CryptoError (ClientHandshake lib) :=
  match lib.snow.buildInitiator clientSecretKey.bytes.toList serverPublicKey.bytes.toList
      context.bytes.toList with
  | .error e => .error (.noise e)
  | .ok state => .ok ⟨state⟩

def writeInitial (h : ClientHandshake lib) (entropy payload : Bytes) :
    Except CryptoError (ClientHandshake lib × Bytes) := do
  let (state, message) ← writeHandshakeMessage h.state entropy payload
  return (⟨state⟩, message)

def finish (h : ClientHandshake lib) (response : Bytes) :
    Except CryptoError (SecureSession × Bytes) := do
  let (state, payload) ← readHandshakeMessage h.state response
  let peer ← Crypto.peerStaticKey state
  intoSession state peer payload

end ClientHandshake

structure ServerHandshake (lib : Libraries) where
  state : lib.snow.HandshakeState

namespace ServerHandshake

def new (lib : Libraries) (serverSecretKey : SecretKey) (context : ProtocolContext) :
    Except CryptoError (ServerHandshake lib) :=
  match lib.snow.buildResponder serverSecretKey.bytes.toList context.bytes.toList with
  | .error e => .error (.noise e)
  | .ok state => .ok ⟨state⟩

def readInitial (h : ServerHandshake lib) (message : Bytes) :
    Except CryptoError (ServerHandshake lib × Bytes) := do
  let (state, payload) ← readHandshakeMessage h.state message
  return (⟨state⟩, payload)

def peerStaticKey (h : ServerHandshake lib) : Option PublicKey :=
  (lib.snow.getRemoteStatic h.state).bind fun bytes => (PublicKey.fromSlice bytes).toOption

def finish (h : ServerHandshake lib) (entropy payload : Bytes) :
    Except CryptoError (SecureSession × Bytes) := do
  let peer ← Crypto.peerStaticKey h.state
  let (state, response) ← writeHandshakeMessage h.state entropy payload
  intoSession state peer response

theorem finish_ok {h : ServerHandshake lib} {entropy payload response : Bytes}
    {crypto : SecureSession} (hf : h.finish entropy payload = .ok (crypto, response)) :
    crypto.receiveWindow = ReplayWindow.default ∧
      h.peerStaticKey = some crypto.peerStaticKey := by
  unfold finish at hf
  obtain ⟨key, hk, hf⟩ := bind_eq_ok.mp hf
  obtain ⟨⟨state, message⟩, -, hf⟩ := bind_eq_ok.mp hf
  have hkey : h.peerStaticKey = some key := by
    unfold Crypto.peerStaticKey at hk
    unfold peerStaticKey
    cases hg : lib.snow.getRemoteStatic h.state with
    | none => simp [hg] at hk
    | some bytes =>
      simp only [hg] at hk
      simp [hk, Except.toOption]
  cases ht : lib.snow.intoStatelessTransportMode state with
  | error e => simp [intoSession, ht] at hf
  | ok transport =>
    simp only [intoSession, ht, Except.ok.injEq, Prod.mk.injEq] at hf
    rw [← hf.1]
    exact ⟨rfl, hkey⟩

end ServerHandshake

end MouseVpn.Crypto
