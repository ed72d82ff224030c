import MouseVpn.Crypto.Session

/-!
# Library functions under the protocol

Noise handshakes, hashes, the key agreement, the AEAD of the wire envelope and
the text form of keys come from libraries. The model is written over a value of
`Libraries`; what a result needs of a library is a hypothesis of that result.
-/

namespace MouseVpn.Crypto

open MouseVpn.Lib

abbrev Array32 := Vector UInt8 32

/-- The handshake interface of the Noise library for the one pattern in use. The
key generation inside `writeMessage` takes its randomness from `entropy`. -/
structure Snow where
  HandshakeState : Type
  buildInitiator : (localPrivateKey remotePublicKey prologue : Bytes) →
    Except SnowError HandshakeState
  buildResponder : (localPrivateKey prologue : Bytes) → Except SnowError HandshakeState
  writeMessage : HandshakeState → (entropy payload : Bytes) → (capacity : ℕ) →
    Except SnowError (HandshakeState × Bytes)
  readMessage : HandshakeState → (message : Bytes) → (capacity : ℕ) →
    Except SnowError (HandshakeState × Bytes)
  getRemoteStatic : HandshakeState → Option Bytes
  intoStatelessTransportMode : HandshakeState → Except SnowError StatelessTransportState

structure Libraries where
  snow : Snow
  sha256 : Bytes → Array32
  hmacSha256 : Array32 → Bytes → Array32
  hkdfExtract : (salt ikm : Bytes) → Array32
  hkdfExpand : Array32 → (info : Bytes) → Array32
  x25519 : Array32 → Array32 → Array32
  blake3KeyedHash : Array32 → Bytes → Array32
  /-- `encrypt_in_place_detached`: the ciphertext and its tag. -/
  chachaEncrypt : Array32 → (nonce aad plaintext : Bytes) → Option (Bytes × Bytes)
  chachaDecrypt : Array32 → (nonce aad ciphertext tag : Bytes) → Option Bytes
  base64Encode : Bytes → String
  base64Decode : String → Option Bytes

def ascii (s : String) : Bytes := s.toUTF8.toList

/-- A Noise library without secrecy: the first message is the prologue, the
initiator's static key and the payload in clear. -/
def clearSnow : Snow where
  HandshakeState := Bytes × Option Bytes
  buildInitiator _ remotePublicKey prologue := .ok (prologue, some remotePublicKey)
  buildResponder _ prologue := .ok (prologue, none)
  writeMessage state _ payload capacity :=
    if capacity < payload.length then .error .input else .ok (state, payload)
  readMessage state message _ :=
    if message.take 32 = state.1 ∧ 64 ≤ message.length then
      .ok ((state.1, some ((message.drop 32).take 32)), message.drop 64)
    else .error .decrypt
  getRemoteStatic state := state.2
  intoStatelessTransportMode _ := .ok clearTransport

def checksum (bytes : Bytes) : Array32 :=
  let h := bytes.foldl (fun h b => h * 31 + b.toNat + 1) 7
  Vector.ofFn fun i : Fin 32 => UInt8.ofNat (h / 2 ^ i.val)

def clearLibraries : Libraries where
  snow := clearSnow
  sha256 := checksum
  hmacSha256 key message := checksum (key.toList ++ message)
  hkdfExtract salt ikm := checksum (salt ++ ikm)
  hkdfExpand key info := checksum (key.toList ++ info)
  x25519 secret point := Vector.ofFn fun i : Fin 32 => secret.get i ^^^ point.get i
  blake3KeyedHash key message := checksum (key.toList ++ message)
  chachaEncrypt key nonce aad plaintext :=
    some (plaintext, ((checksum (key.toList ++ nonce ++ aad ++ plaintext)).toList).take 16)
  chachaDecrypt key nonce aad ciphertext tag :=
    if tag = ((checksum (key.toList ++ nonce ++ aad ++ ciphertext)).toList).take 16 then
      some ciphertext
    else none
  base64Encode bytes := String.ofList (bytes.map fun b => Char.ofNat b.toNat)
  base64Decode text := some (text.toList.map fun c => UInt8.ofNat c.toNat)

end MouseVpn.Crypto
