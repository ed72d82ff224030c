import MouseVpn.Crypto.Replay
import MouseVpn.Lib.RustStd

/-!
# Encrypted sessions

The transport of an established Noise session is a pair of keyed functions
supplied by the Noise library: sealing and opening one message under an
explicit nonce. Sessions add the message size limits and, on the receiving
side, the replay window, which is marked after the transport has accepted.
-/

namespace MouseVpn.Crypto

open MouseVpn.Lib

structure PublicKey where
  bytes : Vector UInt8 32
  deriving DecidableEq

inductive SnowError
  | pattern
  | init
  | prereq
  | state
  | input
  | dh
  | decrypt
  | rng
  deriving DecidableEq, Repr

inductive CryptoError
  | noise (error : SnowError)
  | invalidKeyLength (actual : ℕ)
  | messageTooLarge (actual maximum : ℕ)
  | invalidSharedSecret
  | missingPeerStaticKey
  | replay (error : ReplayError)
  deriving DecidableEq, Repr

theorem size_toArray {bytes : Bytes} (h : bytes.length = 32) : bytes.toArray.size = 32 := by
  simpa using h

def PublicKey.fromSlice (bytes : Bytes) : Except CryptoError PublicKey :=
  if h : bytes.length = 32 then .ok ⟨⟨bytes.toArray, size_toArray h⟩⟩
  else .error (.invalidKeyLength bytes.length)

def authTagLen : ℕ := 16

def maxNoiseMessageLen : ℕ := 65535

def maxPlaintextLen : ℕ := maxNoiseMessageLen - authTagLen

/-- A keyed stateless transport: nonce, message and output capacity to the
bytes written at the front of the output. -/
structure StatelessTransportState where
  writeMessage : UInt64 → Bytes → ℕ → Except SnowError Bytes
  readMessage : UInt64 → Bytes → ℕ → Except SnowError Bytes

/-- A transport with a nonce-dependent tag and no secrecy, on which the model
can be evaluated. Its lengths and refusals are those of the Noise library. -/
def clearTransport : StatelessTransportState where
  writeMessage nonce payload capacity :=
    if payload.length + authTagLen > capacity then .error .input
    else .ok (payload ++ List.replicate authTagLen (UInt8.ofNat nonce.toNat))
  readMessage nonce message capacity :=
    if message.length < authTagLen ∨ capacity < message.length - authTagLen then .error .decrypt
    else if message.drop (message.length - authTagLen) =
        List.replicate authTagLen (UInt8.ofNat nonce.toNat) then
      .ok (message.take (message.length - authTagLen))
    else .error .decrypt

theorem clearTransport_opens_sealed {nonce : UInt64} {plaintext ciphertext plaintext' : Bytes}
    {capacity capacity' : ℕ}
    (hw : clearTransport.writeMessage nonce plaintext capacity = .ok ciphertext)
    (hr : clearTransport.readMessage nonce ciphertext capacity' = .ok plaintext') :
    plaintext' = plaintext := by
  simp only [clearTransport] at hw hr
  split_ifs at hw
  cases hw
  split_ifs at hr
  simpa [eq_comm] using hr

def encryptInto (transport : StatelessTransportState) (sequence : UInt64) (plaintext : Bytes)
    (capacity : ℕ) : Except CryptoError Bytes :=
  if plaintext.length > maxPlaintextLen then
    .error (.messageTooLarge plaintext.length maxPlaintextLen)
  else
    match transport.writeMessage sequence plaintext capacity with
    | .error e => .error (.noise e)
    | .ok written => .ok written

def decryptInto (transport : StatelessTransportState) (window : ReplayWindow) (sequence : UInt64)
    (ciphertext : Bytes) (capacity : ℕ) : ReplayWindow × Except CryptoError Bytes :=
  if ciphertext.length > maxNoiseMessageLen then
    (window, .error (.messageTooLarge ciphertext.length maxNoiseMessageLen))
  else
    match window.ensureAcceptable sequence with
    | .error e => (window, .error (.replay e))
    | .ok () =>
      match transport.readMessage sequence ciphertext capacity with
      | .error e => (window, .error (.noise e))
      | .ok written => (window.markAuthenticated sequence, .ok written)

structure SendHalf where
  transport : StatelessTransportState
  peerStaticKey : PublicKey

structure ReceiveHalf where
  transport : StatelessTransportState
  receiveWindow : ReplayWindow
  peerStaticKey : PublicKey

structure SecureSession where
  transport : StatelessTransportState
  receiveWindow : ReplayWindow
  peerStaticKey : PublicKey

def SendHalf.encryptInto (s : SendHalf) (sequence : UInt64) (plaintext : Bytes) (capacity : ℕ) :
    Except CryptoError Bytes :=
  Crypto.encryptInto s.transport sequence plaintext capacity

def ReceiveHalf.decryptInto (r : ReceiveHalf) (sequence : UInt64) (ciphertext : Bytes)
    (capacity : ℕ) : ReceiveHalf × Except CryptoError Bytes :=
  let (window, result) :=
    Crypto.decryptInto r.transport r.receiveWindow sequence ciphertext capacity
  ({ r with receiveWindow := window }, result)

namespace SecureSession

def new (transport : StatelessTransportState) (peerStaticKey : PublicKey) : SecureSession :=
  ⟨transport, ReplayWindow.default, peerStaticKey⟩

def split (s : SecureSession) : SendHalf × ReceiveHalf :=
  (⟨s.transport, s.peerStaticKey⟩, ⟨s.transport, s.receiveWindow, s.peerStaticKey⟩)

def encrypt (s : SecureSession) (sequence : UInt64) (plaintext : Bytes) :
    Except CryptoError Bytes :=
  Crypto.encryptInto s.transport sequence plaintext (plaintext.length + authTagLen)

def decrypt (s : SecureSession) (sequence : UInt64) (ciphertext : Bytes) :
    SecureSession × Except CryptoError Bytes :=
  let (window, result) :=
    Crypto.decryptInto s.transport s.receiveWindow sequence ciphertext ciphertext.length
  ({ s with receiveWindow := window }, result)

end SecureSession

/-- The payload opens under this sequence in this receiver state: it is within
the size limit, its sequence is acceptable and the transport authenticates it. -/
def Opens (transport : StatelessTransportState) (window : ReplayWindow) (sequence : UInt64)
    (ciphertext : Bytes) (capacity : ℕ) (plaintext : Bytes) : Prop :=
  ciphertext.length ≤ maxNoiseMessageLen ∧ window.ensureAcceptable sequence = .ok () ∧
    transport.readMessage sequence ciphertext capacity = .ok plaintext

theorem decryptInto_of_opens {transport : StatelessTransportState} {window : ReplayWindow}
    {sequence : UInt64} {ciphertext : Bytes} {capacity : ℕ} {plaintext : Bytes}
    (h : Opens transport window sequence ciphertext capacity plaintext) :
    decryptInto transport window sequence ciphertext capacity =
      (window.markAuthenticated sequence, .ok plaintext) := by
  obtain ⟨hl, hw, hr⟩ := h
  simp only [decryptInto, if_neg (Nat.not_lt.mpr hl), hw, hr]

theorem decryptInto_cases (transport : StatelessTransportState) (window : ReplayWindow)
    (sequence : UInt64) (ciphertext : Bytes) (capacity : ℕ) :
    (∃ plaintext, Opens transport window sequence ciphertext capacity plaintext ∧
      decryptInto transport window sequence ciphertext capacity =
        (window.markAuthenticated sequence, .ok plaintext)) ∨
    ((∀ plaintext, ¬ Opens transport window sequence ciphertext capacity plaintext) ∧
      ∃ e, decryptInto transport window sequence ciphertext capacity = (window, .error e)) := by
  by_cases hl : ciphertext.length > maxNoiseMessageLen
  · refine Or.inr ⟨fun p hp => absurd hp.1 (Nat.not_le.mpr hl),
      .messageTooLarge ciphertext.length maxNoiseMessageLen, ?_⟩
    simp only [decryptInto, if_pos hl]
  · cases hw : window.ensureAcceptable sequence with
    | error e =>
      refine Or.inr ⟨fun p hp => by simp [Opens, hw] at hp, .replay e, ?_⟩
      simp only [decryptInto, if_neg hl, hw]
    | ok u =>
      cases hr : transport.readMessage sequence ciphertext capacity with
      | error e =>
        refine Or.inr ⟨fun p hp => by simp [Opens, hr] at hp, .noise e, ?_⟩
        simp only [decryptInto, if_neg hl, hw, hr]
      | ok plaintext =>
        have ho : Opens transport window sequence ciphertext capacity plaintext :=
          ⟨Nat.not_lt.mp hl, hw, hr⟩
        exact Or.inl ⟨plaintext, ho, decryptInto_of_opens ho⟩

theorem encryptInto_ok_iff {transport : StatelessTransportState} {sequence : UInt64}
    {plaintext : Bytes} {capacity : ℕ} {ciphertext : Bytes} :
    encryptInto transport sequence plaintext capacity = .ok ciphertext ↔
      plaintext.length ≤ maxPlaintextLen ∧
        transport.writeMessage sequence plaintext capacity = .ok ciphertext := by
  unfold encryptInto
  by_cases hl : plaintext.length > maxPlaintextLen
  · simp [if_pos hl, Nat.not_le.mpr hl]
  · rw [if_neg hl]
    cases hw : transport.writeMessage sequence plaintext capacity <;>
      simp [Nat.not_lt.mp hl]

end MouseVpn.Crypto
