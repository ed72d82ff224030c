import MouseVpn.Wire.Morph

/-!
# What the MouseMorph codec accepts

The codec with the caller's output buffer, and the set of frames that it opens:
the right length, an accepted tag, an authentic ciphertext and a well-formed inner
header.
-/

namespace MouseVpn.Wire.Morph

open MouseVpn.Lib MouseVpn.Lib.BigEndian MouseVpn.Crypto

/-- ChaCha20-Poly1305 as an ideal AEAD: it seals every message of this size, keeps its
length, and opens what it sealed and nothing else. -/
structure IdealAead (lib : Libraries) : Prop where
  seals : ∀ key nonce aad plaintext, nonce.length = nonceLen → plaintext.length ≤ maxDatagramLen →
    ∃ ciphertext tag, lib.chachaEncrypt key nonce aad plaintext = some (ciphertext, tag)
  lengths : ∀ {key nonce aad plaintext ciphertext tag},
    lib.chachaEncrypt key nonce aad plaintext = some (ciphertext, tag) →
    ciphertext.length = plaintext.length ∧ tag.length = authTagLen
  opens_iff : ∀ {key nonce aad plaintext ciphertext tag},
    lib.chachaDecrypt key nonce aad ciphertext tag = some plaintext ↔
      lib.chachaEncrypt key nonce aad plaintext = some (ciphertext, tag)

section Codec

variable (lib : Libraries)

/-- The last step of encoding: everything behind the clear part is encrypted in place
and the authentication tag is appended. -/
def sealInPlace (key : MorphKey) (route nonce : Bytes) (direction : Direction)
    (output : Bytes) : Bytes × Except MorphError Unit :=
  match lib.chachaEncrypt key.bytes nonce (associatedData route direction)
      (output.drop clearPrefixLen) with
  | none => (output, .error .encryption)
  | some (ciphertext, authentication) =>
    (output.take clearPrefixLen ++ ciphertext ++ authentication, .ok ())

def encodeFrameInto (key : MorphKey) (profile : Profile) (kind : FrameKind) (inner : Bytes)
    (direction : Direction) (now : ClockReading)
    (random : Except String (Vector UInt8 frameRandomLen)) (output : Bytes) :
    Bytes × Except MorphError Unit :=
  let minimum := minFrameLen + inner.length
  if inner.length > 65535 then (output, .error (.frameTooLarge inner.length 65535))
  else if minimum > maxDatagramLen then (output, .error (.frameTooLarge minimum maxDatagramLen))
  else
    match currentEpoch profile now with
    | .error e => (output, .error e)
    | .ok epoch =>
      let route := routingTagAt lib key profile direction epoch
      match random with
      | .error e => (output, .error (.random e))
      | .ok random =>
        let nonce := random.toList.take nonceLen
        let choice := beNat ((random.toList.drop nonceLen).take 2)
        let paddingLen := min (choice % (maxRandomPadding + 1)) (maxDatagramLen - minimum)
        let output := Vec.clear output ++ route ++ nonce
        let output := output ++ ([formatVersion, kind.toByte, profile.toByte, 0] ++
          beBytes 2 inner.length)
        let output := output ++ inner
        let output := output ++ (random.toList.drop (nonceLen + 2)).take paddingLen
        sealInPlace lib key route nonce direction output

/-- What follows the check of the routing tag: decryption into the buffer, and the inner
header. A buffer that fails authentication keeps the ciphertext. -/
def openInPlace (key : MorphKey) (expectedProfile : Profile) (input : Bytes)
    (direction : Direction) (output : Bytes) : Bytes × Except MorphError DecodedFrame :=
  let route := input.take routingTagLen
  let nonce := (input.drop routingTagLen).take nonceLen
  let ciphertextEnd := input.length - authTagLen
  let output := Vec.clear output ++ (input.take ciphertextEnd).drop clearPrefixLen
  match lib.chachaDecrypt key.bytes nonce (associatedData route direction) output
      (input.drop ciphertextEnd) with
  | none => (output, .error .authentication)
  | some output =>
    if output.length < innerHeaderLen ∨ output.getD 0 0 ≠ formatVersion ∨ output.getD 3 0 ≠ 0 then
      (output, .error .invalidFrame)
    else
      match Profile.fromId (output.getD 2 0) with
      | .error e => (output, .error e)
      | .ok profile =>
        if profile ≠ expectedProfile then (output, .error .invalidFrame)
        else
          let innerLen := beNat ((output.drop 4).take 2)
          if innerHeaderLen + innerLen > output.length then (output, .error .invalidFrame)
          else if output.getD 1 0 = FrameKind.cover.toByte ∧ innerLen = 0 then
            (Vec.clear output, .ok (.cover profile))
          else if output.getD 1 0 = FrameKind.payload.toByte then
            ((Vec.copyToFront output innerHeaderLen innerLen).take innerLen,
              .ok (.payload profile))
          else (output, .error .invalidFrame)

def decodeFrameInto (key : MorphKey) (expectedProfile : Profile) (input : Bytes)
    (direction : Direction) (now : ClockReading) (output : Bytes) :
    Bytes × Except MorphError DecodedFrame :=
  if input.length < minFrameLen then (output, .error (.truncated input.length minFrameLen))
  else if input.length > maxDatagramLen then
    (output, .error (.frameTooLarge input.length maxDatagramLen))
  else
    match currentEpoch expectedProfile now with
    | .error e => (output, .error e)
    | .ok epoch =>
      if !matchesRoutingTag lib key expectedProfile direction epoch (input.take routingTagLen) then
        (output, .error .unknownRoutingTag)
      else openInPlace lib key expectedProfile input direction output

namespace MorphCodec

def encodePayloadInto (codec : MorphCodec) (inner : Bytes) (direction : Direction)
    (now : ClockReading) (random : Except String (Vector UInt8 frameRandomLen)) (output : Bytes) :
    Bytes × Except MorphError Unit :=
  encodeFrameInto lib codec.key codec.profile .payload inner direction now random output

def encodeCoverInto (codec : MorphCodec) (direction : Direction) (now : ClockReading)
    (random : Except String (Vector UInt8 frameRandomLen)) (output : Bytes) :
    Bytes × Except MorphError Unit :=
  encodeFrameInto lib codec.key codec.profile .cover [] direction now random output

def decodeInto (codec : MorphCodec) (input : Bytes) (direction : Direction) (now : ClockReading)
    (output : Bytes) : Bytes × Except MorphError DecodedFrame :=
  decodeFrameInto lib codec.key codec.profile input direction now output

end MorphCodec

end Codec

section Buffers

variable {lib : Libraries}

@[simp] theorem routingTagAt_length (key : MorphKey) (profile : Profile) (direction : Direction)
    (epoch : UInt64) :
    (routingTagAt lib key profile direction epoch).length = routingTagLen := by
  simp [routingTagAt, routingTagLen]

@[simp] theorem nonce_length (random : Vector UInt8 frameRandomLen) :
    (random.toList.take nonceLen).length = nonceLen := by
  rw [List.length_take, Vector.length_toList]
  rfl

theorem padding_length (random : Vector UInt8 frameRandomLen) {n : ℕ}
    (h : n ≤ maxRandomPadding) :
    ((random.toList.drop (nonceLen + 2)).take n).length = n := by
  rw [List.length_take, List.length_drop, Vector.length_toList, frameRandomLen]
  omega

theorem encodeFrameInto_ok_iff {key : MorphKey} {profile : Profile} {kind : FrameKind}
    {inner frame : Bytes} {direction : Direction} {now : ClockReading}
    {random : Except String (Vector UInt8 frameRandomLen)} (output : Bytes) :
    encodeFrameInto lib key profile kind inner direction now random output = (frame, .ok ()) ↔
      encodeFrame lib key profile kind inner direction now random = .ok frame := by
  unfold encodeFrameInto encodeFrame
  simp only
  split_ifs
  · simp
  · simp
  · cases currentEpoch profile now with
    | error e => simp
    | ok epoch =>
      cases random with
      | error e => simp
      | ok random =>
        have hpre : (routingTagAt lib key profile direction epoch ++
            random.toList.take nonceLen).length = clearPrefixLen := by
          rw [List.length_append, routingTagAt_length, nonce_length, clearPrefixLen]
        simp only [sealInPlace, Vec.clear, List.nil_append]
        rw [List.append_assoc (_ ++ _), List.append_assoc (_ ++ _), List.drop_left' hpre,
          List.take_left' hpre, List.append_assoc]
        split
        · simp_all
        · simp_all

theorem MorphCodec.encodePayloadInto_ok_iff {codec : MorphCodec} {inner frame : Bytes}
    {direction : Direction} {now : ClockReading}
    {random : Except String (Vector UInt8 frameRandomLen)} (output : Bytes) :
    codec.encodePayloadInto lib inner direction now random output = (frame, .ok ()) ↔
      codec.encodePayload lib inner direction now random = .ok frame :=
  encodeFrameInto_ok_iff output

end Buffers

section Acceptance

variable (lib : Libraries)

def nonceOf (input : Bytes) : Bytes := (input.drop routingTagLen).take nonceLen

def ciphertextOf (input : Bytes) : Bytes :=
  (input.take (input.length - authTagLen)).drop clearPrefixLen

def tagOf (input : Bytes) : Bytes := input.drop (input.length - authTagLen)

def Authenticates (key : MorphKey) (direction : Direction) (input plaintext : Bytes) : Prop :=
  lib.chachaDecrypt key.bytes (nonceOf input)
    (associatedData (input.take routingTagLen) direction) (ciphertextOf input) (tagOf input) =
    some plaintext

def SealedAs (key : MorphKey) (direction : Direction) (input plaintext : Bytes) : Prop :=
  lib.chachaEncrypt key.bytes (nonceOf input)
    (associatedData (input.take routingTagLen) direction) plaintext =
    some (ciphertextOf input, tagOf input)

def innerLength (plaintext : Bytes) : ℕ := beNat ((plaintext.drop 4).take 2)

def innerBytes (plaintext : Bytes) : Bytes :=
  (plaintext.drop innerHeaderLen).take (innerLength plaintext)

def Carries (profile : Profile) (plaintext : Bytes) : DecodedFrame → Bytes → Prop
  | .payload p, inner =>
    p = profile ∧ plaintext.getD 1 0 = FrameKind.payload.toByte ∧ inner = innerBytes plaintext
  | .cover p, inner =>
    p = profile ∧ plaintext.getD 1 0 = FrameKind.cover.toByte ∧ innerLength plaintext = 0 ∧
      inner = []

structure WellFormed (profile : Profile) (plaintext : Bytes) : Prop where
  version : plaintext.getD 0 0 = formatVersion
  reserved : plaintext.getD 3 0 = 0
  profile : plaintext.getD 2 0 = profile.toByte
  fits : innerHeaderLen + innerLength plaintext ≤ plaintext.length
  kind : plaintext.getD 1 0 = FrameKind.payload.toByte ∨
    plaintext.getD 1 0 = FrameKind.cover.toByte ∧ innerLength plaintext = 0

variable {lib}

theorem Profile.fromId_eq_ok {value : UInt8} {profile : Profile} :
    Profile.fromId value = .ok profile ↔ value = profile.toByte := by
  constructor
  · intro h
    unfold Profile.fromId at h
    split at h <;> cases h <;> rfl
  · rintro rfl
    cases profile <;> rfl

theorem openFrame_ok_iff {profile : Profile} {plaintext inner : Bytes} {frame : DecodedFrame} :
    openFrame profile plaintext = .ok (frame, inner) ↔
      WellFormed profile plaintext ∧ Carries profile plaintext frame inner := by
  unfold openFrame
  constructor
  · intro h
    by_cases hhead : plaintext.length < innerHeaderLen ∨ plaintext.getD 0 0 ≠ formatVersion ∨
        plaintext.getD 3 0 ≠ 0
    · rw [if_pos hhead] at h
      cases h
    rw [if_neg hhead] at h
    simp only [not_or, not_not, not_lt] at hhead
    obtain ⟨-, hversion, hreserved⟩ := hhead
    cases hp : Profile.fromId (plaintext.getD 2 0) with
    | error e =>
      simp only [hp] at h
      cases h
    | ok found =>
      simp only [hp] at h
      split_ifs at h with hne hfits hcover hpayload
      · cases h
        obtain rfl := not_not.mp hne
        exact ⟨⟨hversion, hreserved, Profile.fromId_eq_ok.mp hp, not_lt.mp hfits, Or.inr hcover⟩,
          rfl, hcover.1, hcover.2, rfl⟩
      · cases h
        obtain rfl := not_not.mp hne
        exact ⟨⟨hversion, hreserved, Profile.fromId_eq_ok.mp hp, not_lt.mp hfits, Or.inl hpayload⟩,
          rfl, hpayload, rfl⟩
  · rintro ⟨⟨hversion, hreserved, hprofile, hfits, hkind⟩, hcarries⟩
    have hlen : innerHeaderLen ≤ plaintext.length := by omega
    have hfits' : ¬ innerHeaderLen + beNat ((plaintext.drop 4).take 2) > plaintext.length :=
      not_lt.mpr hfits
    rw [if_neg (by simp only [not_or, not_not, not_lt]; exact ⟨hlen, hversion, hreserved⟩)]
    simp only [Profile.fromId_eq_ok.mpr hprofile, ne_eq, not_true_eq_false, if_false]
    rw [if_neg hfits']
    cases frame with
    | cover p =>
      obtain ⟨rfl, hk, hzero, rfl⟩ := hcarries
      rw [if_pos ⟨hk, hzero⟩]
    | payload p =>
      obtain ⟨rfl, hk, rfl⟩ := hcarries
      rw [if_neg fun hc => absurd (hk.symm.trans hc.1) (by decide), if_pos hk]
      rfl

theorem WellFormed.carries {profile : Profile} {plaintext : Bytes}
    (h : WellFormed profile plaintext) : ∃ frame inner, Carries profile plaintext frame inner := by
  rcases h.kind with hk | ⟨hk, hzero⟩
  · exact ⟨.payload profile, innerBytes plaintext, rfl, hk, rfl⟩
  · exact ⟨.cover profile, [], rfl, hk, hzero, rfl⟩

theorem openInPlace_ok_iff {key : MorphKey} {profile : Profile} {input result : Bytes}
    {direction : Direction} {frame : DecodedFrame} (output : Bytes) :
    openInPlace lib key profile input direction output = (result, .ok frame) ↔
      ∃ plaintext, Authenticates lib key direction input plaintext ∧
        openFrame profile plaintext = .ok (frame, result) := by
  simp only [openInPlace, Vec.clear, List.nil_append, Authenticates, nonceOf, ciphertextOf, tagOf]
  cases hd : lib.chachaDecrypt key.bytes ((input.drop routingTagLen).take nonceLen)
      (associatedData (input.take routingTagLen) direction)
      ((input.take (input.length - authTagLen)).drop clearPrefixLen)
      (input.drop (input.length - authTagLen)) with
  | none => simp
  | some plaintext =>
    simp only [Option.some.injEq, exists_eq_left', openFrame]
    generalize Profile.fromId (plaintext.getD 2 0) = read
    cases read with
    | error e => split_ifs <;> simp
    | ok found =>
      simp only
      split_ifs with hhead hne hfits hcover hpayload
      · simp
      · simp
      · simp
      · simp [and_comm]
      · rw [Vec.take_copyToFront (not_lt.mp hfits)]
        simp [and_comm]
      · simp

theorem mem_acceptedEpochs {e epoch : UInt64} : e ∈ acceptedEpochs epoch ↔ Adjacent e epoch := by
  rw [adjacent_iff]
  simp only [acceptedEpochs, List.mem_cons, List.not_mem_nil, or_false]

theorem matchesRoutingTag_iff {key : MorphKey} {profile : Profile} {direction : Direction}
    {epoch : UInt64} {route : Bytes} :
    matchesRoutingTag lib key profile direction epoch route = true ↔
      ∃ e ∈ acceptedEpochs epoch, routingTagAt lib key profile direction e = route := by
  simp only [matchesRoutingTag, acceptedEpochs, List.any_cons, List.any_nil, Bool.or_false,
    Bool.or_eq_true, decide_eq_true_eq, List.mem_cons, List.not_mem_nil, or_false, exists_eq_or_imp,
    exists_eq_left]
  tauto

def Accepts (lib : Libraries) (key : MorphKey) (profile : Profile) (direction : Direction)
    (epoch : UInt64) (input plaintext : Bytes) : Prop :=
  (minFrameLen ≤ input.length ∧ input.length ≤ maxDatagramLen) ∧
    (∃ e ∈ acceptedEpochs epoch,
      routingTagAt lib key profile direction e = input.take routingTagLen) ∧
    Authenticates lib key direction input plaintext ∧ WellFormed profile plaintext

theorem decodeFrameInto_ok_iff {key : MorphKey} {profile : Profile} {input result : Bytes}
    {direction : Direction} {seconds : UInt64} {frame : DecodedFrame} (output : Bytes) :
    decodeFrameInto lib key profile input direction (some seconds) output = (result, .ok frame) ↔
      ∃ plaintext, Accepts lib key profile direction (seconds / profile.epochSeconds) input
        plaintext ∧ Carries profile plaintext frame result := by
  simp only [decodeFrameInto, currentEpoch, Accepts]
  split_ifs with hmin hmax htag
  · simp [Nat.not_le.mpr hmin]
  · simp [Nat.not_le.mpr hmax]
  · rw [Bool.not_eq_true', ← Bool.not_eq_true, matchesRoutingTag_iff] at htag
    simp [htag]
  · rw [Bool.not_eq_true', Bool.not_eq_false, matchesRoutingTag_iff] at htag
    rw [openInPlace_ok_iff]
    simp only [openFrame_ok_iff, htag, not_lt.mp hmin, not_lt.mp hmax, and_true, true_and,
      and_assoc]

theorem decodeFrame_ok_iff {key : MorphKey} {profile : Profile} {input result : Bytes}
    {direction : Direction} {now : ClockReading} {frame : DecodedFrame} (output : Bytes) :
    decodeFrame lib key profile input direction now = .ok (frame, result) ↔
      decodeFrameInto lib key profile input direction now output = (result, .ok frame) := by
  simp only [decodeFrame, decodeFrameInto]
  generalize currentEpoch profile now = read
  cases read with
  | error e => split_ifs <;> simp
  | ok epoch =>
    simp only
    split_ifs
    · simp
    · simp
    · simp
    · rw [openInPlace_ok_iff]
      simp only [Authenticates, nonceOf, ciphertextOf, tagOf]
      split <;> simp_all

namespace MorphCodec

theorem decodeInto_ok_iff {codec : MorphCodec} {input result : Bytes} {direction : Direction}
    {now : ClockReading} {frame : DecodedFrame} (output : Bytes) :
    codec.decodeInto lib input direction now output = (result, .ok frame) ↔
      ∃ seconds, now = some seconds ∧ ∃ plaintext, Accepts lib codec.key codec.profile direction
        (seconds / codec.profile.epochSeconds) input plaintext ∧
        Carries codec.profile plaintext frame result := by
  cases now with
  | none =>
    simp only [decodeInto, decodeFrameInto, currentEpoch]
    split_ifs <;> simp
  | some seconds =>
    simp only [decodeInto, decodeFrameInto_ok_iff, Option.some.injEq, exists_eq_left']

theorem decode_ok_iff {codec : MorphCodec} {input result : Bytes} {direction : Direction}
    {now : ClockReading} {frame : DecodedFrame} (output : Bytes) :
    codec.decode lib input direction now = .ok (frame, result) ↔
      codec.decodeInto lib input direction now output = (result, .ok frame) :=
  decodeFrame_ok_iff output

end MorphCodec

end Acceptance

end MouseVpn.Wire.Morph
