import MouseVpn.Wire.MorphFrames

/-!
# Sealed MouseMorph frames open again

With an ideal AEAD the frames that the codec opens are exactly those that it seals, and they
give back the inner datagram.
-/

namespace MouseVpn.Wire.Morph

open MouseVpn.Lib MouseVpn.Lib.BigEndian MouseVpn.Crypto

section RoundTrip

variable {lib : Libraries}

def plaintextOf (profile : Profile) (kind : FrameKind) (inner padding : Bytes) : Bytes :=
  [formatVersion, kind.toByte, profile.toByte, 0] ++ beBytes 2 inner.length ++ inner ++ padding

def FrameKind.decoded (profile : Profile) : FrameKind → DecodedFrame
  | .cover => .cover profile
  | .payload => .payload profile

theorem innerLength_plaintextOf (profile : Profile) (kind : FrameKind) {inner : Bytes}
    (padding : Bytes) (h : inner.length < 65536) :
    innerLength (plaintextOf profile kind inner padding) = inner.length := by
  have hb : ((plaintextOf profile kind inner padding).drop 4).take 2 =
      beBytes 2 inner.length := by
    simp [plaintextOf, List.drop_append]
  rw [innerLength, hb, beNat_beBytes_of_lt (by omega)]

theorem plaintextOf_length (profile : Profile) (kind : FrameKind) (inner padding : Bytes) :
    (plaintextOf profile kind inner padding).length =
      innerHeaderLen + inner.length + padding.length := by
  simp [plaintextOf, innerHeaderLen]
  omega

theorem innerBytes_plaintextOf (profile : Profile) (kind : FrameKind) {inner : Bytes}
    (padding : Bytes) (h : inner.length < 65536) :
    innerBytes (plaintextOf profile kind inner padding) = inner := by
  have hd : (plaintextOf profile kind inner padding).drop innerHeaderLen = inner ++ padding := by
    rw [plaintextOf, List.append_assoc, List.drop_left' (by simp [innerHeaderLen])]
  rw [innerBytes, hd, innerLength_plaintextOf profile kind padding h, List.take_left]

theorem wellFormed_plaintextOf (profile : Profile) (kind : FrameKind) {inner : Bytes}
    (padding : Bytes) (h : inner.length < 65536) (hk : kind = .cover → inner = []) :
    WellFormed profile (plaintextOf profile kind inner padding) ∧
      Carries profile (plaintextOf profile kind inner padding) (kind.decoded profile) inner := by
  have hl := innerLength_plaintextOf profile kind padding h
  have hfits : innerHeaderLen + innerLength (plaintextOf profile kind inner padding) ≤
      (plaintextOf profile kind inner padding).length := by
    rw [hl, plaintextOf_length]
    omega
  cases kind with
  | payload =>
    exact ⟨⟨rfl, rfl, rfl, hfits, Or.inl rfl⟩, rfl, rfl,
      (innerBytes_plaintextOf profile .payload padding h).symm⟩
  | cover =>
    obtain rfl := hk rfl
    exact ⟨⟨rfl, rfl, rfl, hfits, Or.inr ⟨rfl, hl⟩⟩, rfl, rfl, hl, rfl⟩

theorem frame_parts {route nonce tag : Bytes} (ciphertext : Bytes)
    (hr : route.length = routingTagLen)
    (hn : nonce.length = nonceLen) (ht : tag.length = authTagLen) :
    (route ++ nonce ++ ciphertext ++ tag).take routingTagLen = route ∧
      nonceOf (route ++ nonce ++ ciphertext ++ tag) = nonce ∧
      ciphertextOf (route ++ nonce ++ ciphertext ++ tag) = ciphertext ∧
      tagOf (route ++ nonce ++ ciphertext ++ tag) = tag := by
  have hb : (route ++ nonce ++ ciphertext ++ tag).length - authTagLen =
      (route ++ nonce ++ ciphertext).length := by
    simp [ht]
    omega
  refine ⟨?_, ?_, ?_, ?_⟩
  · rw [List.append_assoc, List.append_assoc, List.take_left' hr]
  · rw [nonceOf, List.append_assoc, List.append_assoc, List.drop_left' hr, List.take_left' hn]
  · rw [ciphertextOf, hb, List.take_left, List.drop_left' (by simp [hr, hn, clearPrefixLen])]
  · rw [tagOf, hb, List.drop_left]

theorem fits_iff {n : ℕ} : minFrameLen + n ≤ maxDatagramLen ↔ n ≤ 1430 := by
  have hmin : minFrameLen = 42 := rfl
  have hmax : maxDatagramLen = 1472 := rfl
  omega

theorem encodeFrame_ok (ha : IdealAead lib) (key : MorphKey) (profile : Profile)
    (kind : FrameKind) {inner : Bytes} (direction : Direction) (seconds : UInt64)
    (random : Vector UInt8 frameRandomLen) (h : minFrameLen + inner.length ≤ maxDatagramLen) :
    ∃ nonce padding ciphertext tag, nonce.length = nonceLen ∧
      padding.length ≤ maxRandomPadding ∧
      minFrameLen + inner.length + padding.length ≤ maxDatagramLen ∧
      lib.chachaEncrypt key.bytes nonce
        (associatedData (routingTagAt lib key profile direction (seconds / profile.epochSeconds))
          direction) (plaintextOf profile kind inner padding) = some (ciphertext, tag) ∧
      encodeFrame lib key profile kind inner direction (some seconds) (.ok random) =
        .ok (routingTagAt lib key profile direction (seconds / profile.epochSeconds) ++ nonce ++
          ciphertext ++ tag) := by
  have hsmall : ¬ inner.length > 65535 := by
    have : maxDatagramLen < 65535 := by decide
    omega
  set paddingLen := min (beNat ((random.toList.drop nonceLen).take 2) % (maxRandomPadding + 1))
    (maxDatagramLen - (minFrameLen + inner.length)) with hp
  have hpad : paddingLen ≤ maxRandomPadding := by
    have := Nat.mod_lt (beNat ((random.toList.drop nonceLen).take 2))
      (show 0 < maxRandomPadding + 1 by decide)
    omega
  have hpl := padding_length random hpad
  obtain ⟨ciphertext, tag, hs⟩ := ha.seals key.bytes (random.toList.take nonceLen)
    (associatedData (routingTagAt lib key profile direction (seconds / profile.epochSeconds))
      direction)
    (plaintextOf profile kind inner ((random.toList.drop (nonceLen + 2)).take paddingLen))
    (nonce_length random) (by
      rw [plaintextOf_length, hpl]
      have : innerHeaderLen ≤ minFrameLen := by decide
      omega)
  refine ⟨_, _, ciphertext, tag, nonce_length random, hpl.trans_le hpad, ?_, hs, ?_⟩
  · rw [hpl]
    omega
  · simp only [plaintextOf] at hs
    simp only [encodeFrame, if_neg hsmall, if_neg (not_lt.mpr h), currentEpoch, ← hp, hs]

theorem sealed_length (ha : IdealAead lib) {key : MorphKey} {profile : Profile}
    {kind : FrameKind} {inner nonce padding ciphertext tag aad : Bytes} {direction : Direction}
    {epoch : UInt64} (hn : nonce.length = nonceLen)
    (hs : lib.chachaEncrypt key.bytes nonce aad (plaintextOf profile kind inner padding) =
      some (ciphertext, tag)) :
    (routingTagAt lib key profile direction epoch ++ nonce ++ ciphertext ++ tag).length =
      minFrameLen + inner.length + padding.length := by
  obtain ⟨hc, ht⟩ := ha.lengths hs
  rw [plaintextOf_length] at hc
  simp only [List.length_append, routingTagAt_length, hn, hc, ht, minFrameLen, clearPrefixLen]
  omega

theorem decode_sealed (ha : IdealAead lib) {key : MorphKey} {profile : Profile}
    {kind : FrameKind} {inner nonce padding ciphertext tag : Bytes} {direction : Direction}
    {epoch seconds : UInt64} (hk : kind = .cover → inner = []) (hn : nonce.length = nonceLen)
    (hlen : minFrameLen + inner.length + padding.length ≤ maxDatagramLen)
    (hadj : Adjacent epoch (seconds / profile.epochSeconds))
    (hs : lib.chachaEncrypt key.bytes nonce
      (associatedData (routingTagAt lib key profile direction epoch) direction)
      (plaintextOf profile kind inner padding) = some (ciphertext, tag)) (output : Bytes) :
    decodeFrameInto lib key profile
      (routingTagAt lib key profile direction epoch ++ nonce ++ ciphertext ++ tag) direction
      (some seconds) output = (inner, .ok (kind.decoded profile)) := by
  have ht := (ha.lengths hs).2
  obtain ⟨hroute, hnonce, hcipher, htag⟩ := frame_parts ciphertext
    (@routingTagAt_length lib key profile direction epoch) hn ht
  obtain ⟨hwf, hcarries⟩ := wellFormed_plaintextOf profile kind padding
    (show inner.length < 65536 by
      have : maxDatagramLen < 65536 := by decide
      omega) hk
  refine (decodeFrameInto_ok_iff output).mpr
    ⟨_, ⟨?_, ⟨epoch, mem_acceptedEpochs.mpr hadj, hroute.symm⟩, ?_, hwf⟩, hcarries⟩
  · rw [sealed_length ha hn hs]
    exact ⟨by omega, hlen⟩
  · rw [Authenticates, hroute, hnonce, hcipher, htag]
    exact ha.opens_iff.mpr hs

theorem encode_decode (ha : IdealAead lib) (key : MorphKey) (profile : Profile)
    {kind : FrameKind} {inner : Bytes} (direction : Direction) {sent received : UInt64}
    (random : Vector UInt8 frameRandomLen) (hk : kind = .cover → inner = [])
    (hlen : minFrameLen + inner.length ≤ maxDatagramLen)
    (hadj : Adjacent (sent / profile.epochSeconds) (received / profile.epochSeconds)) :
    ∃ frame, encodeFrame lib key profile kind inner direction (some sent) (.ok random) =
        .ok frame ∧
      (∀ output, decodeFrameInto lib key profile frame direction (some received) output =
        (inner, .ok (kind.decoded profile))) ∧
      minFrameLen + inner.length ≤ frame.length ∧
      frame.length ≤ min (minFrameLen + maxRandomPadding + inner.length) maxDatagramLen := by
  obtain ⟨nonce, padding, ciphertext, tag, hn, hpad, hmax, hs, he⟩ :=
    encodeFrame_ok ha key profile kind direction sent random hlen
  refine ⟨_, he, fun output => decode_sealed ha hk hn hmax hadj hs output, ?_, ?_⟩
  · rw [sealed_length ha hn hs]
    omega
  · rw [sealed_length ha hn hs]
    omega

theorem encodeFrame_inv {key : MorphKey} {profile : Profile} {kind : FrameKind}
    {inner frame : Bytes} {direction : Direction} {now : ClockReading}
    {random : Except String (Vector UInt8 frameRandomLen)}
    (h : encodeFrame lib key profile kind inner direction now random = .ok frame) :
    minFrameLen + inner.length ≤ maxDatagramLen ∧
      ∃ seconds bytes, now = some seconds ∧ random = .ok bytes := by
  simp only [encodeFrame] at h
  split_ifs at h with hsmall hfits
  refine ⟨not_lt.mp hfits, ?_⟩
  cases now with
  | none => simp [currentEpoch] at h
  | some seconds =>
    cases random with
    | error e => simp [currentEpoch] at h
    | ok bytes => exact ⟨seconds, bytes, rfl, rfl⟩

theorem take_encodeFrame (ha : IdealAead lib) {key : MorphKey} {profile : Profile}
    {kind : FrameKind} {inner frame : Bytes} {direction : Direction} {seconds : UInt64}
    {random : Except String (Vector UInt8 frameRandomLen)}
    (h : encodeFrame lib key profile kind inner direction (some seconds) random = .ok frame) :
    frame.take routingTagLen =
      routingTagAt lib key profile direction (seconds / profile.epochSeconds) := by
  obtain ⟨hfits, _, bytes, -, rfl⟩ := encodeFrame_inv h
  obtain ⟨nonce, padding, ciphertext, tag, -, -, -, -, he⟩ :=
    encodeFrame_ok ha key profile kind direction seconds bytes hfits
  rw [he] at h
  cases h
  rw [List.append_assoc, List.append_assoc, List.take_left' (routingTagAt_length ..)]

theorem encodeFrame_length (ha : IdealAead lib) {key : MorphKey} {profile : Profile}
    {kind : FrameKind} {inner frame : Bytes} {direction : Direction} {now : ClockReading}
    {random : Except String (Vector UInt8 frameRandomLen)}
    (h : encodeFrame lib key profile kind inner direction now random = .ok frame) :
    frame.length ≤ maxDatagramLen := by
  obtain ⟨hfits, seconds, bytes, rfl, rfl⟩ := encodeFrame_inv h
  obtain ⟨nonce, padding, ciphertext, tag, hn, -, hmax, hs, he⟩ :=
    encodeFrame_ok ha key profile kind direction seconds bytes hfits
  rw [he] at h
  cases h
  rw [sealed_length ha hn hs]
  exact hmax

theorem encodeFrame_overhead (ha : IdealAead lib) {key : MorphKey} {profile : Profile}
    {kind : FrameKind} {inner frame : Bytes} {direction : Direction} {now : ClockReading}
    {random : Except String (Vector UInt8 frameRandomLen)}
    (h : encodeFrame lib key profile kind inner direction now random = .ok frame) :
    frame.length ≤ inner.length + (minFrameLen + maxRandomPadding) := by
  obtain ⟨hfits, seconds, bytes, rfl, rfl⟩ := encodeFrame_inv h
  obtain ⟨nonce, padding, ciphertext, tag, hn, hpadding, -, hs, he⟩ :=
    encodeFrame_ok ha key profile kind direction seconds bytes hfits
  rw [he] at h
  cases h
  rw [sealed_length ha hn hs]
  omega

end RoundTrip

namespace MorphCodec

variable {lib : Libraries}

theorem decodeInto_encodePayloadInto (ha : IdealAead lib) {codec : MorphCodec}
    {inner frame buffer : Bytes} {direction : Direction} {sent received : UInt64}
    {random : Except String (Vector UInt8 frameRandomLen)}
    (hadj : Adjacent (sent / codec.profile.epochSeconds) (received / codec.profile.epochSeconds))
    (he : codec.encodePayloadInto lib inner direction (some sent) random buffer =
      (frame, .ok ()))
    (output : Bytes) :
    codec.decodeInto lib frame direction (some received) output =
      (inner, .ok (.payload codec.profile)) := by
  have he' := (encodePayloadInto_ok_iff buffer).mp he
  obtain ⟨hfits, _, bytes, -, rfl⟩ := encodeFrame_inv he'
  obtain ⟨frame', hencode, hdecode, -⟩ := encode_decode ha codec.key codec.profile direction bytes
    (fun hk : FrameKind.payload = .cover => nomatch hk) hfits hadj
  obtain rfl : frame' = frame := Except.ok.inj (hencode.symm.trans he')
  exact hdecode output

/-- The codec opens every frame that it sealed in an adjacent epoch, refuses what does not
fit, and accepts exactly the frames of the documented form. -/
theorem accepts_exactly_sealed (ha : IdealAead lib) (codec : MorphCodec) :
    (∀ inner direction random sent received output output', inner.length ≤ 1430 →
      Adjacent (sent / codec.profile.epochSeconds) (received / codec.profile.epochSeconds) →
      ∃ frame, codec.encodePayloadInto lib inner direction (some sent) (.ok random) output =
          (frame, .ok ()) ∧
        codec.decodeInto lib frame direction (some received) output' =
          (inner, .ok (.payload codec.profile)) ∧
        42 + inner.length ≤ frame.length ∧ frame.length ≤ min (73 + inner.length) 1472) ∧
    (∀ direction random sent received output output',
      Adjacent (sent / codec.profile.epochSeconds) (received / codec.profile.epochSeconds) →
      ∃ frame, codec.encodeCoverInto lib direction (some sent) (.ok random) output =
          (frame, .ok ()) ∧
        codec.decodeInto lib frame direction (some received) output' =
          ([], .ok (.cover codec.profile)) ∧
        42 ≤ frame.length ∧ frame.length ≤ 73) ∧
    (∀ inner direction now random output, 1430 < inner.length → ∃ actual maximum,
      codec.encodePayloadInto lib inner direction now random output =
        (output, .error (.frameTooLarge actual maximum))) ∧
    (∀ input direction seconds output,
      (∃ result frame, codec.decodeInto lib input direction (some seconds) output =
        (result, .ok frame)) ↔
      (42 ≤ input.length ∧ input.length ≤ 1472) ∧
        (∃ e ∈ acceptedEpochs (seconds / codec.profile.epochSeconds),
          routingTagAt lib codec.key codec.profile direction e = input.take routingTagLen) ∧
        ∃ plaintext, SealedAs lib codec.key direction input plaintext ∧
          WellFormed codec.profile plaintext) := by
  refine ⟨?_, ?_, ?_, ?_⟩
  · intro inner direction random sent received output output' hlen hadj
    obtain ⟨frame, he, hd, hmin, hmax⟩ := encode_decode ha codec.key codec.profile direction
      random (fun hk : FrameKind.payload = .cover => nomatch hk) (fits_iff.mpr hlen) hadj
    exact ⟨frame, (encodeFrameInto_ok_iff output).mpr he, hd output', hmin, hmax⟩
  · intro direction random sent received output output' hadj
    obtain ⟨frame, he, hd, hmin, hmax⟩ := encode_decode ha codec.key codec.profile direction
      random (fun _ : FrameKind.cover = .cover => rfl) (by decide) hadj
    exact ⟨frame, (encodeFrameInto_ok_iff output).mpr he, hd output', hmin,
      hmax.trans (min_le_left _ _)⟩
  · intro inner direction now random output hlen
    simp only [encodePayloadInto, encodeFrameInto]
    split_ifs with hsmall hfit
    · exact ⟨_, _, rfl⟩
    · exact ⟨_, _, rfl⟩
    · exact absurd (fits_iff.mp (not_lt.mp hfit)) (not_le.mpr hlen)
  · intro input direction seconds output
    simp only [decodeInto, decodeFrameInto_ok_iff, Accepts]
    constructor
    · rintro ⟨result, frame, plaintext, ⟨hlen, htag, hauth, hwf⟩, -⟩
      exact ⟨hlen, htag, plaintext, ha.opens_iff.mp hauth, hwf⟩
    · rintro ⟨hlen, htag, plaintext, hsealed, hwf⟩
      obtain ⟨frame, inner, hc⟩ := hwf.carries
      exact ⟨inner, frame, plaintext, ⟨hlen, htag, ha.opens_iff.mpr hsealed, hwf⟩, hc⟩

theorem clearLibraries_idealAead : IdealAead clearLibraries where
  seals _ _ _ plaintext _ _ := ⟨plaintext, _, rfl⟩
  lengths h := by
    simp only [clearLibraries, Option.some.injEq, Prod.mk.injEq] at h
    obtain ⟨rfl, rfl⟩ := h
    exact ⟨rfl, by simp [authTagLen]⟩
  opens_iff := by
    intro key nonce aad plaintext ciphertext tag
    simp only [clearLibraries, Option.ite_none_right_eq_some, Option.some.injEq, Prod.mk.injEq]
    constructor
    · rintro ⟨ht, rfl⟩
      exact ⟨rfl, ht.symm⟩
    · rintro ⟨rfl, ht⟩
      exact ⟨ht.symm, rfl⟩

/-- A datagram of 1430 bytes fits exactly, sealed at second 29 and opened at second 30. -/
theorem accepts_exactly_sealed_sample :
    IdealAead clearLibraries ∧
    ∃ frame, encodePayloadInto clearLibraries ⟨⟨Vector.replicate 32 7⟩, .quiet⟩
        (List.replicate 1430 0) .clientToServer (some 29) (.ok (Vector.replicate _ 255)) [] =
        (frame, .ok ()) ∧
      decodeInto clearLibraries ⟨⟨Vector.replicate 32 7⟩, .quiet⟩ frame .clientToServer (some 30)
        [] = (List.replicate 1430 0, .ok (.payload .quiet)) := by
  obtain ⟨frame, he, hd, -⟩ := (accepts_exactly_sealed clearLibraries_idealAead
    ⟨⟨Vector.replicate 32 7⟩, .quiet⟩).1 (List.replicate 1430 0) .clientToServer
    (Vector.replicate _ 255) 29 30 [] [] (by rw [List.length_replicate]) (by decide)
  exact ⟨clearLibraries_idealAead, frame, he, hd⟩

end MorphCodec

end MouseVpn.Wire.Morph
