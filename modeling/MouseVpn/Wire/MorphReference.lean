import MouseVpn.Wire.MorphRoundTrip

/-!
# The frozen v2 codec and the shipped one

The reference draws the padding length, the nonce and the padding separately and
tries the accepted epochs from the oldest on; the shipped codec reads all three from
one buffer and tries the current epoch first. Constants, tags and everything behind
the check of the tag are the same text in both and are shared here.
-/

namespace MouseVpn.Wire.Morph.Reference

open MouseVpn.Lib MouseVpn.Lib.BigEndian MouseVpn.Crypto MouseVpn.Wire.Morph

structure Draws where
  choice : Except String (Vector UInt8 2)
  nonce : Except String (Vector UInt8 nonceLen)
  padding : (n : ℕ) → Except String (Vector UInt8 n)

def usizeMax : ℕ := 2 ^ 64 - 1

def randomInclusive (minimum maximum : ℕ) (draw : Except String (Vector UInt8 2)) :
    Except MorphError ℕ :=
  if minimum = maximum then .ok minimum
  else
    match draw with
    | .error e => .error (.random e)
    | .ok random =>
      let span := maximum - minimum + 1
      .ok (minimum + beNat random.toList % span)

def targetLen (minimum : ℕ) (draw : Except String (Vector UInt8 2)) : Except MorphError ℕ :=
  if minimum > maxDatagramLen then .error (.frameTooLarge minimum maxDatagramLen)
  else
    match randomInclusive 0 maxRandomPadding draw with
    | .error e => .error e
    | .ok extra => .ok (min (min (minimum + extra) usizeMax) maxDatagramLen)

variable (lib : Libraries)

def encodeFrameInto (key : MorphKey) (profile : Profile) (kind : FrameKind) (inner : Bytes)
    (direction : Direction) (now : ClockReading) (draws : Draws) (output : Bytes) :
    Bytes × Except MorphError Unit :=
  if inner.length > 65535 then (output, .error (.frameTooLarge inner.length 65535))
  else
    let minimum := minFrameLen + inner.length
    match targetLen minimum draws.choice with
    | .error e => (output, .error e)
    | .ok target =>
      let paddingLen := target - minimum
      match currentEpoch profile now with
      | .error e => (output, .error e)
      | .ok epoch =>
        let route := routingTagAt lib key profile direction epoch
        match draws.nonce with
        | .error e => (output, .error (.random e))
        | .ok nonce =>
          let output := Vec.clear output ++ route ++ nonce.toList
          let output := output ++ ([formatVersion, kind.toByte, profile.toByte, 0] ++
            beBytes 2 inner.length)
          let output := output ++ inner
          let paddingStart := output.length
          let output := Vec.resize output (paddingStart + paddingLen)
          if paddingLen ≠ 0 then
            match draws.padding paddingLen with
            | .error e => (output, .error (.random e))
            | .ok padding =>
              sealInPlace lib key route nonce.toList direction
                (Vec.overwrite output paddingStart padding.toList)
          else sealInPlace lib key route nonce.toList direction output

def decodeFrameInto (key : MorphKey) (expectedProfile : Profile) (input : Bytes)
    (direction : Direction) (now : ClockReading) (output : Bytes) :
    Bytes × Except MorphError DecodedFrame :=
  if input.length < minFrameLen then (output, .error (.truncated input.length minFrameLen))
  else if input.length > maxDatagramLen then
    (output, .error (.frameTooLarge input.length maxDatagramLen))
  else
    match currentEpoch expectedProfile now with
    | .error e => (output, .error e)
    | .ok epoch =>
      let route := input.take routingTagLen
      if !(acceptedEpochs epoch).any fun candidate =>
          routingTagAt lib key expectedProfile direction candidate = route then
        (output, .error .unknownRoutingTag)
      else openInPlace lib key expectedProfile input direction output

/-- `n` bytes of the random buffer of the shipped codec, from `offset` on. -/
def drawAt (random : Vector UInt8 frameRandomLen) (offset n : ℕ) : Vector UInt8 n :=
  Vector.ofFn fun i : Fin n => random.toList.getD (offset + i) 0

def drawsOf (random : Vector UInt8 frameRandomLen) : Draws where
  choice := .ok (drawAt random nonceLen 2)
  nonce := .ok (drawAt random 0 nonceLen)
  padding n := .ok (drawAt random (nonceLen + 2) n)

variable {lib}

theorem drawAt_toList (random : Vector UInt8 frameRandomLen) {offset n : ℕ}
    (h : offset + n ≤ frameRandomLen) :
    (drawAt random offset n).toList = (random.toList.drop offset).take n := by
  refine List.ext_getElem ?_ fun i hi _ => ?_
  · rw [Vector.length_toList, List.length_take, List.length_drop, Vector.length_toList]
    omega
  · rw [Vector.length_toList] at hi
    simp [drawAt, List.getD_eq_getElem?_getD, show offset + i < frameRandomLen by omega]

theorem matchesRoutingTag_eq (key : MorphKey) (profile : Profile) (direction : Direction)
    (epoch : UInt64) (route : Bytes) :
    matchesRoutingTag lib key profile direction epoch route =
      (acceptedEpochs epoch).any fun candidate =>
        routingTagAt lib key profile direction candidate = route := by
  rw [Bool.eq_iff_iff, matchesRoutingTag_iff]
  simp

theorem targetLen_drawsOf (random : Vector UInt8 frameRandomLen) {minimum : ℕ}
    (h : minimum ≤ maxDatagramLen) :
    targetLen minimum (drawsOf random).choice =
      .ok (minimum + min (beNat ((random.toList.drop nonceLen).take 2) % (maxRandomPadding + 1))
        (maxDatagramLen - minimum)) := by
  have hmax : maxDatagramLen ≤ usizeMax := by decide
  have hne : ¬ (0 : ℕ) = maxRandomPadding := by decide
  rw [targetLen, if_neg (not_lt.mpr h)]
  simp only [randomInclusive, if_neg hne, drawsOf, drawAt_toList random (show nonceLen + 2 ≤
    frameRandomLen by decide), Nat.sub_zero, Nat.zero_add, Except.ok.injEq]
  omega

theorem resize_append_zero (v : Bytes) : Vec.resize v (v.length + 0) = v := by
  simp [Vec.resize]

theorem overwrite_resize (v written : Bytes) {n : ℕ} (h : written.length = n) :
    Vec.overwrite (Vec.resize v (v.length + n)) v.length written = v ++ written := by
  have ht : (Vec.resize v (v.length + n)).take v.length = v := by
    rw [Vec.resize, List.take_of_length_le (Nat.le_add_right _ _), List.take_left]
  rw [Vec.overwrite, ht, h, List.drop_of_length_le (by rw [Vec.resize_length]), List.append_nil]

theorem encodeFrameInto_eq (key : MorphKey) (profile : Profile) (kind : FrameKind)
    (inner : Bytes) (direction : Direction) (seconds : UInt64)
    (random : Vector UInt8 frameRandomLen) (output : Bytes) :
    Morph.encodeFrameInto lib key profile kind inner direction (some seconds) (.ok random) output =
      encodeFrameInto lib key profile kind inner direction (some seconds) (drawsOf random)
        output := by
  unfold Morph.encodeFrameInto encodeFrameInto
  by_cases hsmall : inner.length > 65535
  · simp only [if_pos hsmall]
  simp only [if_neg hsmall]
  by_cases hfit : minFrameLen + inner.length > maxDatagramLen
  · simp only [if_pos hfit, targetLen]
  simp only [if_neg hfit, targetLen_drawsOf random (not_lt.mp hfit), Nat.add_sub_cancel_left]
  set paddingLen := min (beNat ((random.toList.drop nonceLen).take 2) % (maxRandomPadding + 1))
    (maxDatagramLen - (minFrameLen + inner.length)) with hp
  have hpad : paddingLen ≤ maxRandomPadding := by
    have := Nat.mod_lt (beNat ((random.toList.drop nonceLen).take 2))
      (show 0 < maxRandomPadding + 1 by decide)
    omega
  have hsub : minFrameLen + inner.length + paddingLen - (minFrameLen + inner.length) =
      paddingLen := Nat.add_sub_cancel_left ..
  have hnonce : (drawAt random 0 nonceLen).toList = random.toList.take nonceLen := by
    rw [drawAt_toList random (by decide), List.drop_zero]
  simp only [currentEpoch, drawsOf, hnonce]
  by_cases hzero : paddingLen = 0
  · simp only [hzero, ne_eq, not_true_eq_false, if_false, List.take_zero, List.append_nil,
      resize_append_zero]
  · simp only [ne_eq, hzero, not_false_eq_true, if_true]
    rw [overwrite_resize _ _ ((Vector.length_toList ..).trans hsub),
      drawAt_toList random (by rw [hsub, frameRandomLen]; omega), hsub]

/-- The shipped codec and the frozen reference cannot be told apart. -/
theorem shipped_eq_reference (key : MorphKey) (profile : Profile) (direction : Direction) :
    (∀ input now output,
      Morph.decodeFrameInto lib key profile input direction now output =
        decodeFrameInto lib key profile input direction now output) ∧
    (∀ kind inner seconds random output,
      Morph.encodeFrameInto lib key profile kind inner direction (some seconds) (.ok random)
          output =
        encodeFrameInto lib key profile kind inner direction (some seconds) (drawsOf random)
          output) := by
  refine ⟨fun input now output => ?_, fun kind inner seconds random output =>
    encodeFrameInto_eq key profile kind inner direction seconds random output⟩
  cases hepoch : currentEpoch profile now <;>
    simp only [Morph.decodeFrameInto, decodeFrameInto, matchesRoutingTag_eq, hepoch]

end MouseVpn.Wire.Morph.Reference
