import MouseVpn.Lib.Machine
import MouseVpn.Wire.Speedy

/-!
# What the Speedy codec accepts

The header mask depends on the last sixteen bytes of the datagram, which masking
does not touch, so masking is its own inverse and a frame determines the datagram
in it. The codec is modelled with the caller's output buffer here; the calls that
share a tag cache are a machine whose state is that cache.
-/

namespace MouseVpn.Wire.Speedy

open MouseVpn.Lib MouseVpn.Lib.BigEndian MouseVpn.Crypto MouseVpn.Protocol

theorem xor_mask_cancel (datagram mask : Bytes) (h : datagram.length ≤ mask.length) :
    (datagram.zipWith (· ^^^ ·) mask).zipWith (· ^^^ ·) mask = datagram := by
  induction datagram generalizing mask with
  | nil => rfl
  | cons byte datagram ih =>
    cases mask with
    | nil => simp at h
    | cons m mask =>
      rw [List.zipWith_cons_cons, List.zipWith_cons_cons, ih mask (by simpa using h),
        UInt8.xor_assoc, UInt8.xor_self, UInt8.xor_zero]

theorem take_headerLen_maskHeader {datagram : Bytes} (mask : Array32)
    (h : headerLen ≤ datagram.length) :
    (maskHeader datagram mask).take headerLen =
      (datagram.take headerLen).zipWith (· ^^^ ·) mask.toList := by
  have hl : ((datagram.take headerLen).zipWith (· ^^^ ·) mask.toList).length = headerLen := by
    simp [headerLen] at h ⊢
    omega
  rw [maskHeader, List.take_left' hl]

theorem drop_headerLen_maskHeader {datagram : Bytes} (mask : Array32)
    (h : headerLen ≤ datagram.length) :
    (maskHeader datagram mask).drop headerLen = datagram.drop headerLen := by
  have hl : ((datagram.take headerLen).zipWith (· ^^^ ·) mask.toList).length = headerLen := by
    simp [headerLen] at h ⊢
    omega
  rw [maskHeader, List.drop_left' hl]

@[simp] theorem maskHeader_length (datagram : Bytes) (mask : Array32) :
    (maskHeader datagram mask).length = datagram.length := by
  simp [maskHeader, headerLen]
  omega

theorem maskHeader_maskHeader {datagram : Bytes} (mask : Array32)
    (h : headerLen ≤ datagram.length) :
    maskHeader (maskHeader datagram mask) mask = datagram := by
  rw [maskHeader, take_headerLen_maskHeader mask h, drop_headerLen_maskHeader mask h,
    xor_mask_cancel _ _ (by simp [headerLen]), List.take_append_drop]

theorem drop_sample_maskHeader {datagram : Bytes} (mask : Array32)
    (h : headerLen + sampleLen ≤ datagram.length) :
    (maskHeader datagram mask).drop (datagram.length - sampleLen) =
      datagram.drop (datagram.length - sampleLen) := by
  obtain ⟨k, hk⟩ : ∃ k, datagram.length - sampleLen = headerLen + k :=
    ⟨datagram.length - sampleLen - headerLen, by omega⟩
  rw [hk, ← List.drop_drop, drop_headerLen_maskHeader mask (by omega), List.drop_drop]

theorem mem_acceptedEpochs {e epoch : UInt64} : e ∈ acceptedEpochs epoch ↔ Adjacent e epoch := by
  rw [adjacent_iff]
  simp only [acceptedEpochs, List.mem_cons, List.not_mem_nil, or_false]
  tauto

theorem length_of_validateInner {inner : Bytes} {direction : Direction}
    (h : validateInner inner direction = .ok ()) :
    headerLen + sampleLen ≤ inner.length ∧ inner.length ≤ maxInnerDatagramLen := by
  unfold validateInner at h
  split_ifs at h with hl
  omega

namespace SpeedyCodec

variable (lib : Libraries)

def frameAt (codec : SpeedyCodec) (direction : Direction) (epoch : UInt64) (inner : Bytes) :
    Bytes :=
  let route := codec.routingTagAt lib direction epoch
  let masked := route ++ maskHeader inner (codec.headerMask lib direction route inner)
  masked ++ codec.authTag lib direction masked

def encodeAtInto (codec : SpeedyCodec) (cache : Option RouteCache) (inner : Bytes)
    (direction : Direction) (epoch : UInt64) (output : Bytes) :
    Option RouteCache × Bytes × Except SpeedyError Unit :=
  let output := Vec.clear output
  match validateInner inner direction with
  | .error e => (cache, output, .error e)
  | .ok () =>
    let (cache, tags) := codec.tags lib cache direction epoch
    let route := tags.headD []
    let mask := codec.headerMask lib direction route inner
    let output := output ++ route ++ inner
    let output := output.take routingTagLen ++ maskHeader (output.drop routingTagLen) mask
    (some cache, output ++ codec.authTag lib direction output, .ok ())

def encodeInto (codec : SpeedyCodec) (cache : Option RouteCache) (inner : Bytes)
    (direction : Direction) (now : ClockReading) (output : Bytes) :
    Option RouteCache × Bytes × Except SpeedyError Unit :=
  let output := Vec.clear output
  match currentEpoch now with
  | .error e => (cache, output, .error e)
  | .ok epoch => codec.encodeAtInto lib cache inner direction epoch output

def decodeAtInto (codec : SpeedyCodec) (cache : Option RouteCache) (input : Bytes)
    (direction : Direction) (epoch : UInt64) (output : Bytes) :
    Option RouteCache × Bytes × Except SpeedyError Unit :=
  let output := Vec.clear output
  if input.length < minFrameLen ∨ input.length > maxDatagramLen then
    (cache, output, .error .invalidLength)
  else
    let route := input.take routingTagLen
    let (cache, tags) := codec.tags lib cache direction epoch
    if !tags.contains route then (some cache, output, .error .unknownRoutingTag)
    else
      let bound := input.length - authTagLen
      if codec.authTag lib direction (input.take bound) ≠ input.drop bound then
        (some cache, output, .error .authentication)
      else
        let inner := (input.take bound).drop routingTagLen
        let mask := codec.headerMask lib direction route inner
        let output := maskHeader (output ++ inner) mask
        match validateInner output direction with
        | .error e => (some cache, Vec.clear output, .error e)
        | .ok () => (some cache, output, .ok ())

def decodeInto (codec : SpeedyCodec) (cache : Option RouteCache) (input : Bytes)
    (direction : Direction) (now : ClockReading) (output : Bytes) :
    Option RouteCache × Bytes × Except SpeedyError Unit :=
  let output := Vec.clear output
  match currentEpoch now with
  | .error e => (cache, output, .error e)
  | .ok epoch => codec.decodeAtInto lib cache input direction epoch output

inductive Call
  | encode (inner : Bytes) (direction : Direction) (epoch : UInt64) (output : Bytes)
  | decode (input : Bytes) (direction : Direction) (epoch : UInt64) (output : Bytes)

def serve (codec : SpeedyCodec) (cache : Option RouteCache) :
    Call → Option RouteCache × Bytes × Except SpeedyError Unit
  | .encode inner direction epoch output =>
    codec.encodeAtInto lib cache inner direction epoch output
  | .decode input direction epoch output =>
    codec.decodeAtInto lib cache input direction epoch output

def cacheAfter (codec : SpeedyCodec) (history : List Call) : Option RouteCache :=
  Machine.run (codec.serve lib) none history

variable {lib}

@[simp] theorem routingTagAt_length (codec : SpeedyCodec) (direction : Direction)
    (epoch : UInt64) : (codec.routingTagAt lib direction epoch).length = routingTagLen := by
  simp [routingTagAt, routingTagLen]

@[simp] theorem authTag_length (codec : SpeedyCodec) (direction : Direction) (frame : Bytes) :
    (codec.authTag lib direction frame).length = authTagLen := by
  simp [authTag, authTagLen]

@[simp] theorem frameAt_length (codec : SpeedyCodec) (direction : Direction) (epoch : UInt64)
    (inner : Bytes) :
    (codec.frameAt lib direction epoch inner).length = inner.length + overhead := by
  simp [frameAt, overhead]
  omega

theorem take_frameAt (codec : SpeedyCodec) (direction : Direction) (epoch : UInt64)
    (inner : Bytes) : (codec.frameAt lib direction epoch inner).take routingTagLen =
      codec.routingTagAt lib direction epoch := by
  rw [frameAt, List.append_assoc, List.take_left' (by simp)]

theorem headerMask_maskHeader (codec : SpeedyCodec) (direction : Direction) (route : Bytes)
    {inner : Bytes} (mask : Array32) (h : headerLen + sampleLen ≤ inner.length) :
    codec.headerMask lib direction route (maskHeader inner mask) =
      codec.headerMask lib direction route inner := by
  rw [headerMask, maskHeader_length, drop_sample_maskHeader mask h, headerMask]

theorem valid_none (codec : SpeedyCodec) : codec.Valid lib none := by
  simp [Valid]

theorem valid_computeTags (codec : SpeedyCodec) (epoch : UInt64) :
    codec.Valid lib (some (codec.computeTags lib epoch)) := by
  rintro cached ⟨⟩
  rfl

theorem encodeAt_of_valid {codec : SpeedyCodec} {cache : Option RouteCache}
    (h : codec.Valid lib cache) (inner : Bytes) (direction : Direction) (epoch : UInt64) :
    codec.Valid lib (codec.encodeAt lib cache inner direction epoch).1 ∧
      (codec.encodeAt lib cache inner direction epoch).2 =
        (validateInner inner direction).map fun _ => codec.frameAt lib direction epoch inner := by
  unfold encodeAt
  cases validateInner inner direction with
  | error e => exact ⟨h, rfl⟩
  | ok u =>
    simp only [tags_of_valid h]
    exact ⟨codec.valid_computeTags epoch, rfl⟩

theorem decodeAt_valid {codec : SpeedyCodec} {cache : Option RouteCache}
    (h : codec.Valid lib cache) (input : Bytes) (direction : Direction) (epoch : UInt64) :
    codec.Valid lib (codec.decodeAt lib cache input direction epoch).1 := by
  simp only [decodeAt, tags_of_valid h]
  split_ifs
  · exact h
  · exact codec.valid_computeTags epoch
  · exact codec.valid_computeTags epoch
  · split <;> exact codec.valid_computeTags epoch

theorem decodeAt_ok_iff {codec : SpeedyCodec} {cache : Option RouteCache}
    (h : codec.Valid lib cache) {input inner : Bytes} {direction : Direction} {epoch : UInt64} :
    (codec.decodeAt lib cache input direction epoch).2 = .ok inner ↔
      ∃ e ∈ acceptedEpochs epoch, validateInner inner direction = .ok () ∧
        input = codec.frameAt lib direction e inner := by
  simp only [decodeAt, tags_of_valid h]
  constructor
  · intro hd
    split_ifs at hd with hlen htag hauth
    simp only [Bool.not_eq_true', Bool.not_eq_false, List.contains_iff_mem, computeTags,
      List.mem_map] at htag
    obtain ⟨e, he, hroute⟩ := htag
    simp only [ne_eq, not_not] at hauth
    set bound := input.length - authTagLen with hbound
    set masked := (input.take bound).drop routingTagLen with hmasked
    have hmin : minFrameLen ≤ input.length := by omega
    have hlm : headerLen + sampleLen ≤ masked.length := by
      simp only [hmasked, List.length_drop, List.length_take, hbound, minFrameLen, overhead,
        routingTagLen, authTagLen, headerLen, sampleLen] at hmin ⊢
      omega
    split at hd
    · simp at hd
    · rename_i hvalid
      simp only [Except.ok.injEq] at hd
      subst hd
      refine ⟨e, he, hvalid, ?_⟩
      -- the header mask is the same for the masked and for the plain datagram
      have hfront : (input.take bound).take routingTagLen = input.take routingTagLen := by
        rw [List.take_take, min_eq_left]
        simp only [hbound, minFrameLen, overhead, routingTagLen, authTagLen] at hmin ⊢
        omega
      have hsplit : input.take routingTagLen ++ masked = input.take bound := by
        rw [← hfront, hmasked, List.take_append_drop]
      rw [frameAt, hroute, headerMask_maskHeader _ _ _ _ hlm, maskHeader_maskHeader _ (by omega),
        hsplit, hauth, List.take_append_drop]
  · rintro ⟨e, he, hvalid, rfl⟩
    obtain ⟨hmin, hmax⟩ := length_of_validateInner hvalid
    rw [if_neg (by
      simp only [frameAt_length, minFrameLen, maxInnerDatagramLen] at hmin hmax ⊢
      have : overhead ≤ maxDatagramLen := by decide
      omega)]
    rw [take_frameAt, if_neg (by simpa [computeTags] using ⟨e, he, rfl⟩)]
    have hbound : (codec.frameAt lib direction e inner).length - authTagLen =
        (codec.routingTagAt lib direction e ++ maskHeader inner
          (codec.headerMask lib direction (codec.routingTagAt lib direction e) inner)).length := by
      simp [overhead]
      omega
    rw [hbound, frameAt, List.take_left, List.drop_left, if_neg (by simp),
      List.drop_left' (by simp), headerMask_maskHeader _ _ _ _ hmin,
      maskHeader_maskHeader _ (by omega), hvalid]

def buffered : Except SpeedyError Bytes → Bytes × Except SpeedyError Unit
  | .ok output => (output, .ok ())
  | .error e => ([], .error e)

theorem encodeAtInto_eq {codec : SpeedyCodec} {cache : Option RouteCache}
    (h : codec.Valid lib cache) (inner : Bytes) (direction : Direction) (epoch : UInt64)
    (output : Bytes) :
    codec.encodeAtInto lib cache inner direction epoch output =
      ((codec.encodeAt lib cache inner direction epoch).1,
        buffered (codec.encodeAt lib cache inner direction epoch).2) := by
  unfold encodeAtInto encodeAt
  cases validateInner inner direction with
  | error e => rfl
  | ok u =>
    simp only [tags_of_valid h, Vec.clear, List.nil_append]
    have hroute : (((codec.computeTags lib epoch).tags direction).headD []).length =
        routingTagLen := codec.routingTagAt_length direction epoch
    rw [List.take_left' hroute, List.drop_left' hroute]
    rfl

theorem decodeAtInto_eq (codec : SpeedyCodec) (cache : Option RouteCache) (input : Bytes)
    (direction : Direction) (epoch : UInt64) (output : Bytes) :
    codec.decodeAtInto lib cache input direction epoch output =
      ((codec.decodeAt lib cache input direction epoch).1,
        buffered (codec.decodeAt lib cache input direction epoch).2) := by
  simp only [decodeAtInto, decodeAt, Vec.clear, List.nil_append]
  split_ifs
  · rfl
  · rfl
  · rfl
  · generalize validateInner _ direction = checked
    cases checked <;> rfl

theorem valid_cacheAfter (codec : SpeedyCodec) (lib : Libraries) (history : List Call) :
    codec.Valid lib (codec.cacheAfter lib history) := by
  refine Machine.run_invariant (codec.serve lib) (codec.Valid lib) ?_ codec.valid_none history
  rintro cache (⟨inner, direction, epoch, output⟩ | ⟨input, direction, epoch, output⟩) h
  · rw [serve, encodeAtInto_eq h]
    exact (encodeAt_of_valid h inner direction epoch).1
  · rw [serve, decodeAtInto_eq]
    exact decodeAt_valid h input direction epoch

theorem buffered_eq_ok {result : Except SpeedyError Bytes} {output : Bytes} :
    buffered result = (output, .ok ()) ↔ result = .ok output := by
  cases result <;> simp [buffered]

theorem buffered_error {result : Except SpeedyError Bytes} {e : SpeedyError}
    (h : (buffered result).2 = .error e) : (buffered result).1 = [] := by
  cases result with
  | error _ => rfl
  | ok output => simp [buffered] at h

theorem encodeAtInto_ok_iff {codec : SpeedyCodec} {cache : Option RouteCache}
    (h : codec.Valid lib cache) {inner frame : Bytes} {direction : Direction} {epoch : UInt64}
    (output : Bytes) :
    (codec.encodeAtInto lib cache inner direction epoch output).2 = (frame, .ok ()) ↔
      validateInner inner direction = .ok () ∧ codec.frameAt lib direction epoch inner = frame := by
  rw [encodeAtInto_eq h, buffered_eq_ok, (encodeAt_of_valid h inner direction epoch).2]
  cases validateInner inner direction <;> simp [Except.map]

theorem decodeAtInto_ok_iff {codec : SpeedyCodec} {cache : Option RouteCache}
    (h : codec.Valid lib cache) {input inner : Bytes} {direction : Direction} {epoch : UInt64}
    (output : Bytes) :
    (codec.decodeAtInto lib cache input direction epoch output).2 = (inner, .ok ()) ↔
      ∃ e ∈ acceptedEpochs epoch, validateInner inner direction = .ok () ∧
        input = codec.frameAt lib direction e inner := by
  rw [decodeAtInto_eq, buffered_eq_ok, decodeAt_ok_iff h]

theorem encodeInto_ok_iff {codec : SpeedyCodec} {cache : Option RouteCache}
    (h : codec.Valid lib cache) {inner frame : Bytes} {direction : Direction} {now : ClockReading}
    (output : Bytes) :
    (codec.encodeInto lib cache inner direction now output).2 = (frame, .ok ()) ↔
      ∃ seconds, now = some seconds ∧ validateInner inner direction = .ok () ∧
        codec.frameAt lib direction (seconds / epochSeconds) inner = frame := by
  cases now with
  | none => simp [encodeInto, currentEpoch]
  | some seconds =>
    simp only [encodeInto, currentEpoch, encodeAtInto_ok_iff h, Option.some.injEq, exists_eq_left']

theorem decodeInto_ok_iff {codec : SpeedyCodec} {cache : Option RouteCache}
    (h : codec.Valid lib cache) {input inner : Bytes} {direction : Direction} {now : ClockReading}
    (output : Bytes) :
    (codec.decodeInto lib cache input direction now output).2 = (inner, .ok ()) ↔
      ∃ seconds, now = some seconds ∧ ∃ e ∈ acceptedEpochs (seconds / epochSeconds),
        validateInner inner direction = .ok () ∧ input = codec.frameAt lib direction e inner := by
  cases now with
  | none => simp [decodeInto, currentEpoch]
  | some seconds =>
    simp only [decodeInto, currentEpoch, decodeAtInto_ok_iff h, Option.some.injEq,
      exists_eq_left']

theorem decodeInto_encodeInto {codec : SpeedyCodec} {cache cache' : Option RouteCache}
    (h : codec.Valid lib cache) (h' : codec.Valid lib cache') {inner frame buffer : Bytes}
    {direction : Direction} {sent received : UInt64}
    (hadj : Adjacent (sent / epochSeconds) (received / epochSeconds))
    (he : (codec.encodeInto lib cache inner direction (some sent) buffer).2 = (frame, .ok ()))
    (output : Bytes) :
    (codec.decodeInto lib cache' frame direction (some received) output).2 = (inner, .ok ()) := by
  obtain ⟨_, ⟨⟩, hv, rfl⟩ := (encodeInto_ok_iff h buffer).mp he
  exact (decodeInto_ok_iff h' output).mpr
    ⟨received, rfl, _, mem_acceptedEpochs.mpr hadj, hv, rfl⟩

theorem encodeInto_eq {codec : SpeedyCodec} {cache : Option RouteCache}
    (h : codec.Valid lib cache) (inner : Bytes) (direction : Direction) (now : ClockReading)
    (output : Bytes) :
    (codec.encodeInto lib cache inner direction now output).2 =
      buffered (codec.encode lib none inner direction now).2 := by
  rw [← (encode_of_valid h inner direction now).2]
  unfold encodeInto encode
  cases currentEpoch now with
  | error e => rfl
  | ok epoch => simp only [encodeAtInto_eq h]

theorem decodeInto_eq {codec : SpeedyCodec} {cache : Option RouteCache}
    (h : codec.Valid lib cache) (input : Bytes) (direction : Direction) (now : ClockReading)
    (output : Bytes) :
    (codec.decodeInto lib cache input direction now output).2 =
      buffered (codec.decode lib none input direction now).2 := by
  rw [← (decode_of_valid h input direction now).2]
  unfold decodeInto decode
  cases currentEpoch now with
  | error e => rfl
  | ok epoch => simp only [decodeAtInto_eq]

theorem serve_eq_none {codec : SpeedyCodec} {cache : Option RouteCache}
    (h : codec.Valid lib cache) (call : Call) :
    (codec.serve lib cache call).2 = (codec.serve lib none call).2 := by
  cases call with
  | encode inner direction epoch output =>
    rw [serve, serve, encodeAtInto_eq h, encodeAtInto_eq codec.valid_none,
      (encodeAt_of_valid h inner direction epoch).2,
      (encodeAt_of_valid codec.valid_none inner direction epoch).2]
  | decode input direction epoch output =>
    rw [serve, serve, decodeAtInto_eq, decodeAtInto_eq]
    simp only [decodeAt, tags_of_valid h, tags_of_valid codec.valid_none]
    split_ifs
    · rfl
    · rfl
    · rfl
    · split <;> rfl

theorem serve_error {codec : SpeedyCodec} {cache : Option RouteCache}
    (h : codec.Valid lib cache) (call : Call) {e : SpeedyError}
    (he : (codec.serve lib cache call).2.2 = .error e) :
    (codec.serve lib cache call).2.1 = [] := by
  cases call with
  | encode inner direction epoch output =>
    rw [serve, encodeAtInto_eq h] at he ⊢
    exact buffered_error he
  | decode input direction epoch output =>
    rw [serve, decodeAtInto_eq] at he ⊢
    exact buffered_error he

theorem frameAt_inj {codec : SpeedyCodec} {direction : Direction} {epoch : UInt64}
    {inner inner' : Bytes} (h : validateInner inner direction = .ok ())
    (h' : validateInner inner' direction = .ok ())
    (hf : codec.frameAt lib direction epoch inner = codec.frameAt lib direction epoch inner') :
    inner = inner' := by
  have hself : epoch ∈ acceptedEpochs epoch := by simp [acceptedEpochs]
  have hd : (codec.decodeAt lib none (codec.frameAt lib direction epoch inner) direction epoch).2 =
      .ok inner := (decodeAt_ok_iff codec.valid_none).mpr ⟨epoch, hself, h, rfl⟩
  have hd' := (decodeAt_ok_iff codec.valid_none).mpr ⟨epoch, hself, h', hf⟩
  exact Except.ok.inj (hd.symm.trans hd')

/-- After any calls on the encoding side and any calls on the decoding side, the decoder
inverts the encoder: it accepts exactly the encodings under its three accepted epochs. -/
theorem decode_inverts_encode (codec : SpeedyCodec) (sent received : List Call) :
    let senderCache := codec.cacheAfter lib sent
    let receiverCache := codec.cacheAfter lib received
    (∀ direction frame epoch inner output output',
      (codec.decodeAtInto lib receiverCache frame direction epoch output).2 = (inner, .ok ()) ↔
        ∃ e ∈ acceptedEpochs epoch, validateInner inner direction = .ok () ∧
          (codec.encodeAtInto lib senderCache inner direction e output').2 = (frame, .ok ())) ∧
    (∀ call e, (codec.serve lib receiverCache call).2.2 = .error e →
      (codec.serve lib receiverCache call).2.1 = []) ∧
    (∀ direction epoch inner inner' frame output output',
      (codec.encodeAtInto lib senderCache inner direction epoch output).2 = (frame, .ok ()) →
      (codec.encodeAtInto lib senderCache inner' direction epoch output').2 = (frame, .ok ()) →
      inner = inner') ∧
    (∀ direction epoch epoch' inner frame output output', Adjacent epoch epoch' →
      (codec.encodeAtInto lib senderCache inner direction epoch output).2 = (frame, .ok ()) →
      (codec.decodeAtInto lib receiverCache frame direction epoch' output').2 =
        (inner, .ok ())) ∧
    (∀ call, (codec.serve lib senderCache call).2 = (codec.serve lib receiverCache call).2) := by
  have hs := codec.valid_cacheAfter lib sent
  have hr := codec.valid_cacheAfter lib received
  refine ⟨?_, fun call e he => serve_error hr call he, ?_, ?_, fun call => ?_⟩
  · intro direction frame epoch inner output output'
    rw [decodeAtInto_ok_iff hr]
    simp only [encodeAtInto_ok_iff hs]
    constructor
    · rintro ⟨e, he, hv, rfl⟩
      exact ⟨e, he, hv, hv, rfl⟩
    · rintro ⟨e, he, hv, -, rfl⟩
      exact ⟨e, he, hv, rfl⟩
  · intro direction epoch inner inner' frame output output' h h'
    obtain ⟨hv, rfl⟩ := (encodeAtInto_ok_iff hs output).mp h
    obtain ⟨hv', hf⟩ := (encodeAtInto_ok_iff hs output').mp h'
    exact frameAt_inj hv hv' hf.symm
  · intro direction epoch epoch' inner frame output output' hadj h
    obtain ⟨hv, rfl⟩ := (encodeAtInto_ok_iff hs output).mp h
    exact (decodeAtInto_ok_iff hr output').mpr ⟨epoch, mem_acceptedEpochs.mpr hadj, hv, rfl⟩
  · rw [serve_eq_none hs, serve_eq_none hr]

end SpeedyCodec

end MouseVpn.Wire.Speedy
