import MouseVpn.Server.Routes

/-!
# Decoding a datagram from the wire

The first eight bytes decide. A tag in a table commits the datagram to that codec:
it is opened with the key of the owner or dropped, and never passed on unmasked. The
buffers for the output are reused and hold the previous datagram at the start.
-/

namespace MouseVpn.Server

open MouseVpn.Lib MouseVpn.Crypto MouseVpn.Wire
open MouseVpn.Wire.Morph (MorphCodec MorphKey Profile)
open MouseVpn.Wire.Speedy (SpeedyCodec SpeedyKey)

section Buffer

variable (lib : Libraries) (config : ValidatedServerConfig) (clock : RouterClock)
  (iteration : IterationOrder) (calls : SpeedyCodec → List SpeedyCodec.Call)

/-- `decode_wire_into` on a buffer. `calls` are the earlier calls on each Speedy codec and
its clones, which share a cache of tags. -/
def decodeWireBuffer (input : Bytes) (registry : DeviceRegistry) (router : MorphRouter)
    (output : Bytes) : MorphRouter × Bytes × Option WireMode :=
  match router.resolve lib config clock iteration input registry with
  | (router, none) =>
    if 8 ≤ input.length ∧ input.take 8 ∈ router.ambiguous then (router, output, none)
    else
      match if 8 ≤ input.length then router.speedyRoutes.lookup (input.take 8) else none with
      | some (publicKey, codec) =>
        match (codec.decodeInto lib (codec.cacheAfter lib (calls codec)) input .clientToServer
            clock.frame output).2 with
        | (output, .error _) => (router, output, none)
        | (output, .ok ()) => (router, output, some (.speedy publicKey codec))
      | none => (router, Vec.clear output ++ input, some .legacy)
  | (router, some route) =>
    match MorphCodec.decodeInto lib ⟨route.key, route.profile⟩ input .clientToServer clock.frame
        output with
    | (output, .ok (.payload profile)) =>
      (router, output, some (.morph route.publicKey ⟨route.key, profile⟩))
    | (output, .ok (.cover _)) => (router, output, none)
    | (output, .error _) => (router, output, none)

theorem decodeWireInto_eq (input : Bytes) (registry : DeviceRegistry) (router : MorphRouter)
    (output : Bytes) :
    decodeWireInto lib config clock iteration input registry router =
      ((decodeWireBuffer lib config clock iteration calls input registry router output).1,
        (decodeWireBuffer lib config clock iteration calls input registry router output).2.2.map
          fun wire => (wire,
            (decodeWireBuffer lib config clock iteration calls input registry router
              output).2.1)) := by
  unfold decodeWireInto decodeWireBuffer
  rcases router.resolve lib config clock iteration input registry with ⟨r, _ | route⟩
  · simp only
    by_cases hamb : 8 ≤ input.length ∧ input.take 8 ∈ r.ambiguous
    · rw [if_pos hamb, if_pos hamb]
      rfl
    rw [if_neg hamb, if_neg hamb]
    rcases if 8 ≤ input.length then r.speedyRoutes.lookup (input.take 8) else none with
      - | ⟨publicKey, codec⟩
    · rfl
    · simp only [SpeedyCodec.decodeInto_eq (codec.valid_cacheAfter lib (calls codec))]
      cases (codec.decode lib none input .clientToServer clock.frame).2 <;> rfl
  · simp only
    rcases hd : MorphCodec.decodeInto lib ⟨route.key, route.profile⟩ input .clientToServer
      clock.frame output with ⟨result, error | profile | profile⟩
    · cases hp : MorphCodec.decode lib ⟨route.key, route.profile⟩ input .clientToServer
        clock.frame with
      | error e => rfl
      | ok decoded =>
        obtain ⟨frame, inner⟩ := decoded
        rw [(MorphCodec.decode_ok_iff output).mp hp] at hd
        cases hd
    · rw [(MorphCodec.decode_ok_iff output).mpr hd]
      rfl
    · rw [(MorphCodec.decode_ok_iff output).mpr hd]
      rfl

namespace WireMode

/-- `encode_server` on a buffer. -/
def encodeServerInto (wire : WireMode) (inner : Bytes) (sources : FrameSources) (output : Bytes) :
    Bytes × Except Unit Unit :=
  match wire with
  | .legacy => (Vec.clear output ++ inner, .ok ())
  | .morph _ codec =>
    match codec.encodePayloadInto lib inner .serverToClient sources.now sources.random output with
    | (output, .error _) => (output, .error ())
    | (output, .ok ()) => (output, .ok ())
  | .speedy _ codec =>
    match (codec.encodeInto lib (codec.cacheAfter lib (calls codec)) inner .serverToClient
        sources.now output).2 with
    | (output, .error _) => (output, .error ())
    | (output, .ok ()) => (output, .ok ())

theorem encodeServerInto_morph {publicKey : PublicKey} {codec : MorphCodec}
    {inner frame output : Bytes} {sources : FrameSources} :
    encodeServerInto lib calls (.morph publicKey codec) inner sources output = (frame, .ok ()) ↔
      codec.encodePayloadInto lib inner .serverToClient sources.now sources.random output =
        (frame, .ok ()) := by
  simp only [encodeServerInto]
  rcases codec.encodePayloadInto lib inner .serverToClient sources.now sources.random output with
    ⟨result, error | ⟨⟩⟩ <;> simp

theorem encodeServerInto_speedy {publicKey : PublicKey} {codec : SpeedyCodec}
    {inner frame output : Bytes} {sources : FrameSources} :
    encodeServerInto lib calls (.speedy publicKey codec) inner sources output = (frame, .ok ()) ↔
      (codec.encodeInto lib (codec.cacheAfter lib (calls codec)) inner .serverToClient sources.now
        output).2 = (frame, .ok ()) := by
  simp only [encodeServerInto]
  rcases (codec.encodeInto lib (codec.cacheAfter lib (calls codec)) inner .serverToClient
    sources.now output).2 with ⟨result, error | ⟨⟩⟩ <;> simp

theorem encodeServerInto_ok_iff {wire : WireMode} {inner frame : Bytes} {sources : FrameSources}
    (output : Bytes) :
    wire.encodeServerInto lib calls inner sources output = (frame, .ok ()) ↔
      wire.encodeServer lib inner sources = some frame := by
  cases wire with
  | legacy => simp [encodeServerInto, encodeServer, Vec.clear]
  | morph publicKey codec =>
    simp only [encodeServerInto, encodeServer]
    rcases he : codec.encodePayloadInto lib inner .serverToClient sources.now sources.random
      output with ⟨result, error | ⟨⟩⟩
    · cases hp : codec.encodePayload lib inner .serverToClient sources.now sources.random with
      | error e => simp [Except.toOption]
      | ok frame' =>
        rw [(MorphCodec.encodePayloadInto_ok_iff output).mpr hp] at he
        cases he
    · rw [(MorphCodec.encodePayloadInto_ok_iff output).mp he]
      simp [Except.toOption]
  | speedy publicKey codec =>
    simp only [encodeServerInto, encodeServer,
      SpeedyCodec.encodeInto_eq (codec.valid_cacheAfter lib (calls codec))]
    cases (codec.encode lib none inner .serverToClient sources.now).2 <;>
      simp [SpeedyCodec.buffered, Except.toOption]

end WireMode

end Buffer

def MorphOpens (lib : Libraries) (now : ClockReading) (codec : MorphCodec)
    (input inner : Bytes) : Prop :=
  ∃ seconds, now = some seconds ∧ ∃ plaintext,
    Morph.Accepts lib codec.key codec.profile .clientToServer
      (seconds / codec.profile.epochSeconds) input plaintext ∧
    Morph.Carries codec.profile plaintext (.payload codec.profile) inner

def SpeedyOpens (lib : Libraries) (now : ClockReading) (codec : SpeedyCodec)
    (input inner : Bytes) : Prop :=
  ∃ seconds, now = some seconds ∧
    ∃ epoch ∈ Speedy.acceptedEpochs (seconds / Speedy.epochSeconds),
      Speedy.validateInner inner .clientToServer = .ok () ∧
      input = codec.frameAt lib .clientToServer epoch inner

inductive Decodes (lib : Libraries) (now : ClockReading) (r : MorphRouter) (input : Bytes) :
    Bytes → Option WireMode → Prop
  | dropped (output : Bytes) : Decodes lib now r input output none
  | legacy (h : 8 ≤ input.length → r.routes.lookup (input.take 8) = none ∧
      r.speedyRoutes.lookup (input.take 8) = none ∧ input.take 8 ∉ r.ambiguous) :
      Decodes lib now r input input (some .legacy)
  | speedy {publicKey : PublicKey} {codec : SpeedyCodec} {inner : Bytes}
      (hs : r.speedyRoutes.lookup (input.take 8) = some (publicKey, codec))
      (ha : input.take 8 ∉ r.ambiguous) (ho : SpeedyOpens lib now codec input inner) :
      Decodes lib now r input inner (some (.speedy publicKey codec))
  | morph {route : MorphRoute} {inner : Bytes}
      (hr : r.routes.lookup (input.take 8) = some route)
      (ho : MorphOpens lib now ⟨route.key, route.profile⟩ input inner) :
      Decodes lib now r input inner (some (.morph route.publicKey ⟨route.key, route.profile⟩))

namespace MorphRouter

variable {lib : Libraries} {config : ValidatedServerConfig} {clock : RouterClock}
  {iteration : IterationOrder} {calls : SpeedyCodec → List SpeedyCodec.Call}
  {registry : DeviceRegistry} {router : MorphRouter} {seconds : UInt64}

theorem decodeWireBuffer_spec (hr : Reachable lib config router)
    (hclock : clock.resolve = some seconds)
    (hrefresh : router.epoch ≠ some seconds →
      (router.refresh lib config clock iteration seconds registry).2 = .ok ())
    (input output : Bytes) :
    let result := decodeWireBuffer lib config clock iteration calls input registry router output
    Reachable lib config result.1 ∧
      Decodes lib clock.frame result.1 input result.2.1 result.2.2 := by
  unfold decodeWireBuffer
  by_cases hlen : 8 ≤ input.length
  · rw [resolve_eq hclock hrefresh hlen]
    have hcurrent := hr.current clock iteration seconds registry
    generalize router.current lib config clock iteration seconds registry = r at hcurrent ⊢
    cases hroute : r.routes.lookup (input.take 8) with
    | none =>
      simp only [hlen, true_and, if_true]
      split_ifs with hamb
      · exact ⟨hcurrent, .dropped output⟩
      rcases hs : r.speedyRoutes.lookup (input.take 8) with - | ⟨publicKey, codec⟩
      · exact ⟨hcurrent, .legacy fun _ => ⟨hroute, hs, hamb⟩⟩
      · rcases hd : (codec.decodeInto lib (codec.cacheAfter lib (calls codec)) input
          .clientToServer clock.frame output).2 with ⟨inner, error | ⟨⟩⟩ <;> simp only [hd]
        · exact ⟨hcurrent, .dropped inner⟩
        · exact ⟨hcurrent, .speedy hs hamb
            ((SpeedyCodec.decodeInto_ok_iff (codec.valid_cacheAfter lib _) output).mp hd)⟩
    | some route =>
      simp only
      rcases hd : MorphCodec.decodeInto lib ⟨route.key, route.profile⟩ input .clientToServer
        clock.frame output with ⟨inner, error | profile | profile⟩
      · exact ⟨hcurrent, .dropped inner⟩
      · exact ⟨hcurrent, .dropped inner⟩
      · have ho := (MorphCodec.decodeInto_ok_iff output).mp hd
        obtain ⟨_, _, _, _, rfl, -⟩ := id ho
        exact ⟨hcurrent, .morph hroute ho⟩
  · have hshort : router.resolve lib config clock iteration input registry = (router, none) := by
      rw [MorphRouter.resolve, if_pos (not_le.mp hlen)]
    rw [hshort]
    simp only [hlen, false_and, if_false]
    exact ⟨hr, .legacy fun h => absurd h hlen⟩

theorem decodeWireBuffer_morph (hclock : clock.resolve = some seconds)
    (hrefresh : router.epoch ≠ some seconds →
      (router.refresh lib config clock iteration seconds registry).2 = .ok ())
    {input inner output : Bytes} {route : MorphRoute} {profile : Profile} (hlen : 8 ≤ input.length)
    (hroute : (router.current lib config clock iteration seconds registry).routes.lookup
      (input.take 8) = some route)
    (hd : MorphCodec.decodeInto lib ⟨route.key, route.profile⟩ input .clientToServer clock.frame
      output = (inner, .ok (.payload profile))) :
    (decodeWireBuffer lib config clock iteration calls input registry router output).2 =
      (inner, some (.morph route.publicKey ⟨route.key, profile⟩)) := by
  simp only [decodeWireBuffer, resolve_eq hclock hrefresh hlen, hroute, hd]

theorem decodeWireBuffer_speedy (hclock : clock.resolve = some seconds)
    (hrefresh : router.epoch ≠ some seconds →
      (router.refresh lib config clock iteration seconds registry).2 = .ok ())
    {input inner output : Bytes} {publicKey : PublicKey} {codec : SpeedyCodec}
    (hlen : 8 ≤ input.length)
    (hroute : (router.current lib config clock iteration seconds registry).routes.lookup
      (input.take 8) = none)
    (hamb : input.take 8 ∉ (router.current lib config clock iteration seconds registry).ambiguous)
    (hs : (router.current lib config clock iteration seconds registry).speedyRoutes.lookup
      (input.take 8) = some (publicKey, codec))
    (hd : (codec.decodeInto lib (codec.cacheAfter lib (calls codec)) input .clientToServer
      clock.frame output).2 = (inner, .ok ())) :
    (decodeWireBuffer lib config clock iteration calls input registry router output).2 =
      (inner, some (.speedy publicKey codec)) := by
  simp only [decodeWireBuffer, resolve_eq hclock hrefresh hlen, hroute, hamb, and_false, if_false,
    if_pos hlen, hs, hd]

theorem decodeWireBuffer_legacy (hclock : clock.resolve = some seconds)
    (hrefresh : router.epoch ≠ some seconds →
      (router.refresh lib config clock iteration seconds registry).2 = .ok ())
    {input output : Bytes}
    (hcell : 8 ≤ input.length →
      (router.current lib config clock iteration seconds registry).cell (input.take 8) =
        Cell.of .free) :
    (decodeWireBuffer lib config clock iteration calls input registry router output).2 =
      (input, some .legacy) := by
  by_cases hlen : 8 ≤ input.length
  · have hroute := congrArg Cell.route (hcell hlen)
    have hs := congrArg Cell.speedyRoute (hcell hlen)
    have hamb := congrArg Cell.ambiguous (hcell hlen)
    simp only [cell, Cell.of, decide_eq_false_iff_not] at hroute hs hamb
    simp only [decodeWireBuffer, resolve_eq hclock hrefresh hlen, hroute, hamb, and_false,
      if_false, if_pos hlen, hs, Vec.clear, List.nil_append]
  · have hshort : router.resolve lib config clock iteration input registry = (router, none) := by
      rw [MorphRouter.resolve, if_pos (not_le.mp hlen)]
    simp only [decodeWireBuffer, hshort, hlen, false_and, if_false, Vec.clear, List.nil_append]

theorem Reachable.deviceMorphKey {r : MorphRouter} (h : Reachable lib config r) {tag : Bytes}
    {route : MorphRoute} (hl : r.routes.lookup tag = some route) :
    deviceMorphKey lib config route.publicKey = .ok route.key := by
  obtain ⟨bids, hrep, hbids⟩ := h.represents
  obtain ⟨e, clock, hb⟩ := hbids _ (Bids.mem_of_holding (hrep.lookup_routes.mp hl))
  obtain ⟨hd, -, hk⟩ := bid_morph hb
  rw [← hd, hk]

theorem Reachable.deviceSpeedyCodec {r : MorphRouter} (h : Reachable lib config r) {tag : Bytes}
    {publicKey : PublicKey} {codec : SpeedyCodec}
    (hl : r.speedyRoutes.lookup tag = some (publicKey, codec)) :
    deviceSpeedyCodec lib config publicKey = .ok codec := by
  obtain ⟨bids, hrep, hbids⟩ := h.represents
  obtain ⟨e, clock, hb⟩ := hbids _ (Bids.mem_of_holding (hrep.lookup_speedyRoutes.mp hl))
  obtain ⟨hd, -, hk⟩ := bid_speedy hb
  rw [← hd, hk]

/-- A datagram with a tag of the tables is opened with its owner's key or dropped. -/
theorem decode_without_downgrade (hr : Reachable lib config router)
    (hclock : clock.resolve = some seconds)
    (hrefresh : router.epoch ≠ some seconds →
      (router.refresh lib config clock iteration seconds registry).2 = .ok ())
    (calls : SpeedyCodec → List SpeedyCodec.Call) (input output : Bytes) :
    let result := decodeWireBuffer lib config clock iteration calls input registry router output
    let tables := result.1
    let tag := input.take 8
    (8 ≤ input.length → ((tables.routes.lookup tag).isSome ∨
      (tables.speedyRoutes.lookup tag).isSome ∨ tag ∈ tables.ambiguous) →
      result.2.2 ≠ some .legacy) ∧
    (8 ≤ input.length → tag ∈ tables.ambiguous → result.2.2 = none) ∧
    (∀ publicKey codec, result.2.2 = some (.morph publicKey codec) →
      tables.routes.lookup tag = some ⟨publicKey, codec.key, codec.profile⟩ ∧
      deviceMorphKey lib config publicKey = .ok codec.key ∧
      MorphOpens lib clock.frame codec input result.2.1) ∧
    (∀ publicKey codec, result.2.2 = some (.speedy publicKey codec) →
      tables.speedyRoutes.lookup tag = some (publicKey, codec) ∧
      deviceSpeedyCodec lib config publicKey = .ok codec ∧
      SpeedyOpens lib clock.frame codec input result.2.1) ∧
    (∀ route profile buffer, 8 ≤ input.length → tables.routes.lookup tag = some route →
      (MorphCodec.decodeInto lib ⟨route.key, route.profile⟩ input .clientToServer clock.frame
        buffer).2 = .ok (.cover profile) → result.2.2 = none) ∧
    (result.2.2 = some .legacy → result.2.1 = input) := by
  intro result tables tag
  obtain ⟨hreach, hdec⟩ := decodeWireBuffer_spec hr hclock hrefresh input output
  obtain ⟨bids, hrep, -⟩ := hreach.represents
  have hdisjoint := hrep.tables_disjoint tag
  change Decodes lib clock.frame tables input result.2.1 result.2.2 at hdec
  generalize result.2.1 = output' at hdec ⊢
  generalize result.2.2 = mode at hdec ⊢
  cases hdec with
  | dropped => simp
  | legacy h =>
    have hnot : 8 ≤ input.length → ¬ ((tables.routes.lookup tag).isSome ∨
        (tables.speedyRoutes.lookup tag).isSome ∨ tag ∈ tables.ambiguous) := by
      intro hlen
      obtain ⟨hroutes, hspeedy, hamb⟩ := h hlen
      simp [tag, hroutes, hspeedy, hamb]
    refine ⟨fun hlen hin => absurd hin (hnot hlen), fun hlen hin => absurd hin (h hlen).2.2,
      by simp, by simp, fun route profile buffer hlen hl _ => ?_, fun _ => rfl⟩
    exact absurd (Or.inl (by simp [hl])) (hnot hlen)
  | @speedy publicKey codec inner hs ha ho =>
    refine ⟨by simp, fun _ hin => absurd hin ha, by simp, ?_, fun route profile buffer _ hl _ => ?_,
      by simp⟩
    · rintro _ _ ⟨⟩
      exact ⟨hs, hreach.deviceSpeedyCodec hs, ho⟩
    · rw [hdisjoint.1 (Option.isSome_iff_exists.mpr ⟨route, hl⟩)] at hs
      cases hs
  | @morph route inner hroute ho =>
    refine ⟨by simp, fun _ hin => ?_, ?_, by simp, fun route' profile buffer _ hl hcover => ?_,
      by simp⟩
    · rw [(hdisjoint.2 hin).1] at hroute
      cases hroute
    · rintro _ _ ⟨⟩
      exact ⟨hroute, hreach.deviceMorphKey hroute, ho⟩
    · -- the same frame cannot open to a payload and to a cover frame
      rw [hroute] at hl
      cases hl
      rw [(MorphCodec.decodeInto_ok_iff buffer).mpr ho] at hcover
      cases hcover

theorem decode_without_downgrade_sample :
    Reachable clearLibraries sampleConfig .default ∧
    (MorphRouter.default.refresh clearLibraries sampleConfig (.fixed 1000) ⟨id, List.Perm.refl⟩
      1000 sampleRegistry).2 = .ok () ∧
    ∀ input output : Bytes,
      let result := decodeWireBuffer clearLibraries sampleConfig (.fixed 1000)
        ⟨id, List.Perm.refl⟩ (fun _ => []) input sampleRegistry .default output
      8 ≤ input.length → (result.1.speedyRoutes.lookup (input.take 8)).isSome →
        result.2.2 ≠ some .legacy := by
  have hok := (refresh_fixed (.default : Reachable clearLibraries sampleConfig .default) 1000 1000
    ⟨id, List.Perm.refl⟩ sampleRegistry).1
  refine ⟨.default, hok, fun input output hlen hs => ?_⟩
  exact (decode_without_downgrade .default rfl (fun _ => hok) _ input output).1 hlen
    (Or.inr (Or.inl hs))

end MorphRouter

end MouseVpn.Server
