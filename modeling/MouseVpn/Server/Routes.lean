import MouseVpn.Server.RouterTables

/-!
# Which routes a refresh leaves

A tag is routed to a device exactly if that device alone produces it. The tables after a
refresh depend on the registry and on the clock, and not on the tables before.
-/

namespace MouseVpn.Server

open MouseVpn.Lib MouseVpn.Crypto MouseVpn.Wire
open MouseVpn.Wire.Morph (MorphCodec MorphKey Profile)
open MouseVpn.Wire.Speedy (SpeedyCodec SpeedyKey)

namespace MorphRouter

variable {lib : Libraries} {config : ValidatedServerConfig} {clock : RouterClock}

theorem nodup_tableEntries {registry : DeviceRegistry} :
    ((registeredKeys lib registry).flatMap deviceEntries).Nodup :=
  nodup_entries (List.nodup_dedup _)

def Produces (lib : Libraries) (config : ValidatedServerConfig) (clock : RouterClock)
    (registry : DeviceRegistry) (e : RouteEntry) (tag : Bytes) : Prop :=
  (e.device ∈ registeredKeys lib registry ∧
    sharedSecret lib config e.device ≠ Vector.replicate 32 0) ∧
    ∃ owner, e.bid lib config clock = some (tag, owner)

theorem produces_iff {registry : DeviceRegistry} {e : RouteEntry} {tag : Bytes} :
    Produces lib config clock registry e tag ↔
      e ∈ (registeredKeys lib registry).flatMap deviceEntries ∧
        ∃ owner, e.bid lib config clock = some (tag, owner) := by
  have hm : e ∈ (registeredKeys lib registry).flatMap deviceEntries ↔
      e.device ∈ registeredKeys lib registry := by
    simp [List.mem_flatMap, mem_deviceEntries]
  rw [hm]
  constructor
  · rintro ⟨⟨hd, -⟩, hb⟩
    exact ⟨hd, hb⟩
  · rintro ⟨hd, owner, hb⟩
    exact ⟨⟨hd, bid_sharedSecret hb⟩, owner, hb⟩

theorem held_iff {registry : DeviceRegistry} {tag : Bytes} {owner : RouteOwner} :
    Bids.holding (tableBids lib config clock registry) tag = .held owner ↔
      ∃ e, Produces lib config clock registry e tag ∧
        e.bid lib config clock = some (tag, owner) ∧
        ∀ e', Produces lib config clock registry e' tag → e' = e := by
  rw [tableBids, Bids.holding_iff nodup_tableEntries]
  simp only [Bids.Describes, produces_iff]
  constructor
  · rintro ⟨e, he, hb, honly⟩
    refine ⟨e, ⟨he, owner, hb⟩, hb, ?_⟩
    rintro e' ⟨he', o', hb'⟩
    exact honly e' he' o' hb'
  · rintro ⟨e, ⟨he, -⟩, hb, honly⟩
    exact ⟨e, he, hb, fun e' he' o' hb' => honly e' ⟨he', o', hb'⟩⟩

theorem contested_iff {registry : DeviceRegistry} {tag : Bytes} :
    Bids.holding (tableBids lib config clock registry) tag = .contested ↔
      ∃ e e', e ≠ e' ∧ Produces lib config clock registry e tag ∧
        Produces lib config clock registry e' tag := by
  rw [tableBids, Bids.holding_iff nodup_tableEntries]
  simp only [Bids.Describes, produces_iff]
  constructor
  · rintro ⟨e, he, e', he', hne, hb, hb'⟩
    exact ⟨e, e', hne, ⟨he, hb⟩, he', hb'⟩
  · rintro ⟨e, e', hne, ⟨he, hb⟩, he', hb'⟩
    exact ⟨e, he, e', he', hne, hb, hb'⟩

theorem held_of_bid {registry : DeviceRegistry} {e : RouteEntry}
    {tag : Bytes} {owner : RouteOwner} (hd : e.device ∈ registeredKeys lib registry)
    (hb : e.bid lib config clock = some (tag, owner))
    (hunique : ∀ e e', Produces lib config clock registry e tag →
      Produces lib config clock registry e' tag → e = e') :
    Bids.holding (tableBids lib config clock registry) tag = .held owner := by
  have hp : Produces lib config clock registry e tag :=
    ⟨⟨hd, bid_sharedSecret hb⟩, owner, hb⟩
  exact held_iff.mpr ⟨e, hp, hb, fun e' hp' => hunique e' e hp' hp⟩

theorem exists_position {epochs : List UInt64} (hl : epochs.length = 3) {e : UInt64}
    (h : e ∈ epochs) : ∃ position : Fin 3, epochs[position.val]? = some e := by
  obtain ⟨i, hi⟩ := List.mem_iff_getElem?.mp h
  have hlt := (List.getElem?_eq_some_iff.mp hi).1
  exact ⟨⟨i, by omega⟩, hi⟩

theorem bid_morph_of_epoch {device : PublicKey} {key : MorphKey}
    {profile : Profile} {seconds e : UInt64} (hk : deviceMorphKey lib config device = .ok key)
    (hc : clock.profile device profile = some seconds)
    (he : Adjacent e (seconds / profile.epochSeconds)) :
    ∃ position, RouteEntry.bid lib config clock ⟨device, .morph profile, position⟩ =
      some (Morph.routingTagAt lib key profile .clientToServer e,
        .morph ⟨device, key, profile⟩) := by
  obtain ⟨position, hp⟩ := exists_position rfl (Morph.mem_acceptedEpochs.mpr he)
  refine ⟨position, ?_⟩
  simp only [RouteEntry.bid, hk, hc, Morph.currentEpoch, hp, Option.map_some]

theorem bid_speedy_of_epoch {device : PublicKey} {codec : SpeedyCodec}
    {seconds e : UInt64} (hk : deviceSpeedyCodec lib config device = .ok codec)
    (hc : clock.speedy device = some seconds) (he : Adjacent e (seconds / Speedy.epochSeconds)) :
    ∃ position, RouteEntry.bid lib config clock ⟨device, .speedy, position⟩ =
      some (codec.routingTagAt lib .clientToServer e, .speedy device codec) := by
  obtain ⟨position, hp⟩ := exists_position rfl (Speedy.mem_acceptedEpochs.mpr he)
  refine ⟨position, ?_⟩
  simp only [RouteEntry.bid, hk, hc, Speedy.currentEpoch, hp, Option.map_some]

theorem free_iff {registry : DeviceRegistry} {tag : Bytes} :
    Bids.holding (tableBids lib config clock registry) tag = .free ↔
      ∀ e, ¬ Produces lib config clock registry e tag := by
  rw [tableBids, Bids.holding_iff nodup_tableEntries]
  simp only [Bids.Describes, produces_iff]
  constructor
  · rintro h e ⟨he, o, hb⟩
    exact h e he o hb
  · intro h e he o hb
    exact h e ⟨he, o, hb⟩

theorem Represents.routed_iff {r : MorphRouter} {registry : DeviceRegistry}
    (h : r.Represents (tableBids lib config clock registry)) (tag : Bytes) :
    ((r.routes.lookup tag).isSome ∨ (r.speedyRoutes.lookup tag).isSome) ↔
      ∃! e, Produces lib config clock registry e tag := by
  simp only [Option.isSome_iff_exists, Prod.exists, h.lookup_routes, h.lookup_speedyRoutes,
    held_iff]
  constructor
  · rintro (⟨_, e, he, -, honly⟩ | ⟨_, _, e, he, -, honly⟩)
    · exact ⟨e, he, honly⟩
    · exact ⟨e, he, honly⟩
  · rintro ⟨e, he, honly⟩
    obtain ⟨owner, hb⟩ := he.2
    cases owner with
    | morph route => exact Or.inl ⟨route, e, he, hb, honly⟩
    | speedy publicKey codec => exact Or.inr ⟨publicKey, codec, e, he, hb, honly⟩

def SameTables (r r' : MorphRouter) : Prop := ∀ tag, r.cell tag = r'.cell tag

theorem Represents.sameTables {r r' : MorphRouter} {bids : List (Bytes × RouteOwner)}
    (h : r.Represents bids) (h' : r'.Represents bids) : SameTables r r' :=
  fun tag => (h tag).trans (h' tag).symm

theorem Represents.tables_disjoint {r : MorphRouter} {bids : List (Bytes × RouteOwner)}
    (h : r.Represents bids) (tag : Bytes) :
    ((r.routes.lookup tag).isSome → r.speedyRoutes.lookup tag = none) ∧
      (tag ∈ r.ambiguous → r.routes.lookup tag = none ∧ r.speedyRoutes.lookup tag = none) := by
  have hr : r.routes.lookup tag = _ := congrArg Cell.route (h tag)
  have hs : r.speedyRoutes.lookup tag = _ := congrArg Cell.speedyRoute (h tag)
  rw [h.mem_ambiguous, hr, hs]
  rcases Bids.holding bids tag with - | (- | -) | - <;> simp [Cell.of]

theorem refresh_fixed {r : MorphRouter} (hr : Reachable lib config r) (seconds epoch : UInt64)
    (iteration : IterationOrder) (registry : DeviceRegistry) :
    (r.refresh lib config (.fixed seconds) iteration epoch registry).2 = .ok () ∧
    (r.refresh lib config (.fixed seconds) iteration epoch registry).1.epoch = some epoch ∧
    (r.refresh lib config (.fixed seconds) iteration epoch registry).1.Represents
      (tableBids lib config (.fixed seconds) registry) := by
  obtain ⟨-, -, hok, hrep⟩ := refresh_spec hr.cached (.fixed seconds) iteration epoch registry
  have hsucceeds := hok fun device => by simp [RouterClock.fixed]
  exact ⟨hsucceeds, hrep hsucceeds⟩

theorem currentEpoch_paranoid (seconds : UInt64) :
    Morph.currentEpoch .paranoid (some seconds) = .ok seconds := by
  have h : seconds / Profile.paranoid.epochSeconds = seconds := by
    rw [← UInt64.toNat_inj, UInt64.toNat_div]
    exact Nat.div_one _
  rw [Morph.currentEpoch, h]

def current (lib : Libraries) (config : ValidatedServerConfig) (clock : RouterClock)
    (iteration : IterationOrder) (r : MorphRouter) (seconds : UInt64)
    (registry : DeviceRegistry) : MorphRouter :=
  if r.epoch ≠ some seconds then (r.refresh lib config clock iteration seconds registry).1 else r

theorem Reachable.current {r : MorphRouter} (h : Reachable lib config r) (clock : RouterClock)
    (iteration : IterationOrder) (seconds : UInt64) (registry : DeviceRegistry) :
    Reachable lib config (r.current lib config clock iteration seconds registry) := by
  unfold MorphRouter.current
  split_ifs
  · exact h.refresh clock iteration seconds registry
  · exact h

theorem resolve_eq {r : MorphRouter} {clock : RouterClock} {iteration : IterationOrder}
    {registry : DeviceRegistry} {seconds : UInt64} (hclock : clock.resolve = some seconds)
    (hrefresh : r.epoch ≠ some seconds →
      (r.refresh lib config clock iteration seconds registry).2 = .ok ())
    {input : Bytes} (hlen : 8 ≤ input.length) :
    r.resolve lib config clock iteration input registry =
      (r.current lib config clock iteration seconds registry,
        (r.current lib config clock iteration seconds registry).routes.lookup
          (input.take 8)) := by
  simp only [MorphRouter.resolve, if_neg (not_lt.mpr hlen), hclock, currentEpoch_paranoid,
    MorphRouter.current]
  split_ifs with hne
  · have hok := hrefresh hne
    generalize r.refresh lib config clock iteration seconds registry = outcome at hok ⊢
    obtain ⟨r', result⟩ := outcome
    obtain rfl : result = .ok () := hok
    rfl
  · rfl

def Refreshed (lib : Libraries) (config : ValidatedServerConfig) (clock : RouterClock)
    (registry : DeviceRegistry) (r : MorphRouter) : Prop :=
  ∃ r₀ iteration epoch, Reachable lib config r₀ ∧
    r₀.refresh lib config clock iteration epoch registry = (r, .ok ())

theorem Refreshed.represents {r : MorphRouter} {clock : RouterClock} {registry : DeviceRegistry}
    (h : Refreshed lib config clock registry r) :
    r.Represents (tableBids lib config clock registry) := by
  obtain ⟨r₀, iteration, epoch, h₀, hr⟩ := h
  obtain ⟨-, -, -, hspec⟩ := refresh_spec h₀.cached clock iteration epoch registry
  rw [hr] at hspec
  exact (hspec rfl).2

theorem Reachable.refreshed_current {r : MorphRouter} (h : Reachable lib config r)
    {clock₀ clock : RouterClock} {registry₀ registry : DeviceRegistry}
    {iteration : IterationOrder} {seconds : UInt64}
    (hlast : r.epoch = some seconds → Refreshed lib config clock₀ registry₀ r)
    (hrefresh : r.epoch ≠ some seconds →
      (r.refresh lib config clock iteration seconds registry).2 = .ok ()) :
    Refreshed lib config (if r.epoch = some seconds then clock₀ else clock)
      (if r.epoch = some seconds then registry₀ else registry)
      (r.current lib config clock iteration seconds registry) := by
  unfold MorphRouter.current
  by_cases he : r.epoch = some seconds
  · rw [if_pos he, if_pos he, if_neg (not_not.mpr he)]
    exact hlast he
  · rw [if_neg he, if_neg he, if_pos he]
    exact ⟨r, iteration, seconds, h, Prod.ext rfl (hrefresh he)⟩

theorem current_fixed {r : MorphRouter} (hr : Reachable lib config r) {built : UInt64}
    {registry : DeviceRegistry} (he : r.epoch = some built)
    (hrep : r.Represents (tableBids lib config (.fixed built) registry)) (seconds : UInt64)
    (iteration : IterationOrder) :
    (r.current lib config (.fixed seconds) iteration seconds registry).Represents
      (tableBids lib config (.fixed seconds) registry) := by
  unfold MorphRouter.current
  split_ifs with hne
  · exact (refresh_fixed hr seconds seconds iteration registry).2.2
  · obtain rfl : built = seconds := by simpa [he] using hne
    exact hrep

/-- The tables after a refresh at a fixed second, from whatever earlier refreshes left. -/
theorem refresh_tables {r : MorphRouter} (hr : Reachable lib config r) (seconds : UInt64)
    (iteration : IterationOrder) (registry : DeviceRegistry) :
    let clock := RouterClock.fixed seconds
    let r' := (r.refresh lib config clock iteration seconds registry).1
    (r.refresh lib config clock iteration seconds registry).2 = .ok () ∧
    (∀ e : RouteEntry, e.device ∈ registeredKeys lib registry →
      sharedSecret lib config e.device ≠ Vector.replicate 32 0 →
      ∃ tag, Produces lib config clock registry e tag) ∧
    (∀ tag, ((r'.routes.lookup tag).isSome ∨ (r'.speedyRoutes.lookup tag).isSome) ↔
      ∃! e, Produces lib config clock registry e tag) ∧
    (∀ tag route, r'.routes.lookup tag = some route →
      ∃ e, Produces lib config clock registry e tag ∧ e.device = route.publicKey ∧
        e.kind = .morph route.profile ∧ deviceMorphKey lib config e.device = .ok route.key) ∧
    (∀ tag publicKey codec, r'.speedyRoutes.lookup tag = some (publicKey, codec) →
      ∃ e, Produces lib config clock registry e tag ∧ e.device = publicKey ∧
        e.kind = .speedy ∧ deviceSpeedyCodec lib config e.device = .ok codec) ∧
    (∀ tag, tag ∈ r'.ambiguous ↔ ∃ e e', e ≠ e' ∧ Produces lib config clock registry e tag ∧
      Produces lib config clock registry e' tag) ∧
    (∀ tag, ((r'.routes.lookup tag).isSome → r'.speedyRoutes.lookup tag = none) ∧
      (tag ∈ r'.ambiguous →
        r'.routes.lookup tag = none ∧ r'.speedyRoutes.lookup tag = none)) ∧
    (∀ r₂ iteration₂, Reachable lib config r₂ →
      SameTables r' (r₂.refresh lib config clock iteration₂ seconds registry).1) ∧
    (∀ s iteration₂ iteration₃ input,
      let rebuilt :=
        (MorphRouter.default.refresh lib config (.fixed s) iteration₃ s registry).1
      let resolved := r'.resolve lib config (.fixed s) iteration₂ input registry
      resolved.2 = (if 8 ≤ input.length then rebuilt.routes.lookup (input.take 8) else none) ∧
        (8 ≤ input.length → SameTables resolved.1 rebuilt)) := by
  obtain ⟨hok, he, hrep⟩ := refresh_fixed hr seconds seconds iteration registry
  refine ⟨hok, fun e hd hs => ?_, hrep.routed_iff, fun tag route hl => ?_,
    fun tag publicKey codec hl => ?_, fun tag => hrep.mem_ambiguous.trans contested_iff,
    hrep.tables_disjoint, fun r₂ iteration₂ hr₂ => ?_, fun s iteration₂ iteration₃ input => ?_⟩
  · obtain ⟨⟨tag, owner⟩, hb⟩ := bid_fixed seconds hs
    exact ⟨tag, ⟨hd, hs⟩, owner, hb⟩
  · obtain ⟨e, hp, hb, -⟩ := held_iff.mp (hrep.lookup_routes.mp hl)
    exact ⟨e, hp, bid_morph hb⟩
  · obtain ⟨e, hp, hb, -⟩ := held_iff.mp (hrep.lookup_speedyRoutes.mp hl)
    exact ⟨e, hp, bid_speedy hb⟩
  · exact hrep.sameTables (refresh_fixed hr₂ seconds seconds iteration₂ registry).2.2
  · have hrebuilt := (refresh_fixed (.default : Reachable lib config .default) s s iteration₃
      registry).2.2
    split_ifs with hlen
    · have hr' := hr.refresh (.fixed seconds) iteration seconds registry
      have hsame := (current_fixed hr' he hrep s iteration₂).sameTables hrebuilt
      rw [resolve_eq rfl (fun _ => (refresh_fixed hr' s s iteration₂ registry).1) hlen]
      exact ⟨congrArg Cell.route (hsame (input.take 8)), fun _ => hsame⟩
    · simp only [MorphRouter.resolve, if_pos (not_le.mp hlen)]
      exact ⟨trivial, fun h => absurd h hlen⟩

theorem refresh_tables_sample :
    Reachable clearLibraries sampleConfig .default ∧
      (MorphRouter.default.refresh clearLibraries sampleConfig (.fixed 1000)
        ⟨id, List.Perm.refl⟩ 1000 sampleRegistry).2 = .ok () ∧
      ∀ kind position, ∃ tag, Produces clearLibraries sampleConfig (.fixed 1000) sampleRegistry
        ⟨sampleKey 2, kind, position⟩ tag := by
  have h := refresh_tables (.default : Reachable clearLibraries sampleConfig .default) 1000
    ⟨id, List.Perm.refl⟩ sampleRegistry
  have hd : sampleKey 2 ∈ registeredKeys clearLibraries sampleRegistry := by decide
  have hs : sharedSecret clearLibraries sampleConfig (sampleKey 2) ≠ Vector.replicate 32 0 := by
    decide
  exact ⟨.default, h.1, fun kind position => h.2.1 ⟨sampleKey 2, kind, position⟩ hd hs⟩

end MorphRouter

end MouseVpn.Server
