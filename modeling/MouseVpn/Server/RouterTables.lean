import MouseVpn.Server.RouteBids

/-!
# The tables of the router

The tables hold what the bids of the devices leave: a tag with one bidder belongs to it, a tag
with more is ambiguous. This holds whatever was cached and in whatever order the devices come.
-/

namespace MouseVpn.Server

open MouseVpn.Lib MouseVpn.Crypto MouseVpn.Wire
open MouseVpn.Wire.Morph (MorphCodec MorphKey Profile)
open MouseVpn.Wire.Speedy (SpeedyCodec SpeedyKey)

namespace MorphRouter

structure Cell where
  ambiguous : Bool
  route : Option MorphRoute
  speedyRoute : Option (PublicKey × SpeedyCodec)

def cell (r : MorphRouter) (tag : Bytes) : Cell :=
  ⟨decide (tag ∈ r.ambiguous), r.routes.lookup tag, r.speedyRoutes.lookup tag⟩

def Cell.of : Holding RouteOwner → Cell
  | .free => ⟨false, none, none⟩
  | .held (.morph route) => ⟨false, some route, none⟩
  | .held (.speedy publicKey codec) => ⟨false, none, some (publicKey, codec)⟩
  | .contested => ⟨true, none, none⟩

def Represents (r : MorphRouter) (bids : List (Bytes × RouteOwner)) : Prop :=
  ∀ tag, r.cell tag = Cell.of (Bids.holding bids tag)

namespace Represents

variable {r : MorphRouter} {bids : List (Bytes × RouteOwner)}

theorem lookup_routes (h : r.Represents bids) {tag : Bytes} {route : MorphRoute} :
    r.routes.lookup tag = some route ↔ Bids.holding bids tag = .held (.morph route) := by
  have hr : r.routes.lookup tag = _ := congrArg Cell.route (h tag)
  rw [hr]
  rcases Bids.holding bids tag with - | (- | -) | - <;> simp [Cell.of]

theorem lookup_speedyRoutes (h : r.Represents bids) {tag : Bytes} {publicKey : PublicKey}
    {codec : SpeedyCodec} : r.speedyRoutes.lookup tag = some (publicKey, codec) ↔
      Bids.holding bids tag = .held (.speedy publicKey codec) := by
  have hr : r.speedyRoutes.lookup tag = _ := congrArg Cell.speedyRoute (h tag)
  rw [hr]
  rcases Bids.holding bids tag with - | (- | -) | - <;> simp [Cell.of]

theorem mem_ambiguous (h : r.Represents bids) {tag : Bytes} :
    tag ∈ r.ambiguous ↔ Bids.holding bids tag = .contested := by
  have hr : decide (tag ∈ r.ambiguous) = _ := congrArg Cell.ambiguous (h tag)
  rw [← decide_eq_true_iff (p := tag ∈ r.ambiguous), hr]
  rcases Bids.holding bids tag with - | (- | -) | - <;> simp [Cell.of]

theorem concat (h : r.Represents bids) {r' : MorphRouter} {tag : Bytes} {owner : RouteOwner}
    (hother : ∀ tag', tag ≠ tag' → r'.cell tag' = r.cell tag')
    (hcell : r'.cell tag = Cell.of ((Bids.holding bids tag).bid owner)) :
    r'.Represents (bids ++ [(tag, owner)]) := by
  intro tag'
  rw [Bids.holding_concat]
  split_ifs with heq
  · subst heq
    exact hcell
  · rw [hother tag' heq]
    exact h tag'

theorem foldl_concat {add : MorphRouter → Bytes → MorphRouter} {owner : RouteOwner}
    (hadd : ∀ {r : MorphRouter} {bids} (tag : Bytes), r.Represents bids →
      (add r tag).Represents (bids ++ [(tag, owner)]))
    (h : r.Represents bids) (tags : List Bytes) :
    (tags.foldl add r).Represents (bids ++ tags.map fun tag => (tag, owner)) := by
  induction tags generalizing r bids with
  | nil => simpa using h
  | cons tag tags ih => simpa using ih (hadd tag h)

theorem addRoute (route : MorphRoute) (tag : Bytes) (h : r.Represents bids) :
    (r.addRoute route tag).Represents (bids ++ [(tag, .morph route)]) := by
  refine h.concat (fun tag' hne => ?_) ?_
  · unfold MorphRouter.addRoute
    split_ifs <;> simp [cell, AList.lookup_erase_ne, AList.lookup_insert_ne, hne.symm]
  · have hcell := h tag
    revert hcell
    rcases Bids.holding bids tag with - | (- | -) | - <;> intro hcell <;>
      simp only [cell, Cell.of, Cell.mk.injEq, decide_eq_false_iff_not,
        decide_eq_true_eq] at hcell <;>
      obtain ⟨ha, hr, hs⟩ := hcell <;>
      simp [MorphRouter.addRoute, cell, Cell.of, Holding.bid, ha, hr, hs]

theorem addSpeedyRoute (publicKey : PublicKey) (codec : SpeedyCodec) (tag : Bytes)
    (h : r.Represents bids) :
    (r.addSpeedyRoute publicKey codec tag).Represents
      (bids ++ [(tag, .speedy publicKey codec)]) := by
  refine h.concat (fun tag' hne => ?_) ?_
  · unfold MorphRouter.addSpeedyRoute
    split_ifs <;> simp [cell, AList.lookup_erase_ne, AList.lookup_insert_ne, hne.symm]
  · have hcell := h tag
    revert hcell
    rcases Bids.holding bids tag with - | (- | -) | - <;> intro hcell <;>
      simp only [cell, Cell.of, Cell.mk.injEq, decide_eq_false_iff_not,
        decide_eq_true_eq] at hcell <;>
      obtain ⟨ha, hr, hs⟩ := hcell <;>
      simp [MorphRouter.addSpeedyRoute, cell, Cell.of, Holding.bid, ha, hr, hs]

end Represents

variable {lib : Libraries} {config : ValidatedServerConfig} {clock : RouterClock}

theorem Represents.addProfileRoutes {r : MorphRouter} {bids : List (Bytes × RouteOwner)}
    (h : r.Represents bids) (clock : RouterClock) {device : PublicKey} {key : MorphKey}
    (hk : deviceMorphKey lib config device = .ok key) :
    (r.addProfileRoutes lib clock device key).Represents
      (bids ++ (morphEntries device).filterMap (RouteEntry.bid lib config clock)) := by
  unfold MorphRouter.addProfileRoutes morphEntries
  induction [Profile.quiet, .balanced, .paranoid] generalizing r bids with
  | nil => simpa using h
  | cons profile profiles ih =>
    rw [List.flatMap_cons, List.filterMap_append, ← List.append_assoc, List.foldl_cons]
    cases he : Morph.currentEpoch profile (clock.profile device profile) with
    | error e =>
      rw [bids_morph_unreadable he, List.append_nil]
      exact ih h
    | ok epoch =>
      refine ih ?_
      rw [bids_morph hk he]
      have hfold := h.foldl_concat (addRoute ⟨device, key, profile⟩)
        ((Morph.acceptedEpochs epoch).map (Morph.routingTagAt lib key profile .clientToServer))
      rw [List.foldl_map, List.map_map] at hfold
      exact hfold

structure SameCaches (r r' : MorphRouter) : Prop where
  keys : r'.keys = r.keys
  speedyCodecs : r'.speedyCodecs = r.speedyCodecs

theorem SameCaches.refl (r : MorphRouter) : SameCaches r r := ⟨rfl, rfl⟩

theorem SameCaches.trans {r r' r'' : MorphRouter} (h : SameCaches r r') (h' : SameCaches r' r'') :
    SameCaches r r'' := ⟨h'.keys.trans h.keys, h'.speedyCodecs.trans h.speedyCodecs⟩

theorem SameCaches.foldl {α : Type} {f : MorphRouter → α → MorphRouter}
    (hf : ∀ r a, SameCaches r (f r a)) (r : MorphRouter) (as : List α) :
    SameCaches r (as.foldl f r) := by
  induction as generalizing r with
  | nil => exact .refl r
  | cons a as ih => exact (hf r a).trans (ih (f r a))

theorem addRoute_sameCaches (r : MorphRouter) (route : MorphRoute) (tag : Bytes) :
    SameCaches r (r.addRoute route tag) := by
  unfold MorphRouter.addRoute
  split_ifs <;> exact ⟨rfl, rfl⟩

theorem addSpeedyRoute_sameCaches (r : MorphRouter) (publicKey : PublicKey)
    (codec : SpeedyCodec) (tag : Bytes) :
    SameCaches r (r.addSpeedyRoute publicKey codec tag) := by
  unfold MorphRouter.addSpeedyRoute
  split_ifs <;> exact ⟨rfl, rfl⟩

theorem addProfileRoutes_sameCaches (r : MorphRouter) (device : PublicKey) (key : MorphKey) :
    SameCaches r (r.addProfileRoutes lib clock device key) := by
  refine SameCaches.foldl (fun r profile => ?_) r _
  split
  · exact .refl r
  · exact SameCaches.foldl (fun r _ => addRoute_sameCaches r _ _) r _

structure Cached (lib : Libraries) (config : ValidatedServerConfig) (r : MorphRouter) : Prop where
  keys : ∀ device key, r.keys.lookup device = some key → deviceMorphKey lib config device = .ok key
  codecs : ∀ device codec, r.speedyCodecs.lookup device = some codec →
    deviceSpeedyCodec lib config device = .ok codec

namespace Cached

variable {r r' : MorphRouter}

theorem congr (h : r.Cached lib config) (hs : SameCaches r r') : r'.Cached lib config :=
  ⟨hs.keys ▸ h.keys, hs.speedyCodecs ▸ h.codecs⟩

theorem morphKey_eq (h : r.Cached lib config) (device : PublicKey) :
    r.morphKey lib config device = deviceMorphKey lib config device := by
  unfold MorphRouter.morphKey
  cases hl : r.keys.lookup device with
  | some key => exact (h.keys device key hl).symm
  | none =>
    unfold deviceMorphKey
    cases deriveMorphKey lib config.serverPrivateKey device config.serverPublicKey device <;> rfl

theorem speedyCodec_eq (h : r.Cached lib config) (device : PublicKey) :
    r.speedyCodec lib config device = deviceSpeedyCodec lib config device := by
  unfold MorphRouter.speedyCodec
  cases hl : r.speedyCodecs.lookup device with
  | some codec => exact (h.codecs device codec hl).symm
  | none =>
    unfold deviceSpeedyCodec
    cases deriveSpeedyKey lib config.serverPrivateKey device config.serverPublicKey device <;> rfl

theorem insert_key (h : r.Cached lib config) {device : PublicKey} {key : MorphKey}
    (hk : deviceMorphKey lib config device = .ok key) :
    Cached lib config { r with keys := r.keys.insert device key } := by
  refine ⟨fun device' key' hl => ?_, h.codecs⟩
  rw [HashMap.lookup_insert_ite] at hl
  split_ifs at hl with heq
  · cases hl
    rw [heq, hk]
  · exact h.keys device' key' hl

theorem insert_codec (h : r.Cached lib config) {device : PublicKey} {codec : SpeedyCodec}
    (hk : deviceSpeedyCodec lib config device = .ok codec) :
    Cached lib config { r with speedyCodecs := r.speedyCodecs.insert device codec } := by
  refine ⟨h.keys, fun device' codec' hl => ?_⟩
  rw [HashMap.lookup_insert_ite] at hl
  split_ifs at hl with heq
  · cases hl
    rw [heq, hk]
  · exact h.codecs device' codec' hl

end Cached

theorem addSpeedyRoutes_spec (clock : RouterClock) {r : MorphRouter}
    {bids : List (Bytes × RouteOwner)} (hc : r.Cached lib config) (h : r.Represents bids)
    {device : PublicKey} {key : MorphKey}
    (hk : deviceMorphKey lib config device = .ok key) :
    (r.addSpeedyRoutes lib config clock device).1.Cached lib config ∧
    (((r.addSpeedyRoutes lib config clock device).2 = .ok () ∧
      (r.addSpeedyRoutes lib config clock device).1.Represents
        (bids ++ (kindEntries device .speedy).filterMap (RouteEntry.bid lib config clock))) ∨
    ((r.addSpeedyRoutes lib config clock device).2 = .error () ∧ clock.speedy device = none ∧
      (r.addSpeedyRoutes lib config clock device).1.Represents bids)) := by
  obtain ⟨codec, hs⟩ := deviceSpeedyCodec_ok_iff.mpr (deviceMorphKey_ok_iff.mp ⟨key, hk⟩)
  have hcached := hc.insert_codec hs
  simp only [MorphRouter.addSpeedyRoutes, hc.speedyCodec_eq, hs]
  cases hread : clock.speedy device with
  | none => exact ⟨hcached, Or.inr ⟨rfl, rfl, h⟩⟩
  | some seconds =>
    have he : Speedy.currentEpoch (clock.speedy device) = .ok (seconds / Speedy.epochSeconds) := by
      rw [hread]
      rfl
    refine ⟨hcached.congr (SameCaches.foldl (fun r _ => addSpeedyRoute_sameCaches r _ _ _) _ _),
      Or.inl ⟨rfl, ?_⟩⟩
    rw [bids_speedy hs he]
    have hr : Represents { r with speedyCodecs := r.speedyCodecs.insert device codec } bids := h
    have hfold := hr.foldl_concat (Represents.addSpeedyRoute device codec)
      ((Speedy.acceptedEpochs (seconds / Speedy.epochSeconds)).map
        (codec.routingTagAt lib .clientToServer))
    rw [List.foldl_map, List.map_map] at hfold
    exact hfold

theorem addDevice_spec {r r' : MorphRouter} {result : Except Unit Unit}
    {bids : List (Bytes × RouteOwner)} (hc : r.Cached lib config) (h : r.Represents bids)
    {device : PublicKey} {key : MorphKey} (hk : deviceMorphKey lib config device = .ok key)
    (hround : MorphRouter.addSpeedyRoutes lib config clock (MorphRouter.addProfileRoutes lib clock
      { r with keys := r.keys.insert device key } device key) device = (r', result)) :
    r'.Cached lib config ∧
    ((result = .ok () ∧ r'.Represents
      (bids ++ (deviceEntries device).filterMap (RouteEntry.bid lib config clock))) ∨
    (result = .error () ∧ clock.speedy device = none ∧ r'.Represents
      (bids ++ (morphEntries device).filterMap (RouteEntry.bid lib config clock)))) := by
  have hr : Represents { r with keys := r.keys.insert device key } bids := h
  have hspec := addSpeedyRoutes_spec clock
    ((hc.insert_key hk).congr (addProfileRoutes_sameCaches _ device key))
    (hr.addProfileRoutes clock hk) hk
  rw [hround] at hspec
  rw [deviceEntries, List.filterMap_append, ← List.append_assoc]
  exact hspec

theorem bid_of_mem {entries : List RouteEntry} {b : Bytes × RouteOwner}
    (h : b ∈ entries.filterMap (RouteEntry.bid lib config clock)) :
    ∃ e : RouteEntry, e.bid lib config clock = some b := by
  obtain ⟨e, -, he⟩ := List.mem_filterMap.mp h
  exact ⟨e, he⟩

theorem addDevices_spec (clock : RouterClock) {r : MorphRouter}
    {bids : List (Bytes × RouteOwner)} (hc : r.Cached lib config) (h : r.Represents bids)
    (devices : List PublicKey) :
    (r.addDevices lib config clock devices).1.Cached lib config ∧
    ∃ more, (r.addDevices lib config clock devices).1.Represents (bids ++ more) ∧
      (∀ b ∈ more, ∃ e : RouteEntry, e.bid lib config clock = some b) ∧
      ((∀ device, clock.speedy device ≠ none) →
        (r.addDevices lib config clock devices).2 = .ok ()) ∧
      ((r.addDevices lib config clock devices).2 = .ok () →
        more = (devices.flatMap deviceEntries).filterMap (RouteEntry.bid lib config clock)) := by
  induction devices generalizing r bids with
  | nil =>
    refine ⟨hc, [], ?_, by simp, fun _ => rfl, fun _ => rfl⟩
    rw [List.append_nil]
    exact h
  | cons device devices ih =>
    rw [List.flatMap_cons, List.filterMap_append]
    cases hk : deviceMorphKey lib config device with
    | error e =>
      simp only [MorphRouter.addDevices, hc.morphKey_eq, hk, bids_device_none hk, List.nil_append]
      exact ih hc h
    | ok key =>
      rcases hround : MorphRouter.addSpeedyRoutes lib config clock (MorphRouter.addProfileRoutes
        lib clock { r with keys := r.keys.insert device key } device key) device with ⟨r', result⟩
      simp only [MorphRouter.addDevices, hc.morphKey_eq, hk, hround]
      obtain ⟨hc', ⟨rfl, hrep⟩ | ⟨rfl, hread, hrep⟩⟩ := addDevice_spec hc h hk hround
      · obtain ⟨hcached, more, hrep', hmore, hreadable, hall⟩ := ih hc' hrep
        rw [List.append_assoc] at hrep'
        refine ⟨hcached, _, hrep', fun b hb => ?_, hreadable, fun hres => by rw [hall hres]⟩
        rcases List.mem_append.mp hb with hfirst | hrest
        · exact bid_of_mem hfirst
        · exact hmore b hrest
      · exact ⟨hc', _, hrep, fun b hb => bid_of_mem hb, fun hr => absurd hread (hr device),
          fun hres => nomatch hres⟩

def tableBids (lib : Libraries) (config : ValidatedServerConfig) (clock : RouterClock)
    (registry : DeviceRegistry) : List (Bytes × RouteOwner) :=
  ((registeredKeys lib registry).flatMap deviceEntries).filterMap (RouteEntry.bid lib config clock)

inductive Reachable (lib : Libraries) (config : ValidatedServerConfig) : MorphRouter → Prop
  | default : Reachable lib config .default
  | refresh {r : MorphRouter} (h : Reachable lib config r) (clock : RouterClock)
      (iteration : IterationOrder) (epoch : UInt64) (registry : DeviceRegistry) :
      Reachable lib config (r.refresh lib config clock iteration epoch registry).1

theorem represents_nil {r : MorphRouter} (hr : r.routes = ∅) (hs : r.speedyRoutes = ∅)
    (ha : r.ambiguous = []) : r.Represents [] := by
  intro tag
  simp [cell, hr, hs, ha, Cell.of, Bids.holding]

theorem Cached.retain {r : MorphRouter} (h : r.Cached lib config) (p : PublicKey → Bool) :
    Cached lib config { r with
      keys := r.keys.retain fun publicKey _ => p publicKey
      speedyCodecs := r.speedyCodecs.retain fun publicKey _ => p publicKey
      speedyRoutes := ∅
      routes := ∅
      ambiguous := [] } := by
  refine ⟨fun device key hl => h.keys device key ?_, fun device codec hl =>
    h.codecs device codec ?_⟩
  · rw [HashMap.lookup_retain] at hl
    exact (Option.filter_eq_some_iff.mp hl).1
  · rw [HashMap.lookup_retain] at hl
    exact (Option.filter_eq_some_iff.mp hl).1

theorem holding_order (iteration : IterationOrder) (registry : DeviceRegistry) (tag : Bytes) :
    Bids.holding (((iteration.order (registeredKeys lib registry)).flatMap deviceEntries).filterMap
      (RouteEntry.bid lib config clock)) tag =
      Bids.holding (tableBids lib config clock registry) tag := by
  have hperm := iteration.perm (registeredKeys lib registry)
  have hn : (registeredKeys lib registry).Nodup := List.nodup_dedup _
  refine Bids.holding_congr (nodup_entries (hperm.nodup_iff.mpr hn)) (nodup_entries hn)
    (fun e => ?_)
    tag
  simp only [List.mem_flatMap, hperm.mem_iff]

theorem refresh_spec {r : MorphRouter} (hc : r.Cached lib config) (clock : RouterClock)
    (iteration : IterationOrder) (epoch : UInt64) (registry : DeviceRegistry) :
    (r.refresh lib config clock iteration epoch registry).1.Cached lib config ∧
    (∃ bids, (r.refresh lib config clock iteration epoch registry).1.Represents bids ∧
      ∀ b ∈ bids, ∃ e : RouteEntry, e.bid lib config clock = some b) ∧
    ((∀ device, clock.speedy device ≠ none) →
      (r.refresh lib config clock iteration epoch registry).2 = .ok ()) ∧
    ((r.refresh lib config clock iteration epoch registry).2 = .ok () →
      (r.refresh lib config clock iteration epoch registry).1.epoch = some epoch ∧
      (r.refresh lib config clock iteration epoch registry).1.Represents
        (tableBids lib config clock registry)) := by
  have hcached := hc.retain fun publicKey => publicKey ∈ registeredKeys lib registry
  have hspec := addDevices_spec clock hcached (represents_nil rfl rfl rfl)
    (iteration.order (registeredKeys lib registry))
  unfold MorphRouter.refresh
  simp only
  generalize MorphRouter.addDevices lib config clock _ _ = outcome at hspec ⊢
  obtain ⟨r', _ | ⟨⟩⟩ := outcome
  · obtain ⟨hc', more, hrep, hmore, hreadable, -⟩ := hspec
    exact ⟨hc', ⟨more, hrep, hmore⟩, fun h => hreadable h, fun h => nomatch h⟩
  · obtain ⟨hc', more, hrep, hmore, -, hall⟩ := hspec
    refine ⟨⟨hc'.keys, hc'.codecs⟩, ⟨more, hrep, hmore⟩, fun _ => rfl,
      fun _ => ⟨rfl, fun tag => ?_⟩⟩
    rw [← holding_order iteration, ← hall rfl]
    exact hrep tag

theorem Reachable.cached {r : MorphRouter} (h : Reachable lib config r) : r.Cached lib config := by
  induction h with
  | default => exact ⟨by simp [MorphRouter.default], by simp [MorphRouter.default]⟩
  | refresh _ clock iteration epoch registry ih =>
    exact (refresh_spec ih clock iteration epoch registry).1

theorem Reachable.represents {r : MorphRouter} (h : Reachable lib config r) :
    ∃ bids, r.Represents bids ∧
      ∀ b ∈ bids, ∃ (e : RouteEntry) (clock : RouterClock), e.bid lib config clock = some b := by
  cases h with
  | default => exact ⟨[], represents_nil rfl rfl rfl, by simp⟩
  | refresh h clock iteration epoch registry =>
    obtain ⟨-, ⟨bids, hrep, hbids⟩, -⟩ := refresh_spec h.cached clock iteration epoch registry
    exact ⟨bids, hrep, fun b hb => (hbids b hb).imp fun e he => ⟨clock, he⟩⟩

end MorphRouter

end MouseVpn.Server
