import MouseVpn.Lib.Bids
import MouseVpn.Server.Daemon
import MouseVpn.Wire.MorphRoundTrip
import MouseVpn.Wire.SpeedyFrames

/-!
# Bids for routing tags

Every device with a shared secret bids for twelve tags: three accepted epochs of
each of the three MouseMorph profiles and of Speedy.
-/

namespace MouseVpn.Server

open MouseVpn.Lib MouseVpn.Crypto MouseVpn.Wire
open MouseVpn.Wire.Morph (MorphCodec MorphKey Profile)
open MouseVpn.Wire.Speedy (SpeedyCodec SpeedyKey)

inductive WireKind
  | morph (profile : Profile)
  | speedy
  deriving DecidableEq

structure RouteEntry where
  device : PublicKey
  kind : WireKind
  position : Fin 3
  deriving DecidableEq

inductive RouteOwner
  | morph (route : MorphRoute)
  | speedy (publicKey : PublicKey) (codec : SpeedyCodec)

def RouterClock.fixed (seconds : UInt64) : RouterClock :=
  ⟨some seconds, fun _ _ => some seconds, fun _ => some seconds, some seconds⟩

section Bids

variable (lib : Libraries) (config : ValidatedServerConfig) (clock : RouterClock)

def deviceMorphKey (device : PublicKey) : Except CryptoError MorphKey :=
  (deriveMorphKey lib config.serverPrivateKey device config.serverPublicKey device).map
    MorphKey.mk

def deviceSpeedyCodec (device : PublicKey) : Except CryptoError SpeedyCodec :=
  (deriveSpeedyKey lib config.serverPrivateKey device config.serverPublicKey device).map
    fun key => SpeedyCodec.new lib ⟨key⟩

def sharedSecret (device : PublicKey) : Array32 :=
  lib.x25519 config.serverPrivateKey.bytes device.bytes

/-- The tag that an entry produces, with its owner. A device whose shared secret is zero
produces none, and neither does an unreadable clock. -/
def RouteEntry.bid (e : RouteEntry) : Option (Bytes × RouteOwner) :=
  match e.kind with
  | .morph profile =>
    match deviceMorphKey lib config e.device,
        Morph.currentEpoch profile (clock.profile e.device profile) with
    | .ok key, .ok epoch =>
      ((Morph.acceptedEpochs epoch)[e.position.val]?).map fun accepted =>
        (Morph.routingTagAt lib key profile .clientToServer accepted,
          .morph ⟨e.device, key, profile⟩)
    | _, _ => none
  | .speedy =>
    match deviceSpeedyCodec lib config e.device,
        Speedy.currentEpoch (clock.speedy e.device) with
    | .ok codec, .ok epoch =>
      ((Speedy.acceptedEpochs epoch)[e.position.val]?).map fun accepted =>
        (codec.routingTagAt lib .clientToServer accepted, .speedy e.device codec)
    | _, _ => none

def kindEntries (device : PublicKey) (kind : WireKind) : List RouteEntry :=
  (List.finRange 3).map fun position => ⟨device, kind, position⟩

def morphEntries (device : PublicKey) : List RouteEntry :=
  [Profile.quiet, .balanced, .paranoid].flatMap fun profile => kindEntries device (.morph profile)

def deviceEntries (device : PublicKey) : List RouteEntry :=
  morphEntries device ++ kindEntries device .speedy

end Bids

theorem mem_deviceEntries {e : RouteEntry} {device : PublicKey} :
    e ∈ deviceEntries device ↔ e.device = device := by
  constructor
  · intro h
    simp only [deviceEntries, morphEntries, kindEntries, List.mem_append, List.mem_flatMap,
      List.mem_map] at h
    rcases h with ⟨_, -, _, -, rfl⟩ | ⟨_, -, rfl⟩ <;> rfl
  · rintro rfl
    obtain ⟨device, kind, position⟩ := e
    simp only [deviceEntries, morphEntries, kindEntries, List.mem_append, List.mem_flatMap,
      List.mem_map]
    cases kind with
    | morph profile => exact Or.inl ⟨profile, by cases profile <;> simp, position, by simp⟩
    | speedy => exact Or.inr ⟨position, by simp⟩

theorem nodup_entries {devices : List PublicKey} (h : devices.Nodup) :
    (devices.flatMap deviceEntries).Nodup := by
  rw [List.nodup_flatMap]
  refine ⟨fun device _ => ?_, h.imp fun hne => ?_⟩
  · have hr : List.finRange 3 = [0, 1, 2] := rfl
    simp [deviceEntries, morphEntries, kindEntries, hr]
  · intro e he he'
    exact hne ((mem_deviceEntries.mp he).symm.trans (mem_deviceEntries.mp he'))

namespace MorphRouter

variable {lib : Libraries} {config : ValidatedServerConfig} {clock : RouterClock}

theorem bids_morph {device : PublicKey} {profile : Profile} {key : MorphKey} {epoch : UInt64}
    (hk : deviceMorphKey lib config device = .ok key)
    (he : Morph.currentEpoch profile (clock.profile device profile) = .ok epoch) :
    (kindEntries device (.morph profile)).filterMap (RouteEntry.bid lib config clock) =
      (Morph.acceptedEpochs epoch).map fun accepted =>
        (Morph.routingTagAt lib key profile .clientToServer accepted,
          .morph ⟨device, key, profile⟩) := by
  have hr : List.finRange 3 = [0, 1, 2] := rfl
  simp [kindEntries, hr, RouteEntry.bid, hk, he, Morph.acceptedEpochs]

theorem bids_speedy {device : PublicKey} {codec : SpeedyCodec} {epoch : UInt64}
    (hk : deviceSpeedyCodec lib config device = .ok codec)
    (he : Speedy.currentEpoch (clock.speedy device) = .ok epoch) :
    (kindEntries device .speedy).filterMap (RouteEntry.bid lib config clock) =
      (Speedy.acceptedEpochs epoch).map fun accepted =>
        (codec.routingTagAt lib .clientToServer accepted, .speedy device codec) := by
  have hr : List.finRange 3 = [0, 1, 2] := rfl
  simp [kindEntries, hr, RouteEntry.bid, hk, he, Speedy.acceptedEpochs]

theorem bids_morph_unreadable {device : PublicKey} {profile : Profile} {e : Morph.MorphError}
    (he : Morph.currentEpoch profile (clock.profile device profile) = .error e) :
    (kindEntries device (.morph profile)).filterMap (RouteEntry.bid lib config clock) = [] := by
  rw [List.filterMap_eq_nil_iff]
  intro entry hentry
  obtain ⟨position, -, rfl⟩ := List.mem_map.mp hentry
  simp only [RouteEntry.bid, he]
  cases deviceMorphKey lib config device <;> rfl

theorem deviceMorphKey_ok_iff {device : PublicKey} :
    (∃ key, deviceMorphKey lib config device = .ok key) ↔
      sharedSecret lib config device ≠ Vector.replicate 32 0 := by
  simp only [deviceMorphKey, deriveMorphKey, deriveWireKey, sharedSecret]
  split_ifs with h <;> simp [Except.map, h]

theorem deviceSpeedyCodec_ok_iff {device : PublicKey} :
    (∃ codec, deviceSpeedyCodec lib config device = .ok codec) ↔
      sharedSecret lib config device ≠ Vector.replicate 32 0 := by
  simp only [deviceSpeedyCodec, deriveSpeedyKey, deriveWireKey, sharedSecret]
  split_ifs with h <;> simp [Except.map, h]

theorem bids_device_none {device : PublicKey} {error : CryptoError}
    (hk : deviceMorphKey lib config device = .error error) :
    (deviceEntries device).filterMap (RouteEntry.bid lib config clock) = [] := by
  have hs : ∀ codec, deviceSpeedyCodec lib config device ≠ .ok codec := by
    rw [← not_exists, deviceSpeedyCodec_ok_iff, ← @deviceMorphKey_ok_iff lib config device]
    simp [hk]
  rw [List.filterMap_eq_nil_iff]
  intro e he
  obtain rfl := mem_deviceEntries.mp he
  unfold RouteEntry.bid
  cases e.kind with
  | morph profile => simp only [hk]
  | speedy =>
    cases hc : deviceSpeedyCodec lib config e.device with
    | error _ => rfl
    | ok codec => exact absurd hc (hs codec)

theorem bid_sharedSecret {e : RouteEntry} {b : Bytes × RouteOwner}
    (h : e.bid lib config clock = some b) :
    sharedSecret lib config e.device ≠ Vector.replicate 32 0 := by
  unfold RouteEntry.bid at h
  split at h
  · split at h
    · rename_i hk _
      exact deviceMorphKey_ok_iff.mp ⟨_, hk⟩
    · cases h
  · split at h
    · rename_i hk _
      exact deviceSpeedyCodec_ok_iff.mp ⟨_, hk⟩
    · cases h

theorem bid_morph {e : RouteEntry} {tag : Bytes} {route : MorphRoute}
    (h : e.bid lib config clock = some (tag, .morph route)) :
    e.device = route.publicKey ∧ e.kind = .morph route.profile ∧
      deviceMorphKey lib config e.device = .ok route.key := by
  unfold RouteEntry.bid at h
  split at h
  · rename_i profile hkind
    split at h
    · rename_i key epoch hk _
      obtain ⟨accepted, -, hb⟩ := Option.map_eq_some_iff.mp h
      cases hb
      exact ⟨rfl, hkind, hk⟩
    · cases h
  · split at h
    · obtain ⟨accepted, -, hb⟩ := Option.map_eq_some_iff.mp h
      cases hb
    · cases h

theorem bid_speedy {e : RouteEntry} {tag : Bytes} {publicKey : PublicKey} {codec : SpeedyCodec}
    (h : e.bid lib config clock = some (tag, .speedy publicKey codec)) :
    e.device = publicKey ∧ e.kind = .speedy ∧
      deviceSpeedyCodec lib config e.device = .ok codec := by
  unfold RouteEntry.bid at h
  split at h
  · split at h
    · obtain ⟨accepted, -, hb⟩ := Option.map_eq_some_iff.mp h
      cases hb
    · cases h
  · rename_i hkind
    split at h
    · rename_i codec' epoch hk _
      obtain ⟨accepted, -, hb⟩ := Option.map_eq_some_iff.mp h
      cases hb
      exact ⟨rfl, hkind, hk⟩
    · cases h

theorem bid_fixed {e : RouteEntry} (seconds : UInt64)
    (h : sharedSecret lib config e.device ≠ Vector.replicate 32 0) :
    ∃ b, e.bid lib config (.fixed seconds) = some b := by
  obtain ⟨key, hk⟩ := deviceMorphKey_ok_iff.mpr h
  obtain ⟨codec, hs⟩ := deviceSpeedyCodec_ok_iff.mpr h
  obtain ⟨device, kind, position⟩ := e
  cases kind with
  | morph profile =>
    simp only [RouteEntry.bid, hk, RouterClock.fixed, Morph.currentEpoch, Morph.acceptedEpochs]
    rcases position with ⟨_ | _ | _ | n, hlt⟩
    · exact ⟨_, rfl⟩
    · exact ⟨_, rfl⟩
    · exact ⟨_, rfl⟩
    · omega
  | speedy =>
    simp only [RouteEntry.bid, hs, RouterClock.fixed, Speedy.currentEpoch, Speedy.acceptedEpochs]
    rcases position with ⟨_ | _ | _ | n, hlt⟩
    · exact ⟨_, rfl⟩
    · exact ⟨_, rfl⟩
    · exact ⟨_, rfl⟩
    · omega

end MorphRouter

end MouseVpn.Server
