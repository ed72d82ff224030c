import MouseVpn.AdminApi.TrafficBytes
import MouseVpn.Lib.Ledger

/-!
# The bytes of the traffic store as parcels

Every addition to a counter makes a parcel, and the steps of the flushes move parcels from the
counters to the lists of the flushes and from there to the database or back.
-/

namespace MouseVpn.AdminApi

open MouseVpn.Lib Ledger

inductive Place
  | counter
  | flight (flush : ℕ)
  | stored (hour : ℕ)
  | expired
  deriving DecidableEq, Repr

namespace Place

def isStored (hours : ℕ → Bool) : Place → Bool
  | .stored hour => hours hour
  | .counter => false
  | .flight _ => false
  | .expired => false

def flush? : Place → Option ℕ
  | .flight flush => some flush
  | .counter => none
  | .stored _ => none
  | .expired => none

def commit (flush hour oldest : ℕ) : Place → Place
  | .flight other => if other = flush then .stored hour else .flight other
  | .stored other => if oldest ≤ other then .stored other else .expired
  | .counter => .counter
  | .expired => .expired

variable {flush hour oldest : ℕ}

theorem commit_eq_counter (place : Place) :
    (place.commit flush hour oldest == .counter) = (place == .counter) := by
  cases place with
  | flight other => rw [commit]; split_ifs <;> rfl
  | stored other => rw [commit]; split_ifs <;> rfl
  | counter => rfl
  | expired => rfl

theorem commit_eq_flight (place : Place) (other : ℕ) :
    (place.commit flush hour oldest == .flight other) =
      (decide (flush ≠ other) && place == .flight other) := by
  cases place with
  | flight third =>
    rw [commit]
    by_cases h : third = flush
    · by_cases ho : flush = other
      · simp [h, ho]
      · simp [h, ho]
    · by_cases ho : third = other
      · subst ho
        simp [h, Ne.symm h]
      · simp [h, ho]
  | stored third =>
    have hleft : ((stored third).commit flush hour oldest == .flight other) = false := by
      rw [commit]
      split_ifs <;> rfl
    rw [hleft]
    exact (Bool.and_false _).symm
  | counter => exact (Bool.and_false _).symm
  | expired => exact (Bool.and_false _).symm

theorem isStored_commit (hours : ℕ → Bool) (place : Place) :
    (place.commit flush hour oldest).isStored hours =
      (place.isStored (fun other => hours other && decide (oldest ≤ other)) ||
        (place == .flight flush && hours hour)) := by
  cases place with
  | flight other =>
    rw [commit]
    by_cases h : other = flush
    · simp [h, isStored]
    · simp [h, isStored]
  | stored other =>
    rw [commit]
    by_cases h : oldest ≤ other
    · simp [h, isStored]
    · simp [h, isStored]
  | counter => simp [commit, isStored]
  | expired => simp [commit, isStored]

theorem flush?_commit {place : Place} {other : ℕ}
    (h : (place.commit flush hour oldest).flush? = some other) : place.flush? = some other := by
  cases place with
  | flight third =>
    rw [commit] at h
    split_ifs at h
    · cases h
    · exact h
  | stored third =>
    rw [commit] at h
    split_ifs at h <;> cases h
  | counter => cases h
  | expired => cases h

end Place

abbrev Parcels := List (Parcel Account Place)

namespace TrafficStore

def followAdd (store : TrafficStore) (parcels : Parcels) (publicKey : String) (bytes : UInt64)
    (direction : Direction) : Parcels :=
  if publicKey ∈ store.counters then parcels ++ [⟨(publicKey, direction), .counter, bytes.toNat⟩]
  else parcels

def follow (store : TrafficStore) (parcels : Parcels) : Event → Parcels
  | .counter _ _ => parcels
  | .addUpload publicKey bytes => store.followAdd parcels publicKey bytes .upload
  | .addDownload publicKey bytes => store.followAdd parcels publicKey bytes .download
  | .flushAt _ => parcels
  | .swapUpload i publicKey =>
    match store.flushes[i]? with
    | some ⟨_, .taking remaining _⟩ =>
      if publicKey ∈ remaining then move (publicKey, .upload) .counter (.flight i) parcels
      else parcels
    | _ => parcels
  | .swapDownload i =>
    match store.flushes[i]? with
    | some ⟨_, .takenUpload publicKey _ _ _⟩ =>
      move (publicKey, .download) .counter (.flight i) parcels
    | _ => parcels
  | .transaction i ok =>
    match store.flushes[i]? with
    | some ⟨now, .persisting _⟩ =>
      if ok then relocate (fun _ => Place.commit i (currentHour now) (oldestHour now)) parcels
      else parcels
    | _ => parcels
  | .restoreUpload i =>
    match store.flushes[i]? with
    | some ⟨_, .restoring item _⟩ => move (item.publicKey, .upload) (.flight i) .counter parcels
    | _ => parcels
  | .restoreDownload i =>
    match store.flushes[i]? with
    | some ⟨_, .restoredUpload item _⟩ =>
      move (item.publicKey, .download) (.flight i) .counter parcels
    | _ => parcels

structure Explains (store : TrafficStore) (parcels : Parcels) : Prop where
  counter : ∀ account, store.counterBytes account = heldAt parcels account .counter
  flight : ∀ i account, store.flightBytes i account = heldAt parcels account (.flight i)
  stored : ∀ hours account,
    store.database.storedBytes hours account = held parcels account (Place.isStored hours)
  integer : store.database.AllInteger
  bound : ∀ p ∈ parcels, ∀ i, p.place.flush? = some i → i < store.flushes.length

def Fits (parcels : Parcels) : Prop := ∀ account, total parcels account < 2 ^ 63

end TrafficStore

end MouseVpn.AdminApi
