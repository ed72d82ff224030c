import MouseVpn.AdminApi.TrafficBytes

/-!
# The phases of a flush

A flush goes through the devices one by one, and through its list again if it has to put bytes
back. A device is never in two places of one flush, and one that is put back is registered.
-/

namespace MouseVpn.AdminApi

open MouseVpn.Lib

def FlushPhase.Valid (counters : HashMap String RegisteredCounter) : FlushPhase → Prop
  | .taking remaining pending => (remaining ++ pending.map PendingTraffic.publicKey).Nodup
  | .takenUpload publicKey _ remaining pending =>
    (publicKey :: (remaining ++ pending.map PendingTraffic.publicKey)).Nodup
  | .persisting pending => (pending.map PendingTraffic.publicKey).Nodup
  | .restoring item items => ((item :: items).map PendingTraffic.publicKey).Nodup
  | .restoredUpload item items =>
    ((item :: items).map PendingTraffic.publicKey).Nodup ∧ item.publicKey ∈ counters
  | .returned _ => True

theorem FlushPhase.Valid.mono {counters counters' : HashMap String RegisteredCounter}
    {phase : FlushPhase} (h : phase.Valid counters) (grow : ∀ key ∈ counters, key ∈ counters') :
    phase.Valid counters' := by
  cases phase with
  | taking remaining pending => exact h
  | takenUpload publicKey uploadBytes remaining pending => exact h
  | persisting pending => exact h
  | restoring item items => exact h
  | restoredUpload item items => exact ⟨h.1, grow _ h.2⟩
  | returned ok => trivial

theorem afterDevice_valid {counters : HashMap String RegisteredCounter} {remaining : List String}
    {pending : List PendingTraffic}
    (h : (remaining ++ pending.map PendingTraffic.publicKey).Nodup) :
    (TrafficStore.afterDevice remaining pending).Valid counters := by
  rw [TrafficStore.afterDevice]
  split_ifs with hremaining hpending
  · trivial
  · rw [hremaining] at h
    exact h
  · exact h

theorem afterRestore_valid {counters : HashMap String RegisteredCounter}
    {items : List PendingTraffic} (h : (items.map PendingTraffic.publicKey).Nodup) :
    (TrafficStore.afterRestore items).Valid counters := by
  cases items with
  | nil => trivial
  | cons item items => exact h

theorem afterDevice_bytes (remaining : List String) (pending : List PendingTraffic)
    (account : Account) :
    (TrafficStore.afterDevice remaining pending).bytes account = pendingBytes pending account := by
  rw [TrafficStore.afterDevice]
  split_ifs with hremaining hpending
  · rw [hpending]
    rfl
  · rfl
  · rfl

theorem afterRestore_bytes (items : List PendingTraffic) (account : Account) :
    (TrafficStore.afterRestore items).bytes account = pendingBytes items account := by
  cases items <;> rfl

namespace TrafficStore

variable {store store' : TrafficStore} {publicKey name : String} {i : ℕ} {flush : Flush}

def PhasesValid (store : TrafficStore) : Prop :=
  ∀ flush ∈ store.flushes, flush.phase.Valid store.counters

theorem PhasesValid.grow (h : store.PhasesValid) (same : store'.flushes = store.flushes)
    (grow : ∀ key ∈ store.counters, key ∈ store'.counters) : store'.PhasesValid := by
  intro flush hmem
  rw [same] at hmem
  exact (h flush hmem).mono grow

theorem PhasesValid.setPhase (h : store.PhasesValid) {phase : FlushPhase} (i : ℕ)
    (valid : phase.Valid store.counters) : (store.setPhase i phase).PhasesValid := by
  intro flush hmem
  obtain ⟨j, hj⟩ := List.mem_iff_getElem?.1 hmem
  rw [TrafficStore.setPhase, List.getElem?_modify] at hj
  obtain ⟨old, hold, heq⟩ := Option.map_eq_some_iff.1 hj
  rw [← heq]
  split_ifs
  · exact valid
  · exact h old (List.mem_of_getElem? hold)

theorem PhasesValid.counter (h : store.PhasesValid) :
    (store.counter publicKey name).PhasesValid := by
  apply h.grow counter_flushes
  exact fun key hkey => mem_counter hkey

theorem PhasesValid.add (h : store.PhasesValid) {bytes : UInt64} {direction : Direction} :
    (store.add publicKey bytes direction).PhasesValid := by
  apply h.grow add_flushes
  exact fun key hkey => mem_add hkey

theorem PhasesValid.setCounter (h : store.PhasesValid) (registered : RegisteredCounter) :
    (store.setCounter publicKey registered).PhasesValid :=
  h.grow rfl fun _ hkey => AList.mem_insert _ |>.2 (.inr hkey)

theorem PhasesValid.found (h : store.PhasesValid) (found : store.flushes[i]? = some flush) :
    flush.phase.Valid store.counters :=
  h flush (List.mem_of_getElem? found)

theorem PhasesValid.takeUpload (h : store.PhasesValid) {remaining : List String}
    {pending : List PendingTraffic} (hmem : publicKey ∈ remaining)
    (nodup : (remaining ++ pending.map PendingTraffic.publicKey).Nodup) :
    (store.takeUpload i publicKey remaining pending).PhasesValid := by
  rw [TrafficStore.takeUpload]
  split
  · exact h
  · apply (h.setCounter _).setPhase
    have hperm := (List.perm_cons_erase hmem).append_right (pending.map PendingTraffic.publicKey)
    exact hperm.nodup_iff.1 nodup

theorem PhasesValid.takeDownload (h : store.PhasesValid) {uploadBytes : UInt64}
    {remaining : List String} {pending : List PendingTraffic}
    (nodup : (publicKey :: (remaining ++ pending.map PendingTraffic.publicKey)).Nodup) :
    (store.takeDownload i publicKey uploadBytes remaining pending).PhasesValid := by
  rw [TrafficStore.takeDownload]
  split
  · exact h
  · apply (h.setCounter _).setPhase
    apply afterDevice_valid
    split_ifs
    · exact (List.nodup_cons.1 nodup).2
    · rw [List.map_append, ← List.append_assoc]
      exact (List.perm_append_singleton _ _).nodup_iff.2 nodup

theorem PhasesValid.step (h : store.PhasesValid) (event : Event) :
    (store.step event).1.PhasesValid := by
  cases event with
  | counter publicKey name => exact h.counter
  | addUpload publicKey bytes => exact h.add
  | addDownload publicKey bytes => exact h.add
  | flushAt now =>
    intro flush hmem
    rcases List.mem_append.1 hmem with hold | hnew
    · exact h flush hold
    · rw [List.mem_singleton.1 hnew]
      apply afterDevice_valid
      rw [List.map_nil, List.append_nil]
      exact store.counters.keys_nodup
  | swapUpload i publicKey =>
    simp only [TrafficStore.step, swapUpload]
    split
    case h_1 now remaining pending found =>
      split_ifs with hmem
      · exact h.takeUpload hmem (h.found found)
      · exact h
    case h_2 => exact h
  | swapDownload i =>
    simp only [TrafficStore.step, swapDownload]
    split
    case h_1 now publicKey uploadBytes remaining pending found =>
      exact h.takeDownload (h.found found)
    case h_2 => exact h
  | transaction i ok =>
    simp only [TrafficStore.step, transaction]
    split
    case h_1 now pending found =>
      split_ifs
      · exact PhasesValid.setPhase (h.grow rfl fun _ hkey => hkey) i trivial
      · exact h.setPhase i (afterRestore_valid (h.found found))
    case h_2 => exact h
  | restoreUpload i =>
    simp only [TrafficStore.step, restoreUpload]
    split
    case h_1 now item items found =>
      exact h.counter.add.setPhase i ⟨h.found found, mem_add mem_counter_self⟩
    case h_2 => exact h
  | restoreDownload i =>
    simp only [TrafficStore.step, restoreDownload]
    split
    case h_1 now item items found =>
      have hvalid := (h.found found).1
      rw [List.map_cons] at hvalid
      exact h.add.setPhase i (afterRestore_valid (List.nodup_cons.1 hvalid).2)
    case h_2 => exact h

end TrafficStore

end MouseVpn.AdminApi
