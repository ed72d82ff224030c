import MouseVpn.AdminApi.FlushPhases
import MouseVpn.AdminApi.TrafficParcels

/-!
# The parcels explain the numbers

As long as no total reaches 2^63, every number in the store is the sum of the parcels that are
there: each step of the store is matched by what it does to the parcels.
-/

namespace MouseVpn.AdminApi

open MouseVpn.Lib Ledger

namespace TrafficStore

variable {store store' : TrafficStore} {parcels : Parcels} {i : ℕ} {flush : Flush}
  {account : Account}

theorem mem_move {source target : Place} {p : Parcel Account Place}
    (h : p ∈ move account source target parcels) :
    ∃ q ∈ parcels, p.place = q.place ∨ p.place = target := by
  obtain ⟨q, hq, rfl⟩ := List.mem_map.1 h
  refine ⟨q, hq, ?_⟩
  dsimp only
  split_ifs
  · exact .inr rfl
  · exact .inl rfl

theorem Explains.take (h : Explains store parcels) (hlt : i < store.flushes.length)
    (counter : ∀ a, store'.counterBytes a = if account = a then 0 else store.counterBytes a)
    (flight : ∀ j a, store'.flightBytes j a = store.flightBytes j a +
      if i = j ∧ account = a then store.counterBytes account else 0)
    (database : store'.database = store.database)
    (flushes : store'.flushes.length = store.flushes.length) :
    Explains store' (move account .counter (.flight i) parcels) := by
  refine ⟨?_, ?_, ?_, database ▸ h.integer, ?_⟩
  · intro a
    rw [counter, heldAt_move parcels Place.noConfusion, if_pos rfl, h.counter]
  · intro j a
    rw [flight, heldAt_move parcels Place.noConfusion, h.flight, h.counter]
    by_cases ha : account = a
    · by_cases hj : i = j
      · simp [ha, hj]
      · simp [ha, hj, Ne.symm hj]
    · simp [ha]
  · intro hours a
    rw [database, h.stored, held_move_of_not parcels rfl rfl]
  · intro p hp j hj
    rw [flushes]
    obtain ⟨q, hq, hplace | hplace⟩ := mem_move hp
    · exact h.bound q hq j (hplace ▸ hj)
    · rw [hplace] at hj
      exact Option.some.inj hj ▸ hlt

theorem Explains.putBack (h : Explains store parcels)
    (counter : ∀ a, store'.counterBytes a = store.counterBytes a +
      if account = a then store.flightBytes i account else 0)
    (flight : ∀ j a, store'.flightBytes j a =
      if i = j ∧ account = a then 0 else store.flightBytes j a)
    (database : store'.database = store.database)
    (flushes : store'.flushes.length = store.flushes.length) :
    Explains store' (move account (.flight i) .counter parcels) := by
  refine ⟨?_, ?_, ?_, database ▸ h.integer, ?_⟩
  · intro a
    rw [counter, heldAt_move parcels Place.noConfusion, h.counter, h.flight]
    by_cases ha : account = a
    · simp [ha]
    · simp [ha]
  · intro j a
    rw [flight, heldAt_move parcels Place.noConfusion, h.flight]
    by_cases ha : account = a
    · by_cases hj : i = j
      · simp [ha, hj]
      · simp [ha, hj, Ne.symm hj]
    · simp [ha]
  · intro hours a
    rw [database, h.stored, held_move_of_not parcels rfl rfl]
  · intro p hp j hj
    rw [flushes]
    obtain ⟨q, hq, hplace | hplace⟩ := mem_move hp
    · exact h.bound q hq j (hplace ▸ hj)
    · rw [hplace] at hj
      cases hj

theorem Explains.counter_add_flight (h : Explains store parcels) (i : ℕ) (account : Account) :
    store.counterBytes account + store.flightBytes i account ≤ total parcels account := by
  rw [h.counter, h.flight, heldAt, heldAt, ← held_or]
  · exact held_le_total parcels account _
  · intro place hplace
    rw [eq_of_beq hplace]
    rfl

theorem Explains.stored_add_flight (h : Explains store parcels) (i : ℕ) (account : Account) :
    store.database.storedBytes (fun _ => true) account + store.flightBytes i account ≤
      total parcels account := by
  rw [h.stored, h.flight, heldAt, ← held_or]
  · exact held_le_total parcels account _
  · intro place hplace
    cases place with
    | stored hour => rfl
    | counter => cases hplace
    | flight flush => cases hplace
    | expired => cases hplace

theorem Explains.commit (h : Explains store parcels) (fits : Fits parcels) {now : UInt64}
    {pending : List PendingTraffic} (found : store.flushes[i]? = some ⟨now, .persisting pending⟩) :
    Explains (store.commit i now pending)
      (relocate (fun _ => Place.commit i (currentHour now) (oldestHour now)) parcels) := by
  have hpending : ∀ a, pendingBytes pending a = store.flightBytes i a :=
    fun a => (flightBytes_of_found found a).symm
  have hfits : ∀ a,
      store.database.storedBytes (fun _ => true) a + pendingBytes pending a < 2 ^ 63 := by
    intro a
    rw [hpending]
    exact Nat.lt_of_le_of_lt (h.stored_add_flight i a) (fits a)
  obtain ⟨hinteger, hbytes⟩ :=
    Database.persistPending_spec (currentHour now) (oldestHour now) h.integer hfits
  have hlength : (store.commit i now pending).flushes.length = store.flushes.length :=
    List.length_modify ..
  refine ⟨?_, ?_, ?_, hinteger, ?_⟩
  · intro a
    refine (h.counter a).trans ?_
    rw [heldAt, heldAt, held_relocate]
    simp only [Place.commit_eq_counter]
  · intro j a
    have hphase : (store.commit i now pending).flightBytes j a =
        if i = j then 0 else store.flightBytes j a :=
      flightBytes_setPhase found (.returned true) j a
    rw [hphase, heldAt, held_relocate]
    simp only [Place.commit_eq_flight]
    split_ifs with hj
    · simp only [hj, ne_eq, not_true_eq_false, decide_false, Bool.false_and]
      exact (held_false parcels a).symm
    · simp only [hj, ne_eq, not_false_eq_true, decide_true, Bool.true_and]
      exact h.flight j a
  · intro hours a
    refine (hbytes hours a).trans ?_
    have hkept : decide (oldestHour now ≤ currentHour now) = true := decide_eq_true (Nat.sub_le _ _)
    rw [h.stored, hpending, h.flight, heldAt, held_relocate, hkept, Bool.and_true]
    simp only [Place.isStored_commit]
    rw [held_or]
    · split_ifs with hhour
      · simp only [hhour, Bool.and_true]
      · simp only [hhour, Bool.and_false, held_false]
    · intro place hplace
      cases place with
      | stored hour => rfl
      | counter => cases hplace
      | flight flush => cases hplace
      | expired => cases hplace
  · intro p hp j hj
    rw [hlength]
    obtain ⟨q, hq, rfl⟩ := List.mem_map.1 hp
    exact h.bound q hq j (Place.flush?_commit hj)

theorem Explains.congr (h : Explains store parcels)
    (counter : ∀ a, store'.counterBytes a = store.counterBytes a)
    (flight : ∀ j a, store'.flightBytes j a = store.flightBytes j a)
    (database : store'.database = store.database)
    (flushes : store.flushes.length ≤ store'.flushes.length) : Explains store' parcels where
  counter a := (counter a).trans (h.counter a)
  flight j a := (flight j a).trans (h.flight j a)
  stored hours a := by rw [database, h.stored]
  integer := database ▸ h.integer
  bound p hp j hj := Nat.lt_of_lt_of_le (h.bound p hp j hj) flushes

theorem Explains.add (h : Explains store parcels) {publicKey : String} {bytes : UInt64}
    {direction : Direction} (fits : Fits (store.followAdd parcels publicKey bytes direction)) :
    Explains (store.add publicKey bytes direction)
      (store.followAdd parcels publicKey bytes direction) := by
  rw [followAdd] at fits ⊢
  split_ifs at fits ⊢ with known
  · have htotal := fits (publicKey, direction)
    have hle := held_le_total parcels (publicKey, direction) (fun p => p == Place.counter)
    rw [total, held_append, held_singleton, Parcel.share, if_pos ⟨rfl, rfl⟩] at htotal
    have hcounter : store.counterBytes (publicKey, direction) + bytes.toNat < 2 ^ 64 := by
      rw [h.counter, heldAt]
      rw [total] at hle
      dsimp only at htotal
      omega
    have hadd := fun a => counterBytes_add known hcounter a
    refine ⟨?_, ?_, ?_, ?_, ?_⟩
    · intro a
      rw [hadd, heldAt, held_append, held_singleton, Parcel.share, h.counter]
      simp [heldAt]
    · intro j a
      rw [flightBytes, add_flushes, heldAt, held_append, held_singleton,
        share_false _ _ (rfl : (Place.counter == Place.flight j) = false)]
      exact h.flight j a
    · intro hours a
      rw [add_database, h.stored, held_append, held_singleton, share_false _ _ rfl, Nat.add_zero]
    · rw [add_database]
      exact h.integer
    · intro p hp j hj
      rw [add_flushes]
      rcases List.mem_append.1 hp with hold | hnew
      · exact h.bound p hold j hj
      · rw [List.mem_singleton.1 hnew] at hj
        cases hj
  · have hsame : store.add publicKey bytes direction = store := by
      rw [TrafficStore.add, AList.lookup_eq_none.2 known]
    rw [hsame]
    exact h

theorem pendingBytes_singleton (item : PendingTraffic) (a : Account) :
    pendingBytes [item] a =
      (if (item.publicKey, Direction.upload) = a then item.uploadBytes.toNat else 0) +
        if (item.publicKey, Direction.download) = a then item.downloadBytes.toNat else 0 := by
  obtain ⟨key, direction⟩ := a
  cases direction <;> simp [pendingBytes, PendingTraffic.bytes]

theorem pendingBytes_device (item : PendingTraffic) (pending : List PendingTraffic) (a : Account) :
    pendingBytes (if item.uploadBytes = 0 ∧ item.downloadBytes = 0 then pending
      else pending ++ [item]) a = pendingBytes pending a + pendingBytes [item] a := by
  split_ifs with hskip
  · rw [pendingBytes_singleton, hskip.1, hskip.2]
    simp
  · exact pendingBytes_append pending [item] a

theorem Explains.take_missing (h : Explains store parcels) {publicKey : String}
    (missing : store.counters.lookup publicKey = none) (hlt : i < store.flushes.length)
    (direction : Direction) :
    Explains store (move (publicKey, direction) .counter (.flight i) parcels) := by
  have hzero : store.counterBytes (publicKey, direction) = 0 := by
    rw [counterBytes, missing]
  refine h.take hlt ?_ ?_ rfl rfl
  · intro a
    split_ifs with ha
    · rw [← ha, hzero]
    · rfl
  · intro j a
    rw [hzero, ite_self, Nat.add_zero]

theorem Explains.take_known (h : Explains store parcels) {publicKey : String}
    {registered : RegisteredCounter} (known : store.counters.lookup publicKey = some registered)
    (found : store.flushes[i]? = some flush) {direction : Direction} {phase : FlushPhase}
    (bytes : ∀ a, phase.bytes a = flush.phase.bytes a +
      if (publicKey, direction) = a then (registered.counter.load direction).toNat else 0) :
    Explains ((store.setCounter publicKey
        { registered with counter := registered.counter.store 0 direction }).setPhase i phase)
      (move (publicKey, direction) .counter (.flight i) parcels) := by
  obtain ⟨hlt, -⟩ := List.getElem?_eq_some_iff.1 found
  refine h.take hlt ?_ ?_ rfl (List.length_modify ..)
  · exact fun a => counterBytes_store known 0 a
  · intro j a
    have hphase : ((store.setCounter publicKey
        { registered with counter := registered.counter.store 0 direction }).setPhase i
          phase).flightBytes j a = if i = j then phase.bytes a else store.flightBytes j a :=
      flightBytes_setPhase found phase j a
    rw [hphase, counterBytes_of_lookup known]
    split_ifs with hj hboth hboth
    · rw [bytes, if_pos hboth.2, ← hj, flightBytes_of_found found]
    · rw [bytes, if_neg fun ha => hboth ⟨hj, ha⟩, ← hj, flightBytes_of_found found]
    · exact absurd hboth.1 hj
    · rfl

theorem Explains.takeUpload (h : Explains store parcels) {publicKey : String} {now : UInt64}
    {remaining : List String} {pending : List PendingTraffic}
    (found : store.flushes[i]? = some ⟨now, .taking remaining pending⟩) :
    Explains (store.takeUpload i publicKey remaining pending)
      (move (publicKey, .upload) .counter (.flight i) parcels) := by
  rw [TrafficStore.takeUpload]
  split
  case h_1 missing => exact h.take_missing missing (List.getElem?_eq_some_iff.1 found).1 _
  case h_2 registered known =>
    apply h.take_known known found
    intro a
    exact Nat.add_comm _ _

theorem Explains.takeDownload (h : Explains store parcels) {publicKey : String} {now : UInt64}
    {uploadBytes : UInt64} {remaining : List String} {pending : List PendingTraffic}
    (found : store.flushes[i]? = some ⟨now, .takenUpload publicKey uploadBytes remaining pending⟩) :
    Explains (store.takeDownload i publicKey uploadBytes remaining pending)
      (move (publicKey, .download) .counter (.flight i) parcels) := by
  rw [TrafficStore.takeDownload]
  split
  case h_1 missing => exact h.take_missing missing (List.getElem?_eq_some_iff.1 found).1 _
  case h_2 registered known =>
    apply h.take_known known found
    intro a
    have hdevice := pendingBytes_device ⟨publicKey, registered.name, uploadBytes,
      registered.counter.load .download⟩ pending a
    rw [pendingBytes_singleton] at hdevice
    rw [afterDevice_bytes]
    refine hdevice.trans ?_
    simp only [FlushPhase.bytes]
    omega

theorem Explains.putBack_known (h : Explains store parcels) (fits : Fits parcels)
    {publicKey : String} (known : publicKey ∈ store.counters)
    (found : store.flushes[i]? = some flush) {direction : Direction} {bytes : UInt64}
    (amount : flush.phase.bytes (publicKey, direction) = bytes.toNat) {phase : FlushPhase}
    (rest : ∀ a, phase.bytes a = if (publicKey, direction) = a then 0 else flush.phase.bytes a) :
    Explains ((store.add publicKey bytes direction).setPhase i phase)
      (move (publicKey, direction) (.flight i) .counter parcels) := by
  have hflight : store.flightBytes i (publicKey, direction) = bytes.toNat :=
    (flightBytes_of_found found _).trans amount
  have hcounter : store.counterBytes (publicKey, direction) + bytes.toNat < 2 ^ 64 := by
    have hle := h.counter_add_flight i (publicKey, direction)
    have hlt := fits (publicKey, direction)
    rw [hflight] at hle
    omega
  refine h.putBack ?_ ?_ add_database ((List.length_modify ..).trans (congrArg _ add_flushes))
  · intro a
    rw [hflight]
    exact counterBytes_add known hcounter a
  · intro j a
    have hphase := flightBytes_setPhase (add_flushes.symm ▸ found :
      (store.add publicKey bytes direction).flushes[i]? = some flush) phase j a
    rw [hphase]
    split_ifs with hj hboth hboth
    · rw [rest, if_pos hboth.2]
    · rw [rest, if_neg fun ha => hboth ⟨hj, ha⟩, ← hj, flightBytes_of_found found]
    · exact absurd hboth.1 hj
    · rw [flightBytes, add_flushes]
      rfl

theorem Explains.restoreUpload (h : Explains store parcels) (fits : Fits parcels) {now : UInt64}
    {item : PendingTraffic} {items : List PendingTraffic}
    (found : store.flushes[i]? = some ⟨now, .restoring item items⟩)
    (nodup : ((item :: items).map PendingTraffic.publicKey).Nodup) :
    Explains (((store.counter item.publicKey item.name).add item.publicKey item.uploadBytes
        .upload).setPhase i (.restoredUpload item items))
      (move (item.publicKey, .upload) (.flight i) .counter parcels) := by
  have hfresh : ∀ direction, pendingBytes items (item.publicKey, direction) = 0 :=
    fun direction => pendingBytes_eq_zero (List.nodup_cons.1 nodup).1
  have hcounter : Explains (store.counter item.publicKey item.name) parcels := by
    apply h.congr
    · exact fun a => counterBytes_counter a
    · intro j a
      rw [flightBytes, counter_flushes]
      rfl
    · exact counter_database
    · rw [counter_flushes]
  have hbytes : ∀ a, FlushPhase.bytes a (.restoring item items) =
      pendingBytes [item] a + pendingBytes items a :=
    fun a => pendingBytes_append [item] items a
  apply hcounter.putBack_known fits mem_counter_self (counter_flushes ▸ found)
  · rw [hbytes, pendingBytes_singleton, hfresh]
    simp
  · intro a
    rw [hbytes, pendingBytes_singleton, FlushPhase.bytes]
    by_cases ha : (item.publicKey, Direction.upload) = a
    · rw [if_pos ha, ← ha, hfresh]
      simp
    · simp only [ha, if_false, Nat.zero_add]

theorem Explains.restoreDownload (h : Explains store parcels) (fits : Fits parcels) {now : UInt64}
    {item : PendingTraffic} {items : List PendingTraffic}
    (found : store.flushes[i]? = some ⟨now, .restoredUpload item items⟩)
    (nodup : ((item :: items).map PendingTraffic.publicKey).Nodup)
    (known : item.publicKey ∈ store.counters) :
    Explains
      ((store.add item.publicKey item.downloadBytes .download).setPhase i (afterRestore items))
      (move (item.publicKey, .download) (.flight i) .counter parcels) := by
  have hfresh : ∀ direction, pendingBytes items (item.publicKey, direction) = 0 :=
    fun direction => pendingBytes_eq_zero (List.nodup_cons.1 nodup).1
  apply h.putBack_known fits known found
  · rw [FlushPhase.bytes, if_pos rfl, hfresh, Nat.add_zero]
  · intro a
    rw [afterRestore_bytes, FlushPhase.bytes]
    split_ifs with ha
    · rw [← ha, hfresh]
    · rw [Nat.zero_add]

theorem Explains.rollBack (h : Explains store parcels) {now : UInt64}
    {pending : List PendingTraffic}
    (found : store.flushes[i]? = some ⟨now, .persisting pending⟩) :
    Explains (store.setPhase i (afterRestore pending)) parcels := by
  apply h.congr
  · exact fun a => rfl
  · intro j a
    rw [flightBytes_setPhase found, afterRestore_bytes]
    split_ifs with hj
    · rw [← hj, flightBytes_of_found found]
      rfl
    · rfl
  · rfl
  · exact Nat.le_of_eq (List.length_modify ..).symm

theorem total_follow (store : TrafficStore) (parcels : Parcels) (event : Event) (a : Account) :
    total (store.follow parcels event) a = total parcels a + store.addedBy event a := by
  have hadd : ∀ publicKey bytes direction,
      total (store.followAdd parcels publicKey bytes direction) a = total parcels a +
        if (publicKey, direction) = a ∧ publicKey ∈ store.counters then UInt64.toNat bytes
        else 0 := by
    intro publicKey bytes direction
    rw [followAdd]
    split_ifs with known hboth hboth
    · rw [total, held_append, held_singleton, Parcel.share, if_pos ⟨hboth.1, rfl⟩]
      rfl
    · rw [total, held_append, held_singleton, Parcel.share,
        if_neg fun hshare => hboth ⟨hshare.1, known⟩]
      rfl
    · exact absurd hboth.2 known
    · rfl
  cases event with
  | counter publicKey name => rfl
  | addUpload publicKey bytes => exact hadd publicKey bytes .upload
  | addDownload publicKey bytes => exact hadd publicKey bytes .download
  | flushAt now => rfl
  | swapUpload i publicKey =>
    simp only [follow]
    split
    · split_ifs
      · exact total_relocate parcels a _
      · rfl
    · rfl
  | swapDownload i =>
    simp only [follow]
    split
    · exact total_relocate parcels a _
    · rfl
  | transaction i ok =>
    simp only [follow]
    split
    · split_ifs
      · exact total_relocate parcels a _
      · rfl
    · rfl
  | restoreUpload i =>
    simp only [follow]
    split
    · exact total_relocate parcels a _
    · rfl
  | restoreDownload i =>
    simp only [follow]
    split
    · exact total_relocate parcels a _
    · rfl

theorem Fits.of_follow {event : Event} (fits : Fits (store.follow parcels event)) :
    Fits parcels := by
  intro a
  have hlt := fits a
  rw [total_follow] at hlt
  omega

theorem Explains.step (h : Explains store parcels) (valid : store.PhasesValid) (event : Event)
    (fits : Fits (store.follow parcels event)) :
    Explains (store.step event).1 (store.follow parcels event) := by
  have hfits := fits.of_follow
  cases event with
  | counter publicKey name =>
    apply h.congr
    · exact fun a => counterBytes_counter a
    · intro j a
      simp only [TrafficStore.step, flightBytes, counter_flushes]
    · exact counter_database
    · exact Nat.le_of_eq (congrArg List.length counter_flushes.symm)
  | addUpload publicKey bytes => exact h.add fits
  | addDownload publicKey bytes => exact h.add fits
  | flushAt now =>
    apply h.congr
    · exact fun a => rfl
    · exact fun j a => flightBytes_flushAt now j a
    · rfl
    · rw [TrafficStore.step, flushAt, List.length_append]
      exact Nat.le_add_right _ _
  | swapUpload i publicKey =>
    simp only [TrafficStore.step, follow, swapUpload]
    cases found : store.flushes[i]? with
    | none => exact h
    | some flush =>
      obtain ⟨now, phase⟩ := flush
      cases phase with
      | taking remaining pending =>
        dsimp only
        split_ifs
        · exact h.takeUpload found
        · exact h
      | _ => exact h
  | swapDownload i =>
    simp only [TrafficStore.step, follow, swapDownload]
    cases found : store.flushes[i]? with
    | none => exact h
    | some flush =>
      obtain ⟨now, phase⟩ := flush
      cases phase with
      | takenUpload publicKey uploadBytes remaining pending => exact h.takeDownload found
      | _ => exact h
  | transaction i ok =>
    simp only [TrafficStore.step, follow, transaction]
    cases found : store.flushes[i]? with
    | none => exact h
    | some flush =>
      obtain ⟨now, phase⟩ := flush
      cases phase with
      | persisting pending =>
        dsimp only
        split_ifs
        · exact h.commit hfits found
        · exact h.rollBack found
      | _ => exact h
  | restoreUpload i =>
    simp only [TrafficStore.step, follow, TrafficStore.restoreUpload]
    cases found : store.flushes[i]? with
    | none => exact h
    | some flush =>
      obtain ⟨now, phase⟩ := flush
      cases phase with
      | restoring item items => exact h.restoreUpload hfits found (valid.found found)
      | _ => exact h
  | restoreDownload i =>
    simp only [TrafficStore.step, follow, TrafficStore.restoreDownload]
    cases found : store.flushes[i]? with
    | none => exact h
    | some flush =>
      obtain ⟨now, phase⟩ := flush
      cases phase with
      | restoredUpload item items =>
        obtain ⟨nodup, known⟩ := valid.found found
        exact h.restoreDownload hfits found nodup known
      | _ => exact h

end TrafficStore

end MouseVpn.AdminApi
