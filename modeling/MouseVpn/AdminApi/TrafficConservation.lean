import MouseVpn.AdminApi.TrafficLedger

/-!
# Whole runs of the traffic store

The rows that a store begins with are parcels as well. Along every run the numbers of the store
are sums of parcels, and what the places hold together is what there was and what was added.
-/

namespace MouseVpn.AdminApi

open MouseVpn.Lib Ledger

theorem Place.total_split (parcels : Parcels) (account : Account) :
    total parcels account = heldAt parcels account .counter +
      held parcels account (fun place => place.flush?.isSome) +
      held parcels account (Place.isStored fun _ => true) + heldAt parcels account .expired := by
  have hcases : ∀ place : Place, (fun _ => true) place =
      (((place == .counter || place.flush?.isSome) || place.isStored fun _ => true) ||
        place == .expired) := by
    intro place
    cases place <;> rfl
  rw [total, funext hcases, held_or, held_or, held_or]
  · rfl
  · intro place h
    cases place <;> first | rfl | cases h
  · intro place h
    cases place <;> first | rfl | cases h
  · intro place h
    cases place <;> first | rfl | cases h

def rowParcels (entries : List (Σ _ : ℕ × String, Row)) : Parcels :=
  entries.flatMap fun entry =>
    [⟨(entry.1.2, .upload), .stored entry.1.1, entry.2.uploadBytes.value⟩,
      ⟨(entry.1.2, .download), .stored entry.1.1, entry.2.downloadBytes.value⟩]

theorem held_rowParcels (entries : List (Σ _ : ℕ × String, Row)) (account : Account)
    (P : Place → Bool) :
    held (rowParcels entries) account P = (entries.map fun entry =>
      if entry.1.2 = account.1 ∧ P (.stored entry.1.1) = true then (entry.2.bytes account.2).value
      else 0).sum := by
  obtain ⟨publicKey, direction⟩ := account
  induction entries with
  | nil => rfl
  | cons entry entries ih =>
    rw [List.map_cons, List.sum_cons, ← ih, rowParcels, List.flatMap_cons, held_append]
    congr 1
    rw [held_cons, held_singleton]
    cases direction <;> simp [Parcel.share, Row.bytes]

theorem place_rowParcels {entries : List (Σ _ : ℕ × String, Row)} {p : Parcel Account Place}
    (h : p ∈ rowParcels entries) : ∃ hour, p.place = .stored hour := by
  obtain ⟨entry, -, hentry⟩ := List.mem_flatMap.1 h
  rcases List.mem_cons.1 hentry with rfl | hdownload
  · exact ⟨_, rfl⟩
  · rw [List.mem_singleton.1 hdownload]
    exact ⟨_, rfl⟩

namespace TrafficStore

variable {store : TrafficStore} {parcels : Parcels} {events : List Event} {account : Account}
  {database : Database}

def trace (traced : TrafficStore × Parcels) (event : Event) : (TrafficStore × Parcels) × Unit :=
  (((traced.1.step event).1, traced.1.follow traced.2 event), ())

def parcelsAfter (store : TrafficStore) (parcels : Parcels) (events : List Event) : Parcels :=
  (Machine.run trace (store, parcels) events).2

theorem trace_fst (store : TrafficStore) (parcels : Parcels) (events : List Event) :
    (Machine.run trace (store, parcels) events).1 = store.run events := by
  induction events using List.reverseRecOn with
  | nil => rfl
  | append_singleton events event ih =>
    rw [Machine.run_concat, run, Machine.run_concat]
    exact congrArg (fun store => (step store event).1) ih

theorem parcelsAfter_concat (store : TrafficStore) (parcels : Parcels) (events : List Event)
    (event : Event) : store.parcelsAfter parcels (events ++ [event]) =
      (store.run events).follow (store.parcelsAfter parcels events) event := by
  rw [parcelsAfter, Machine.run_concat, ← trace_fst store parcels events]
  rfl

theorem run_concat (store : TrafficStore) (events : List Event) (event : Event) :
    store.run (events ++ [event]) = ((store.run events).step event).1 :=
  Machine.run_concat step store events event

theorem total_parcelsAfter (store : TrafficStore) (parcels : Parcels) (events : List Event)
    (account : Account) : total (store.parcelsAfter parcels events) account =
      total parcels account + store.addedBytes events account := by
  induction events using List.reverseRecOn with
  | nil => rfl
  | append_singleton events event ih =>
    rw [parcelsAfter_concat, total_follow, ih, addedBytes, addedBytes, Machine.observe_concat,
      List.sum_append, List.sum_singleton, Nat.add_assoc]
    rfl

theorem phasesValid_run (h : store.PhasesValid) (events : List Event) :
    (store.run events).PhasesValid :=
  Machine.run_invariant step PhasesValid (fun _ event hstore => hstore.step event) h events

theorem Explains.run (h : Explains store parcels) (valid : store.PhasesValid)
    (fits : Fits (store.parcelsAfter parcels events)) :
    Explains (store.run events) (store.parcelsAfter parcels events) := by
  induction events using List.reverseRecOn with
  | nil => exact h
  | append_singleton events event ih =>
    rw [parcelsAfter_concat] at fits ⊢
    rw [run_concat]
    exact (ih fits.of_follow).step (phasesValid_run valid events) event fits

theorem explains_opened (integer : database.AllInteger) :
    Explains (opened database) (rowParcels database.entries) := by
  have hnowhere : ∀ place : Place, (∀ hour, Place.stored hour ≠ place) →
      ∀ a, heldAt (rowParcels database.entries) a place = 0 := by
    intro place hplace a
    rw [heldAt, held_rowParcels]
    apply List.sum_eq_zero_iff_forall_eq_nat.2
    intro n hn
    obtain ⟨entry, -, rfl⟩ := List.mem_map.1 hn
    rw [if_neg]
    intro h
    exact hplace entry.1.1 (eq_of_beq h.2)
  refine ⟨?_, ?_, ?_, integer, ?_⟩
  · intro a
    rw [hnowhere _ fun _ => Place.noConfusion]
    rfl
  · intro i a
    rw [hnowhere _ fun _ => Place.noConfusion]
    rfl
  · intro hours a
    rw [held_rowParcels]
    rfl
  · intro p hp i hi
    obtain ⟨hour, hplace⟩ := place_rowParcels hp
    rw [hplace] at hi
    cases hi

theorem phasesValid_opened (database : Database) : (opened database).PhasesValid := by
  intro flush hmem
  cases hmem

theorem total_rowParcels (database : Database) (account : Account) :
    total (rowParcels database.entries) account = (opened database).storedBytes account := by
  rw [total, held_rowParcels]
  rfl

theorem sum_flightBytes (store : TrafficStore) (account : Account) :
    store.inFlightBytes account =
      ((List.range store.flushes.length).map fun i => store.flightBytes i account).sum := by
  rw [inFlightBytes]
  congr 1
  apply List.ext_getElem
  · rw [List.length_map, List.length_map, List.length_range]
  · intro i hi hi'
    rw [List.length_map] at hi
    simp [flightBytes, hi]

theorem Explains.inFlight (h : Explains store parcels) (account : Account) :
    store.inFlightBytes account = held parcels account fun place => place.flush?.isSome := by
  rw [sum_flightBytes, ← sum_held_index parcels account Place.flush? h.bound]
  congr 1
  apply List.map_congr_left
  intro i _
  rw [h.flight, heldAt]
  congr 1
  funext place
  cases place with
  | flight j =>
    by_cases hj : j = i
    · simp [hj, Place.flush?]
    · simp [hj, Place.flush?]
  | counter => rfl
  | stored hour => rfl
  | expired => rfl

theorem Explains.conserved (h : Explains store parcels) (account : Account) :
    store.storedBytes account + store.counterBytes account + store.inFlightBytes account +
      heldAt parcels account .expired = total parcels account := by
  rw [Place.total_split, h.counter, h.inFlight, storedBytes, h.stored]
  omega

theorem Explains.commit_expired (h : Explains store parcels) {i hour oldest : ℕ}
    (kept : ∀ key ∈ store.database, oldest ≤ key.1) (account : Account) :
    heldAt (relocate (fun _ => Place.commit i hour oldest) parcels) account .expired =
      heldAt parcels account .expired := by
  have hrows : held parcels account (Place.isStored fun hour => decide (hour < oldest)) = 0 := by
    rw [← h.stored]
    apply HashMap.sum_eq_zero
    intro key row found
    rw [if_neg]
    intro hboth
    have hold := kept key (AList.lookup_isSome.1 (Option.isSome_iff_exists.2 ⟨row, found⟩))
    exact Nat.not_lt.2 hold (of_decide_eq_true hboth.2)
  have hplace : ∀ place : Place, (place.commit i hour oldest == .expired) =
      (place == .expired || place.isStored fun hour => decide (hour < oldest)) := by
    intro place
    cases place with
    | flight j => rw [Place.commit]; split_ifs <;> rfl
    | stored other =>
      rw [Place.commit]
      split_ifs with hother
      · simp [Place.isStored, hother]
      · simp [Place.isStored, Nat.lt_of_not_le hother]
    | counter => rfl
    | expired => rfl
  rw [heldAt, held_relocate]
  simp only [hplace]
  rw [held_or, hrows]
  · rfl
  · intro place hexpired
    rw [eq_of_beq hexpired]
    rfl

theorem follow_expired (h : Explains store parcels) {event : Event}
    (kept : ∀ i now pending, event = .transaction i true →
      store.flushes[i]? = some ⟨now, .persisting pending⟩ →
      ∀ key ∈ store.database, oldestHour now ≤ key.1) (account : Account) :
    heldAt (store.follow parcels event) account .expired = heldAt parcels account .expired := by
  have hadd : ∀ publicKey bytes direction,
      heldAt (store.followAdd parcels publicKey bytes direction) account .expired =
        heldAt parcels account .expired := by
    intro publicKey bytes direction
    rw [followAdd]
    split_ifs
    · rw [heldAt, held_append, held_singleton, share_false _ _ rfl]
      rfl
    · rfl
  cases event with
  | counter publicKey name => rfl
  | addUpload publicKey bytes => exact hadd publicKey bytes .upload
  | addDownload publicKey bytes => exact hadd publicKey bytes .download
  | flushAt now => rfl
  | swapUpload i publicKey =>
    simp only [follow]
    split
    · split_ifs
      · exact held_move_of_not parcels rfl rfl account
      · rfl
    · rfl
  | swapDownload i =>
    simp only [follow]
    split
    · exact held_move_of_not parcels rfl rfl account
    · rfl
  | transaction i ok =>
    simp only [follow]
    split
    case h_1 now pending found =>
      split_ifs with hok
      · subst hok
        exact h.commit_expired (kept i now pending rfl found) account
      · rfl
    case h_2 => rfl
  | restoreUpload i =>
    simp only [follow]
    split
    · exact held_move_of_not parcels rfl rfl account
    · rfl
  | restoreDownload i =>
    simp only [follow]
    split
    · exact held_move_of_not parcels rfl rfl account
    · rfl

theorem NothingExpires.of_concat {event : Event} (h : store.NothingExpires (events ++ [event])) :
    store.NothingExpires events := by
  intro past i rest now pending heq found
  apply h past i (rest ++ [event]) now pending _ found
  rw [heq, List.append_assoc, List.cons_append]

theorem expired_eq_zero (h : Explains store parcels) (valid : store.PhasesValid)
    (fits : Fits (store.parcelsAfter parcels events)) (kept : store.NothingExpires events)
    (none : heldAt parcels account .expired = 0) :
    heldAt (store.parcelsAfter parcels events) account .expired = 0 := by
  induction events using List.reverseRecOn with
  | nil => exact none
  | append_singleton events event ih =>
    rw [parcelsAfter_concat] at fits ⊢
    have hfits := fits.of_follow
    rw [follow_expired (h.run valid hfits), ih hfits kept.of_concat]
    intro i now pending heq found
    exact kept events i [] now pending (by rw [heq]) found

/-- Whatever interleaving of additions and flushes has run, the bytes of a device and a direction
in the database, in its counter and in the flushes in progress are together those that the
database had and those that were added. -/
theorem traffic_conserved (database : Database) (integer : database.AllInteger)
    (events : List Event)
    (fits : ∀ account, (opened database).storedBytes account +
      (opened database).addedBytes events account < 2 ^ 63)
    (kept : (opened database).NothingExpires events) (account : Account) :
    ((opened database).run events).storedBytes account +
        ((opened database).run events).counterBytes account +
        ((opened database).run events).inFlightBytes account =
      (opened database).storedBytes account + (opened database).addedBytes events account := by
  have hopened := explains_opened integer
  have hvalid := phasesValid_opened database
  have htotal : ∀ a, total ((opened database).parcelsAfter (rowParcels database.entries) events) a =
      (opened database).storedBytes a + (opened database).addedBytes events a := by
    intro a
    rw [total_parcelsAfter, total_rowParcels]
  have hfits : Fits ((opened database).parcelsAfter (rowParcels database.entries) events) := by
    intro a
    rw [htotal]
    exact fits a
  have hexpired : heldAt (rowParcels database.entries) account .expired = 0 := by
    rw [heldAt, held_rowParcels]
    simp
  have hconserved := (hopened.run hvalid hfits).conserved account
  rw [expired_eq_zero hopened hvalid hfits kept hexpired, htotal] at hconserved
  exact hconserved

def failedFlush : List Event :=
  [.counter "key" "Laptop", .addUpload "key" 5, .flushAt 36000, .swapUpload 0 "key",
    .addUpload "key" 2, .swapDownload 0, .transaction 0 false]

theorem failedFlush_conserved :
    ((opened ∅).run failedFlush).storedBytes ("key", .upload) +
        ((opened ∅).run failedFlush).counterBytes ("key", .upload) +
        ((opened ∅).run failedFlush).inFlightBytes ("key", .upload) =
      (opened ∅).storedBytes ("key", .upload) +
        (opened ∅).addedBytes failedFlush ("key", .upload) := by
  apply traffic_conserved ∅
  · intro key row found
    cases found
  · intro a
    have hempty : (opened ∅).storedBytes a = 0 := rfl
    have hadded : (opened ∅).addedBytes failedFlush a ≤ 7 := by
      simp only [addedBytes, failedFlush, Machine.observe, addedBy, List.sum_cons, List.sum_nil]
      split_ifs <;> decide
    omega
  · intro past i rest now pending heq
    have hmem : Event.transaction i true ∈ failedFlush := by
      rw [heq]
      exact List.mem_append_right _ List.mem_cons_self
    simp [failedFlush] at hmem

end TrafficStore

end MouseVpn.AdminApi
