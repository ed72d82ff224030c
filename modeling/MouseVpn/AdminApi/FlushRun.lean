import MouseVpn.AdminApi.FlushPhases
import MouseVpn.AdminApi.ReportBytes

/-!
# A flush that nothing interrupts

When no other step comes between the steps of a flush, the bytes of a counter are either still
there or in the list of the flush. The flush returns with every counter at zero and its list in
the history, or with everything as it was.
-/

namespace MouseVpn.AdminApi

open MouseVpn.Lib

def Event.ofFlush (i : ℕ) : Event → Bool
  | .swapUpload j _ => decide (j = i)
  | .swapDownload j => decide (j = i)
  | .transaction j _ => decide (j = i)
  | .restoreUpload j => decide (j = i)
  | .restoreDownload j => decide (j = i)
  | .counter _ _ => false
  | .addUpload _ _ => false
  | .addDownload _ _ => false
  | .flushAt _ => false

/-- A call of `flush_at` that returns, with no other step in between. -/
structure FlushCall (store : TrafficStore) (now : UInt64) (events : List Event) (ok : Bool) :
    Prop where
  own : ∀ event ∈ events, event.ofFlush store.flushes.length = true
  returned : (store.run (.flushAt now :: events)).flushes[store.flushes.length]? =
    some ⟨now, .returned ok⟩

def RegisteredCounter.keep (registered : RegisteredCounter) (keep : Direction → Bool) :
    RegisteredCounter :=
  ⟨registered.name, if keep .upload then registered.counter.uploadBytes else 0,
    if keep .download then registered.counter.downloadBytes else 0⟩

def Left (counters : HashMap String RegisteredCounter) (keep : String → Direction → Bool)
    (now : HashMap String RegisteredCounter) : Prop :=
  ∀ key, now.lookup key = (counters.lookup key).map fun registered => registered.keep (keep key)

def taken (counters : HashMap String RegisteredCounter) (key : String) : Option PendingTraffic :=
  (counters.lookup key).bind fun registered => peekCounter ⟨key, registered⟩

structure ItemsOf (counters : HashMap String RegisteredCounter) (devices : String → Bool)
    (pending : List PendingTraffic) : Prop where
  distinct : KeyedList.Distinct PendingTraffic.publicKey pending
  find : ∀ key, KeyedList.find PendingTraffic.publicKey pending key =
    if devices key = true then taken counters key else none

section Counters

variable {counters counters' : HashMap String RegisteredCounter}
  {registered : RegisteredCounter} {key : String}

theorem taken_of_lookup (found : counters.lookup key = some registered) :
    taken counters key =
      if registered.counter.uploadBytes = 0 ∧ registered.counter.downloadBytes = 0 then none
      else some ⟨key, registered.name, registered.counter.uploadBytes,
        registered.counter.downloadBytes⟩ := by
  rw [taken, found]
  rfl

theorem taken_eq_some {item : PendingTraffic} (h : taken counters key = some item) :
    ∃ registered, counters.lookup key = some registered ∧
      item = ⟨key, registered.name, registered.counter.uploadBytes,
        registered.counter.downloadBytes⟩ := by
  obtain ⟨registered, hfound, -⟩ := Option.bind_eq_some_iff.mp h
  rw [taken_of_lookup hfound] at h
  split_ifs at h
  exact ⟨registered, hfound, (Option.some.inj h).symm⟩

theorem keep_of_taken_none (found : counters.lookup key = some registered)
    (h : taken counters key = none) (keep : Direction → Bool) :
    registered.keep keep = registered := by
  rw [taken_of_lookup found] at h
  split_ifs at h with hzero
  obtain ⟨name, upload, download⟩ := registered
  obtain ⟨hupload, hdownload⟩ := hzero
  simp only at hupload hdownload
  subst hupload
  subst hdownload
  simp [RegisteredCounter.keep]

theorem Left.congr {keep keep' : String → Direction → Bool} (h : Left counters keep counters')
    (same : ∀ key, taken counters key ≠ none → keep' key = keep key) :
    Left counters keep' counters' := by
  intro key
  rw [h key]
  cases hfound : counters.lookup key with
  | none => rfl
  | some registered =>
    by_cases htaken : taken counters key = none
    · rw [Option.map_some, Option.map_some, keep_of_taken_none hfound htaken,
        keep_of_taken_none hfound htaken]
    · rw [same key htaken]

theorem Left.write {keep keep' : String → Direction → Bool} (h : Left counters keep counters')
    {written : HashMap String RegisteredCounter} {value : RegisteredCounter}
    (found : counters.lookup key = some registered)
    (others : ∀ other, other ≠ key → keep' other = keep other)
    (hwritten : ∀ other, written.lookup other =
      if other = key then some value else counters'.lookup other)
    (hvalue : value = registered.keep (keep' key)) : Left counters keep' written := by
  intro other
  rw [hwritten]
  split_ifs with heq
  · rw [heq, found, hvalue]
    rfl
  · rw [h other, others other heq]

theorem find_peekPending (counters : HashMap String RegisteredCounter) (key : String) :
    KeyedList.find PendingTraffic.publicKey (peekPending counters) key = taken counters key := by
  ext item
  rw [KeyedList.find_eq_some (peekPending_distinct counters), peekPending, List.mem_filterMap,
    taken, Option.bind_eq_some_iff]
  constructor
  · intro h
    obtain ⟨⟨entry, hentry, hpeek⟩, hkey⟩ := h
    have hentry := HashMap.lookup_eq_some_iff.mpr hentry
    have hsame : item.publicKey = entry.1 := peekCounter_publicKey hpeek
    rw [← hkey, hsame]
    exact ⟨entry.2, hentry, hpeek⟩
  · intro h
    obtain ⟨registered, hfound, hpeek⟩ := h
    exact ⟨⟨⟨key, registered⟩, HashMap.lookup_eq_some_iff.mp hfound, hpeek⟩,
      peekCounter_publicKey hpeek⟩

theorem ItemsOf.perm {pending : List PendingTraffic}
    (h : ItemsOf counters (fun _ => true) pending) :
    (peekPending counters).Perm pending := by
  apply KeyedList.perm_of_find (peekPending_distinct counters) h.distinct
  intro key
  rw [find_peekPending, h.find, if_pos rfl]

theorem ItemsOf.taken {devices : String → Bool} {pending : List PendingTraffic}
    (h : ItemsOf counters devices pending) {item : PendingTraffic} (hitem : item ∈ pending) :
    taken counters item.publicKey = some item := by
  have hfind := (KeyedList.mem_iff_find h.distinct).mp hitem
  rw [h.find] at hfind
  split_ifs at hfind
  exact hfind

theorem ItemsOf.not_mem {devices : String → Bool} {pending : List PendingTraffic}
    (h : ItemsOf counters devices pending) (hkey : devices key = false) :
    key ∉ pending.map PendingTraffic.publicKey := by
  intro hmem
  obtain ⟨item, hitem, rfl⟩ := List.mem_map.mp hmem
  have hfind := (KeyedList.mem_iff_find h.distinct).mp hitem
  rw [h.find, hkey] at hfind
  cases hfind

theorem ItemsOf.add {devices devices' : String → Bool} {pending : List PendingTraffic}
    (h : ItemsOf counters devices pending) (found : counters.lookup key = some registered)
    (hkey : devices key = false) (hkey' : devices' key = true)
    (others : ∀ other, other ≠ key → devices' other = devices other) :
    ItemsOf counters devices'
      (if registered.counter.uploadBytes = 0 ∧ registered.counter.downloadBytes = 0 then pending
        else pending ++ [⟨key, registered.name, registered.counter.uploadBytes,
          registered.counter.downloadBytes⟩]) := by
  have htaken := taken_of_lookup found
  have hfind : ∀ other, KeyedList.find PendingTraffic.publicKey pending other =
      if other = key then none else if devices' other = true then AdminApi.taken counters other
      else none := by
    intro other
    rw [h.find]
    by_cases hother : other = key
    · rw [hother, hkey, if_pos rfl]
      rfl
    · rw [if_neg hother, others other hother]
  split_ifs at htaken ⊢ with hzero
  · refine ⟨h.distinct, ?_⟩
    intro other
    rw [hfind]
    split_ifs with hother hdevice
    · rw [hother, htaken]
    · rfl
    · rfl
    · rfl
  · refine ⟨?_, ?_⟩
    · rw [KeyedList.Distinct, List.map_append]
      exact (List.perm_append_singleton _ _).nodup_iff.mpr
        (List.nodup_cons.mpr ⟨h.not_mem hkey, h.distinct⟩)
    · intro other
      rw [KeyedList.find_append, hfind, KeyedList.find_cons]
      by_cases hother : other = key
      · rw [if_pos hother, if_pos hother.symm, hother, if_pos hkey', htaken]
        rfl
      · rw [if_neg hother, if_neg (Ne.symm hother)]
        exact Option.or_none

end Counters

def TrafficStore.Flushed (store : TrafficStore) (now : UInt64) (database : Database) : Prop :=
  ∃ pending, ItemsOf store.counters (fun _ => true) pending ∧
    (pending = [] ∧ database = store.database ∨
      database = store.database.persistPending (currentHour now) (oldestHour now) pending)

def keys (items : List PendingTraffic) : List String := items.map PendingTraffic.publicKey

def FlushPhase.Holds (store : TrafficStore) (now : UInt64) (database : Database)
    (counters : HashMap String RegisteredCounter) : FlushPhase → Prop
  | .taking remaining pending =>
    database = store.database ∧ remaining ≠ [] ∧ remaining.Nodup ∧
      (∀ key ∈ remaining, key ∈ store.counters) ∧
      Left store.counters (fun key _ => decide (key ∈ remaining)) counters ∧
      ItemsOf store.counters (fun key => !decide (key ∈ remaining)) pending
  | .takenUpload publicKey uploadBytes remaining pending =>
    database = store.database ∧ (publicKey :: remaining).Nodup ∧
      (∀ key ∈ remaining, key ∈ store.counters) ∧
      (∃ registered, store.counters.lookup publicKey = some registered ∧
        uploadBytes = registered.counter.uploadBytes) ∧
      Left store.counters (fun key direction => decide (key ∈ remaining) ||
        (decide (key = publicKey) && decide (direction = .download))) counters ∧
      ItemsOf store.counters (fun key => !decide (key ∈ publicKey :: remaining)) pending
  | .persisting pending =>
    database = store.database ∧ Left store.counters (fun _ _ => false) counters ∧
      ItemsOf store.counters (fun _ => true) pending
  | .restoring item items =>
    database = store.database ∧ (keys (item :: items)).Nodup ∧
      (∀ other ∈ item :: items, taken store.counters other.publicKey = some other) ∧
      Left store.counters (fun key _ => !decide (key ∈ keys (item :: items))) counters
  | .restoredUpload item items =>
    database = store.database ∧ (keys (item :: items)).Nodup ∧
      (∀ other ∈ item :: items, taken store.counters other.publicKey = some other) ∧
      Left store.counters (fun key direction => !decide (key ∈ keys (item :: items)) ||
        (decide (key = item.publicKey) && decide (direction = .upload))) counters
  | .returned true =>
    Left store.counters (fun _ _ => false) counters ∧ store.Flushed now database
  | .returned false =>
    database = store.database ∧ Left store.counters (fun _ _ => true) counters

section Phases

variable {store : TrafficStore} {now : UInt64} {counters : HashMap String RegisteredCounter}

theorem afterDevice_holds {remaining : List String} {pending : List PendingTraffic}
    (nodup : remaining.Nodup) (known : ∀ key ∈ remaining, key ∈ store.counters)
    (left : Left store.counters (fun key _ => decide (key ∈ remaining)) counters)
    (items : ItemsOf store.counters (fun key => !decide (key ∈ remaining)) pending) :
    (TrafficStore.afterDevice remaining pending).Holds store now store.database counters := by
  rw [TrafficStore.afterDevice]
  split_ifs with hremaining hpending
  · subst hremaining
    subst hpending
    exact ⟨left, [], items, Or.inl ⟨rfl, rfl⟩⟩
  · subst hremaining
    exact ⟨rfl, left, items⟩
  · exact ⟨rfl, hremaining, nodup, known, left, items⟩

theorem afterRestore_holds {items : List PendingTraffic} (nodup : (keys items).Nodup)
    (own : ∀ other ∈ items, taken store.counters other.publicKey = some other)
    (left : Left store.counters (fun key _ => !decide (key ∈ keys items)) counters) :
    (TrafficStore.afterRestore items).Holds store now store.database counters := by
  cases items with
  | nil => exact ⟨rfl, left⟩
  | cons item items => exact ⟨rfl, nodup, own, left⟩

end Phases

namespace TrafficStore

def Flushing (before : TrafficStore) (now : UInt64) (store : TrafficStore) : Prop :=
  ∃ phase, store.flushes = before.flushes ++ [⟨now, phase⟩] ∧
    phase.Holds before now store.database store.counters

section Steps

variable {before store : TrafficStore} {now : UInt64}

theorem getElem?_flushing {phase : FlushPhase}
    (h : store.flushes = before.flushes ++ [⟨now, phase⟩]) :
    store.flushes[before.flushes.length]? = some ⟨now, phase⟩ := by
  rw [h, List.getElem?_concat_length]

theorem modify_last {α : Type} (f : α → α) (l : List α) (a : α) :
    (l ++ [a]).modify l.length f = l ++ [f a] := by
  induction l with
  | nil => rfl
  | cons b l ih => rw [List.cons_append, List.length_cons, List.modify_succ_cons, ih]; rfl

theorem setPhase_flushing {phase : FlushPhase} (store' : TrafficStore) (phase' : FlushPhase)
    (h : store.flushes = before.flushes ++ [⟨now, phase⟩]) (same : store'.flushes = store.flushes)
    (holds : phase'.Holds before now store'.database store'.counters) :
    Flushing before now (store'.setPhase before.flushes.length phase') := by
  refine ⟨phase', ?_, holds⟩
  rw [setPhase, same, h, modify_last]

theorem lookup_counter (store : TrafficStore) (publicKey name key : String) :
    (store.counter publicKey name).counters.lookup key =
      if key = publicKey then some ⟨name, (store.counters.lookup publicKey).elim .default
        RegisteredCounter.counter⟩
      else store.counters.lookup key := by
  rw [counter]
  cases store.counters.lookup publicKey with
  | none => exact HashMap.lookup_insert_ite _ _ _ _
  | some registered => exact HashMap.lookup_insert_ite _ _ _ _

theorem lookup_add {publicKey : String} {registered : RegisteredCounter}
    (found : store.counters.lookup publicKey = some registered) (bytes : UInt64)
    (direction : Direction) (key : String) :
    (store.add publicKey bytes direction).counters.lookup key =
      if key = publicKey then
        some { registered with counter := registered.counter.fetchAdd bytes direction }
      else store.counters.lookup key := by
  rw [add, found]
  exact HashMap.lookup_insert_ite _ _ _ _

theorem Flushing.swapUpload (h : Flushing before now store) (publicKey : String) :
    Flushing before now (store.swapUpload before.flushes.length publicKey) := by
  obtain ⟨phase, hflushes, hholds⟩ := h
  rw [TrafficStore.swapUpload, getElem?_flushing hflushes]
  cases phase with
  | taking remaining pending =>
    simp only
    split_ifs with hmem
    · obtain ⟨hdatabase, -, hnodup, hknown, hleft, hitems⟩ := hholds
      obtain ⟨registered, hfound⟩ :=
        Option.isSome_iff_exists.mp (AList.lookup_isSome.mpr (hknown publicKey hmem))
      have hnow : store.counters.lookup publicKey = some registered := by
        rw [hleft publicKey, hfound]
        simp [hmem, RegisteredCounter.keep]
      have herase : ∀ key, key ≠ publicKey → (key ∈ remaining.erase publicKey ↔ key ∈ remaining) :=
        fun key hkey => List.mem_erase_of_ne hkey
      have hgone : publicKey ∉ remaining.erase publicKey := hnodup.not_mem_erase
      have hsame : (fun key => !decide (key ∈ publicKey :: remaining.erase publicKey)) =
          fun key => !decide (key ∈ remaining) := by
        funext key
        by_cases hkey : key = publicKey
        · simp [hkey, hmem]
        · simp [hkey, herase key hkey]
      rw [takeUpload, hnow]
      refine setPhase_flushing (store.setCounter publicKey _) _ hflushes rfl ⟨hdatabase,
        List.nodup_cons.mpr ⟨hgone, hnodup.erase _⟩,
        fun key hkey => hknown key (List.mem_of_mem_erase hkey),
        ⟨registered, hfound, rfl⟩, ?_, ?_⟩
      · refine hleft.write hfound ?_ (fun other => HashMap.lookup_insert_ite _ _ _ _) ?_
        · intro other hother
          funext direction
          simp [herase other hother, hother]
        · simp [RegisteredCounter.keep, DeviceTrafficCounter.store, hgone]
      · rw [hsame]
        exact hitems
    · exact ⟨_, hflushes, hholds⟩
  | _ => exact ⟨_, hflushes, hholds⟩

theorem Flushing.swapDownload (h : Flushing before now store) :
    Flushing before now (store.swapDownload before.flushes.length) := by
  obtain ⟨phase, hflushes, hholds⟩ := h
  rw [TrafficStore.swapDownload, getElem?_flushing hflushes]
  cases phase with
  | takenUpload publicKey uploadBytes remaining pending =>
    obtain ⟨hdatabase, hnodup, hknown, ⟨registered, hfound, hupload⟩, hleft, hitems⟩ := hholds
    obtain ⟨hnew, hrest⟩ := List.nodup_cons.mp hnodup
    subst hupload
    have hnow : store.counters.lookup publicKey =
        some ⟨registered.name, 0, registered.counter.downloadBytes⟩ := by
      rw [hleft publicKey, hfound]
      simp [hnew, RegisteredCounter.keep]
    simp only [takeDownload, hnow]
    refine setPhase_flushing (store.setCounter publicKey _) _ hflushes rfl ?_
    rw [show (store.setCounter publicKey _).database = before.database from hdatabase]
    apply afterDevice_holds hrest hknown
    · refine hleft.write hfound ?_ (fun other => HashMap.lookup_insert_ite _ _ _ _) ?_
      · intro other hother
        funext direction
        simp [hother]
      · simp [RegisteredCounter.keep, DeviceTrafficCounter.store, hnew]
    · refine hitems.add hfound ?_ ?_ ?_
      · simp
      · simp [hnew]
      · intro other hother
        simp [hother]
  | _ => exact ⟨_, hflushes, hholds⟩

theorem Flushing.transaction (h : Flushing before now store) (ok : Bool) :
    Flushing before now (store.transaction before.flushes.length ok) := by
  obtain ⟨phase, hflushes, hholds⟩ := h
  rw [TrafficStore.transaction, getElem?_flushing hflushes]
  cases phase with
  | persisting pending =>
    obtain ⟨hdatabase, hleft, hitems⟩ := hholds
    cases ok with
    | true =>
      refine setPhase_flushing { store with
        database := store.database.persistPending (currentHour now) (oldestHour now) pending }
        (.returned true) hflushes rfl ⟨hleft, pending, hitems, Or.inr ?_⟩
      rw [hdatabase]
    | false =>
      refine setPhase_flushing store _ hflushes rfl ?_
      rw [hdatabase]
      apply afterRestore_holds hitems.distinct fun other hother => hitems.taken hother
      apply hleft.congr
      intro key htaken
      obtain ⟨item, hitem⟩ := Option.ne_none_iff_exists'.mp htaken
      have hfind := hitems.find key
      rw [if_pos rfl, hitem] at hfind
      obtain ⟨hmem, hkey⟩ := KeyedList.key_of_find hfind
      have hkeys : key ∈ keys pending := hkey ▸ List.mem_map_of_mem hmem
      simp [hkeys]
  | _ => exact ⟨_, hflushes, hholds⟩

theorem Flushing.restoreUpload (h : Flushing before now store) :
    Flushing before now (store.restoreUpload before.flushes.length) := by
  obtain ⟨phase, hflushes, hholds⟩ := h
  rw [TrafficStore.restoreUpload, getElem?_flushing hflushes]
  cases phase with
  | restoring item items =>
    obtain ⟨hdatabase, hnodup, hown, hleft⟩ := hholds
    obtain ⟨registered, hfound, hitem⟩ := taken_eq_some (hown item List.mem_cons_self)
    have hself : item.publicKey ∈ keys (item :: items) := List.mem_cons_self
    have hnow : store.counters.lookup item.publicKey = some ⟨registered.name, 0, 0⟩ := by
      rw [hleft item.publicKey, hfound]
      simp [hself, RegisteredCounter.keep]
    have hname : item.name = registered.name := by rw [hitem]
    have hupload : item.uploadBytes = registered.counter.uploadBytes := by rw [hitem]
    have hcounter : (store.counter item.publicKey item.name).counters.lookup item.publicKey =
        some ⟨registered.name, 0, 0⟩ := by
      rw [lookup_counter, if_pos rfl, hnow, hname]
      rfl
    have hwritten : ∀ other, ((store.counter item.publicKey item.name).add item.publicKey
        item.uploadBytes .upload).counters.lookup other =
          if other = item.publicKey then some ⟨registered.name, item.uploadBytes, 0⟩
          else store.counters.lookup other := by
      intro other
      rw [lookup_add hcounter, lookup_counter]
      by_cases hother : other = item.publicKey
      · simp [hother, DeviceTrafficCounter.fetchAdd, DeviceTrafficCounter.store,
          DeviceTrafficCounter.load]
      · simp [hother]
    refine setPhase_flushing _ _ hflushes (add_flushes.trans counter_flushes)
      ⟨add_database.trans (counter_database.trans hdatabase), hnodup, hown, ?_⟩
    refine hleft.write hfound ?_ hwritten ?_
    · intro other hother
      funext direction
      simp [hother]
    · simp [RegisteredCounter.keep, hself, hupload]
  | _ => exact ⟨_, hflushes, hholds⟩

theorem Flushing.restoreDownload (h : Flushing before now store) :
    Flushing before now (store.restoreDownload before.flushes.length) := by
  obtain ⟨phase, hflushes, hholds⟩ := h
  rw [TrafficStore.restoreDownload, getElem?_flushing hflushes]
  cases phase with
  | restoredUpload item items =>
    obtain ⟨hdatabase, hnodup, hown, hleft⟩ := hholds
    obtain ⟨hnew, hrest⟩ := List.nodup_cons.mp hnodup
    obtain ⟨registered, hfound, hitem⟩ := taken_eq_some (hown item List.mem_cons_self)
    have hself : item.publicKey ∈ keys (item :: items) := List.mem_cons_self
    have hnow : store.counters.lookup item.publicKey =
        some ⟨registered.name, registered.counter.uploadBytes, 0⟩ := by
      rw [hleft item.publicKey, hfound]
      simp [hself, RegisteredCounter.keep]
    have hdownload : item.downloadBytes = registered.counter.downloadBytes := by rw [hitem]
    refine setPhase_flushing _ _ hflushes add_flushes ?_
    rw [add_database.trans hdatabase]
    apply afterRestore_holds hrest fun other hother => hown other (List.mem_cons_of_mem item hother)
    refine hleft.write hfound ?_ (lookup_add hnow _ _) ?_
    · intro other hother
      funext direction
      simp [keys, hother]
    · have hgone : item.publicKey ∉ keys items := hnew
      simp [RegisteredCounter.keep, hgone, hdownload, DeviceTrafficCounter.fetchAdd,
        DeviceTrafficCounter.store, DeviceTrafficCounter.load]
  | _ => exact ⟨_, hflushes, hholds⟩

theorem Flushing.step (h : Flushing before now store) {event : Event}
    (own : event.ofFlush before.flushes.length = true) :
    Flushing before now (store.step event).1 := by
  cases event with
  | counter publicKey name => cases own
  | addUpload publicKey bytes => cases own
  | addDownload publicKey bytes => cases own
  | flushAt now => cases own
  | swapUpload i publicKey =>
    rw [of_decide_eq_true own]
    exact h.swapUpload publicKey
  | swapDownload i =>
    rw [of_decide_eq_true own]
    exact h.swapDownload
  | transaction i ok =>
    rw [of_decide_eq_true own]
    exact h.transaction ok
  | restoreUpload i =>
    rw [of_decide_eq_true own]
    exact h.restoreUpload
  | restoreDownload i =>
    rw [of_decide_eq_true own]
    exact h.restoreDownload

theorem flushing_flushAt (store : TrafficStore) (now : UInt64) :
    Flushing store now (store.flushAt now) := by
  refine ⟨_, rfl, afterDevice_holds store.counters.keys_nodup (fun _ => AList.mem_keys.mpr) ?_ ?_⟩
  · intro key
    cases hfound : store.counters.lookup key with
    | none =>
      rw [flushAt, hfound]
      rfl
    | some registered =>
      have hkey : key ∈ store.counters.keys :=
        AList.mem_keys.mp (AList.lookup_isSome.mp (by rw [hfound]; rfl))
      rw [flushAt, hfound]
      simp [hkey, RegisteredCounter.keep]
  · refine ⟨List.nodup_nil, ?_⟩
    intro key
    by_cases hkey : key ∈ store.counters.keys
    · simp [hkey, KeyedList.find]
    · have hnone : store.counters.lookup key = none :=
        AList.lookup_eq_none.mpr fun hmem => hkey (AList.mem_keys.mp hmem)
      simp [KeyedList.find, taken, hnone]

end Steps

end TrafficStore

theorem FlushCall.holds {store : TrafficStore} {now : UInt64} {events : List Event} {ok : Bool}
    (call : FlushCall store now events ok) :
    FlushPhase.Holds store now (store.run (.flushAt now :: events)).database
      (store.run (.flushAt now :: events)).counters (.returned ok) := by
  obtain ⟨phase, hflushes, hholds⟩ := Machine.run_invariant_of_obeys TrafficStore.step
    (TrafficStore.Flushing store now) (fun current event h own => h.step own)
    (TrafficStore.flushing_flushAt store now)
    ((Machine.obeys_forall_iff TrafficStore.step (store.flushAt now)).mpr call.own)
  have hget := TrafficStore.getElem?_flushing hflushes
  have hphase : phase = .returned ok :=
    congrArg Flush.phase (Option.some.inj (hget.symm.trans call.returned))
  rw [hphase] at hholds
  exact hholds

def FlushPhase.stepsLeft : FlushPhase → ℕ
  | .taking remaining _ => 2 * remaining.length + 1
  | .takenUpload _ _ remaining _ => 2 * remaining.length + 2
  | .persisting _ => 1
  | .restoring _ items => 2 * items.length + 2
  | .restoredUpload _ items => 2 * items.length + 1
  | .returned _ => 0

theorem afterDevice_stepsLeft (remaining : List String) (pending : List PendingTraffic) :
    (TrafficStore.afterDevice remaining pending).stepsLeft ≤ 2 * remaining.length + 1 := by
  rw [TrafficStore.afterDevice]
  split_ifs with hremaining hpending
  · exact Nat.zero_le _
  · exact Nat.le_add_left 1 _
  · exact Nat.le_refl _

theorem afterRestore_stepsLeft (items : List PendingTraffic) :
    (TrafficStore.afterRestore items).stepsLeft ≤ 2 * items.length := by
  cases items with
  | nil => exact Nat.le_refl _
  | cons item items => exact Nat.le_refl _

namespace TrafficStore

variable {before store : TrafficStore} {now : UInt64}

theorem flushes_setPhase {phase : FlushPhase} (store' : TrafficStore) (phase' : FlushPhase)
    (h : store.flushes = before.flushes ++ [⟨now, phase⟩])
    (same : store'.flushes = store.flushes) :
    (store'.setPhase before.flushes.length phase').flushes = before.flushes ++ [⟨now, phase'⟩] := by
  rw [setPhase, same, h, modify_last]

theorem flush_progress {phase : FlushPhase}
    (hflushes : store.flushes = before.flushes ++ [⟨now, phase⟩])
    (hholds : phase.Holds before now store.database store.counters) :
    (∃ ok, phase = .returned ok) ∨ ∃ event phase', event.ofFlush before.flushes.length = true ∧
      (store.step event).1.flushes = before.flushes ++ [⟨now, phase'⟩] ∧
      phase'.stepsLeft < phase.stepsLeft := by
  have hget := getElem?_flushing hflushes
  cases phase with
  | taking remaining pending =>
    obtain ⟨-, hne, -, hknown, hleft, -⟩ := hholds
    obtain ⟨publicKey, rest, rfl⟩ := List.exists_cons_of_ne_nil hne
    obtain ⟨registered, hfound⟩ := Option.isSome_iff_exists.mp
      (AList.lookup_isSome.mpr (hknown publicKey List.mem_cons_self))
    have hnow := hleft publicKey
    rw [hfound, Option.map_some] at hnow
    have hstep : ∃ uploadBytes,
        (store.step (.swapUpload before.flushes.length publicKey)).1.flushes =
          before.flushes ++ [⟨now, .takenUpload publicKey uploadBytes rest pending⟩] := by
      simp only [step, TrafficStore.swapUpload, hget, List.mem_cons, true_or, if_true, takeUpload,
        hnow, List.erase_cons_head]
      exact ⟨_, flushes_setPhase (store.setCounter publicKey _) _ hflushes rfl⟩
    obtain ⟨uploadBytes, hstep⟩ := hstep
    exact Or.inr ⟨.swapUpload before.flushes.length publicKey, _, decide_eq_true rfl, hstep,
      Nat.lt_succ_self _⟩
  | takenUpload publicKey uploadBytes remaining pending =>
    obtain ⟨-, -, -, ⟨registered, hfound, -⟩, hleft, -⟩ := hholds
    have hnow := hleft publicKey
    rw [hfound, Option.map_some] at hnow
    have hstep : ∃ pending', (store.step (.swapDownload before.flushes.length)).1.flushes =
        before.flushes ++ [⟨now, afterDevice remaining pending'⟩] := by
      simp only [step, TrafficStore.swapDownload, hget, takeDownload, hnow]
      exact ⟨_, flushes_setPhase (store.setCounter publicKey _) _ hflushes rfl⟩
    obtain ⟨pending', hstep⟩ := hstep
    exact Or.inr ⟨.swapDownload before.flushes.length, _, decide_eq_true rfl, hstep,
      Nat.lt_succ_of_le (afterDevice_stepsLeft remaining pending')⟩
  | persisting pending =>
    refine Or.inr ⟨.transaction before.flushes.length true, .returned true, decide_eq_true rfl, ?_,
      Nat.zero_lt_one⟩
    simp only [step, TrafficStore.transaction, hget, if_true, commit]
    exact flushes_setPhase { store with database := _ } _ hflushes rfl
  | restoring item items =>
    refine Or.inr ⟨.restoreUpload before.flushes.length, .restoredUpload item items,
      decide_eq_true rfl, ?_, Nat.lt_succ_self _⟩
    simp only [step, TrafficStore.restoreUpload, hget]
    exact flushes_setPhase _ _ hflushes (add_flushes.trans counter_flushes)
  | restoredUpload item items =>
    refine Or.inr ⟨.restoreDownload before.flushes.length, afterRestore items,
      decide_eq_true rfl, ?_, Nat.lt_succ_of_le (afterRestore_stepsLeft items)⟩
    simp only [step, TrafficStore.restoreDownload, hget]
    exact flushes_setPhase _ _ hflushes add_flushes
  | returned ok => exact Or.inl ⟨ok, rfl⟩

theorem flush_finishes (n : ℕ) {phase : FlushPhase} (hn : phase.stepsLeft ≤ n)
    (hflushes : store.flushes = before.flushes ++ [⟨now, phase⟩])
    (hholds : phase.Holds before now store.database store.counters) :
    ∃ events ok, (∀ event ∈ events, event.ofFlush before.flushes.length = true) ∧
      (store.run events).flushes[before.flushes.length]? = some ⟨now, .returned ok⟩ := by
  induction n generalizing store phase with
  | zero =>
    rcases flush_progress hflushes hholds with ⟨ok, rfl⟩ | ⟨event, phase', -, -, hless⟩
    · exact ⟨[], ok, List.forall_mem_nil _, getElem?_flushing hflushes⟩
    · omega
  | succ n ih =>
    rcases flush_progress hflushes hholds with ⟨ok, rfl⟩ | ⟨event, phase', hown, hnext, hless⟩
    · exact ⟨[], ok, List.forall_mem_nil _, getElem?_flushing hflushes⟩
    · obtain ⟨phase'', hnext', hholds'⟩ := Flushing.step ⟨phase, hflushes, hholds⟩ hown
      have hsame : phase'' = phase' := by
        have heq := hnext'.symm.trans hnext
        exact congrArg Flush.phase (List.cons.inj (List.append_cancel_left heq)).1
      rw [hsame] at hholds'
      obtain ⟨events, ok, hevents, hreturned⟩ := ih (by omega) hnext hholds'
      exact ⟨event :: events, ok, List.forall_mem_cons.mpr ⟨hown, hevents⟩, hreturned⟩

end TrafficStore

theorem exists_flushCall (store : TrafficStore) (now : UInt64) :
    ∃ events ok, FlushCall store now events ok := by
  obtain ⟨phase, hflushes, hholds⟩ := TrafficStore.flushing_flushAt store now
  obtain ⟨events, ok, hown, hreturned⟩ :=
    TrafficStore.flush_finishes _ (Nat.le_refl _) hflushes hholds
  exact ⟨events, ok, hown, hreturned⟩

end MouseVpn.AdminApi
