import MouseVpn.AdminApi.ReportTotals
import MouseVpn.Lib.KeyedList

/-!
# The buckets of a report as a table

The buckets that a report is built from have distinct hours and devices, come by hour, and none
is later than the current hour. Merging a counter changes one entry of the table, and so does
storing it: a report reads the same entries from the counters before a flush as it reads from
the rows after it.
-/

namespace MouseVpn.AdminApi

open MouseVpn.Lib

def bucketKey (bucket : TrafficBucket) : ℕ × String := (bucket.hour, bucket.publicKey)

structure BucketTable (currentHour : ℕ) (buckets : List TrafficBucket) : Prop where
  distinct : KeyedList.Distinct bucketKey buckets
  sorted : buckets.Pairwise fun a b => a.hour ≤ b.hour
  past : ∀ bucket ∈ buckets, bucket.hour ≤ currentHour

def newBucket (hour : ℕ) (item : PendingTraffic) : TrafficBucket :=
  ⟨hour, item.publicKey, item.name, item.uploadBytes, item.downloadBytes⟩

def mergedBucket (hour : ℕ) (item : PendingTraffic) (old : Option TrafficBucket) : TrafficBucket :=
  old.elim (newBucket hour item) fun bucket => bucket.merge item

def itemKey (hour : ℕ) (item : PendingTraffic) : ℕ × String := (hour, item.publicKey)

theorem mergeItem_cases (hour : ℕ) (item : PendingTraffic) (buckets : List TrafficBucket) :
    (∃ before bucket after, buckets = before ++ bucket :: after ∧
      bucketKey bucket = itemKey hour item ∧
      mergeItem hour item buckets = before ++ bucket.merge item :: after) ∨
    ((∀ bucket ∈ buckets, bucketKey bucket ≠ itemKey hour item) ∧
      mergeItem hour item buckets = buckets ++ [newBucket hour item]) := by
  induction buckets with
  | nil => exact Or.inr ⟨List.forall_mem_nil _, rfl⟩
  | cons bucket buckets ih =>
    by_cases hkey : bucketKey bucket = itemKey hour item
    · left
      refine ⟨[], bucket, buckets, rfl, hkey, ?_⟩
      rw [mergeItem, if_pos (Prod.mk.inj hkey)]
      rfl
    · have hmerge : mergeItem hour item (bucket :: buckets) =
          bucket :: mergeItem hour item buckets := by
        rw [mergeItem, if_neg]
        intro h
        exact hkey (Prod.ext h.1 h.2)
      rw [hmerge]
      rcases ih with ⟨before, found, after, rfl, hfound, heq⟩ | ⟨hnone, heq⟩
      · exact Or.inl ⟨bucket :: before, found, after, rfl, hfound, by rw [heq]; rfl⟩
      · right
        refine ⟨?_, by rw [heq]; rfl⟩
        intro other hother
        rcases List.mem_cons.mp hother with rfl | hother
        · exact hkey
        · exact hnone other hother

theorem find_mergeItem (hour : ℕ) (buckets : List TrafficBucket) (item : PendingTraffic)
    (k : ℕ × String) :
    KeyedList.find bucketKey (mergeItem hour item buckets) k =
      if itemKey hour item = k then
        some (mergedBucket hour item (KeyedList.find bucketKey buckets k))
      else KeyedList.find bucketKey buckets k := by
  induction buckets with
  | nil =>
    rw [mergeItem, KeyedList.find_cons]
    rfl
  | cons bucket buckets ih =>
    by_cases hkey : bucketKey bucket = itemKey hour item
    · rw [mergeItem, if_pos (Prod.mk.inj hkey), KeyedList.find_cons, KeyedList.find_cons]
      have hsame : bucketKey (bucket.merge item) = bucketKey bucket := rfl
      rw [hsame, hkey]
      by_cases hk : itemKey hour item = k
      · simp only [hk, if_true]
        rfl
      · simp only [hk, if_false]
    · have hne : ¬ (bucket.hour = hour ∧ bucket.publicKey = item.publicKey) := by
        intro h
        exact hkey (Prod.ext h.1 h.2)
      rw [mergeItem, if_neg hne, KeyedList.find_cons, KeyedList.find_cons, ih]
      by_cases hk : itemKey hour item = k
      · rw [if_pos hk, if_neg (by rw [← hk]; exact hkey), if_pos hk,
          if_neg (by rw [← hk]; exact hkey)]
      · rw [if_neg hk, if_neg hk]

theorem BucketTable.mergeItem {currentHour : ℕ} {buckets : List TrafficBucket}
    (h : BucketTable currentHour buckets) (item : PendingTraffic) :
    BucketTable currentHour (mergeItem currentHour item buckets) := by
  rcases mergeItem_cases currentHour item buckets with
    ⟨before, bucket, after, rfl, -, heq⟩ | ⟨hnone, heq⟩
  · have hmap : ∀ {β : Type} (f : TrafficBucket → β), f (bucket.merge item) = f bucket →
        (before ++ bucket.merge item :: after).map f = (before ++ bucket :: after).map f := by
      intro β f hf
      simp [hf]
    rw [heq]
    refine ⟨?_, ?_, ?_⟩
    · rw [KeyedList.Distinct, hmap bucketKey rfl]
      exact h.distinct
    · have hsorted := h.sorted
      rw [← List.pairwise_map (f := TrafficBucket.hour) (R := (· ≤ ·))] at hsorted ⊢
      rw [hmap TrafficBucket.hour rfl]
      exact hsorted
    · intro other hother
      have hhours : other.hour ∈ (before ++ bucket :: after).map TrafficBucket.hour := by
        rw [← hmap TrafficBucket.hour rfl]
        exact List.mem_map_of_mem hother
      obtain ⟨b, hb, hhour⟩ := List.mem_map.mp hhours
      rw [← hhour]
      exact h.past b hb
  · rw [heq]
    refine ⟨?_, ?_, ?_⟩
    · rw [KeyedList.Distinct, List.map_append, List.map_singleton, ← List.concat_eq_append,
        List.nodup_concat]
      refine ⟨?_, h.distinct⟩
      intro hmem
      obtain ⟨other, hother, hkey⟩ := List.mem_map.mp hmem
      exact hnone other hother hkey
    · apply List.pairwise_append.mpr
      refine ⟨h.sorted, List.pairwise_singleton _ _, ?_⟩
      intro other hother new hnew
      rw [List.mem_singleton.mp hnew]
      exact h.past other hother
    · intro other hother
      rcases List.mem_append.mp hother with hold | hnew
      · exact h.past other hold
      · rw [List.mem_singleton.mp hnew]
        exact Nat.le_refl _

theorem BucketTable.mergePending {currentHour : ℕ} {buckets : List TrafficBucket}
    (h : BucketTable currentHour buckets) (pending : List PendingTraffic) :
    BucketTable currentHour (mergePending buckets currentHour pending) := by
  induction pending generalizing buckets with
  | nil => exact h
  | cons item items ih => exact ih (h.mergeItem item)

theorem distinct_itemKey (hour : ℕ) {pending : List PendingTraffic}
    (h : KeyedList.Distinct PendingTraffic.publicKey pending) :
    KeyedList.Distinct (itemKey hour) pending := by
  have hmap : pending.map (itemKey hour) =
      (pending.map PendingTraffic.publicKey).map fun key => (hour, key) := by
    rw [List.map_map]
    rfl
  rw [KeyedList.Distinct, hmap]
  exact h.map fun _ _ heq => (Prod.mk.inj heq).2

theorem find_mergePending {hour : ℕ} {pending : List PendingTraffic}
    (distinct : KeyedList.Distinct PendingTraffic.publicKey pending)
    (buckets : List TrafficBucket) (k : ℕ × String) :
    KeyedList.find bucketKey (mergePending buckets hour pending) k =
      (KeyedList.find (itemKey hour) pending k).elim (KeyedList.find bucketKey buckets k)
        fun item => some (mergedBucket hour item (KeyedList.find bucketKey buckets k)) :=
  KeyedList.foldl_find (KeyedList.find bucketKey) (fun buckets item => mergeItem hour item buckets)
    (fun item old => some (mergedBucket hour item old)) (find_mergeItem hour)
    (distinct_itemKey hour distinct) buckets k

def Database.Representable (database : Database) : Prop :=
  ∀ k row, database.lookup k = some row → ∀ direction,
    (row.bytes direction).isInteger = true ∧ (row.bytes direction).value < 2 ^ 63

theorem Database.Representable.allInteger {database : Database} (h : database.Representable) :
    database.AllInteger :=
  fun k row found direction => (h k row found direction).1

def windowRows (database : Database) (start stop : ℕ) : List (Σ _ : ℕ × String, Row) :=
  (database.entries.filter fun entry =>
    decide (start ≤ entry.1.1) && decide (entry.1.1 ≤ stop)).mergeSort fun a b =>
      decide (a.1.1 ≤ b.1.1)

theorem mem_windowRows {database : Database} {start stop : ℕ} {entry : Σ _ : ℕ × String, Row} :
    entry ∈ windowRows database start stop ↔
      database.lookup entry.1 = some entry.2 ∧ start ≤ entry.1.1 ∧ entry.1.1 ≤ stop := by
  rw [windowRows, (List.mergeSort_perm _ _).mem_iff, List.mem_filter, HashMap.lookup_eq_some_iff,
    Bool.and_eq_true, decide_eq_true_iff, decide_eq_true_iff]

theorem loadBuckets_eq {database : Database} (h : database.AllInteger) (start stop : ℕ) :
    loadBuckets database start stop = some ((windowRows database start stop).map rowBucket) := by
  apply mapM_eq_map
  intro entry hentry
  exact bucketOf_eq (h entry.1 entry.2 (mem_windowRows.mp hentry).1)

theorem loaded_table (database : Database) (start stop : ℕ) :
    BucketTable stop ((windowRows database start stop).map rowBucket) := by
  refine ⟨?_, ?_, ?_⟩
  · rw [KeyedList.Distinct, List.map_map]
    have hkeys : (windowRows database start stop).map (bucketKey ∘ rowBucket) =
        (windowRows database start stop).map Sigma.fst := rfl
    rw [hkeys, windowRows, ((List.mergeSort_perm _ _).map Sigma.fst).nodup_iff]
    exact (List.filter_sublist.map Sigma.fst).nodup database.keys_nodup
  · rw [List.pairwise_map]
    refine List.Pairwise.imp (fun hle => of_decide_eq_true hle) (List.pairwise_mergeSort ?_ ?_ _)
    · intro a b c hab hbc
      exact decide_eq_true (Nat.le_trans (of_decide_eq_true hab) (of_decide_eq_true hbc))
    · intro a b
      rw [Bool.or_eq_true, decide_eq_true_iff, decide_eq_true_iff]
      exact Nat.le_total _ _
  · intro bucket hbucket
    obtain ⟨entry, hentry, rfl⟩ := List.mem_map.mp hbucket
    exact (mem_windowRows.mp hentry).2.2

theorem find_loaded (database : Database) (start stop : ℕ) (k : ℕ × String) :
    KeyedList.find bucketKey ((windowRows database start stop).map rowBucket) k =
      if start ≤ k.1 ∧ k.1 ≤ stop then
        (database.lookup k).map fun row => rowBucket ⟨k, row⟩
      else none := by
  ext bucket
  rw [KeyedList.find_eq_some (loaded_table database start stop).distinct, List.mem_map]
  constructor
  · intro h
    obtain ⟨⟨entry, hentry, rfl⟩, hkey⟩ := h
    obtain ⟨hrow, hwindow⟩ := mem_windowRows.mp hentry
    have hkey : entry.1 = k := hkey
    rw [← hkey, if_pos hwindow, hrow]
    rfl
  · intro h
    split_ifs at h with hwindow
    obtain ⟨row, hrow, rfl⟩ := Option.map_eq_some_iff.mp h
    exact ⟨⟨⟨k, row⟩, mem_windowRows.mpr ⟨hrow, hwindow⟩, rfl⟩, rfl⟩

def storedRow (item : PendingTraffic) (old : Option Row) : Row :=
  old.elim
    ⟨item.name, .integer (toSqlInteger item.uploadBytes),
      .integer (toSqlInteger item.downloadBytes)⟩
    fun row => ⟨item.name, row.uploadBytes.add (.integer (toSqlInteger item.uploadBytes)),
      row.downloadBytes.add (.integer (toSqlInteger item.downloadBytes))⟩

theorem upsert_eq_insert (hour : ℕ) (database : Database) (item : PendingTraffic) :
    database.upsert hour item = AList.insert (itemKey hour item)
      (storedRow item (database.lookup (itemKey hour item))) database := by
  rw [Database.upsert, itemKey]
  cases database.lookup (hour, item.publicKey) <;> rfl

theorem lookup_upsert (hour : ℕ) (database : Database) (item : PendingTraffic) (k : ℕ × String) :
    (database.upsert hour item).lookup k =
      if itemKey hour item = k then some (storedRow item (database.lookup k))
      else database.lookup k := by
  rw [upsert_eq_insert, HashMap.lookup_insert_ite]
  by_cases hk : itemKey hour item = k
  · rw [if_pos hk, if_pos hk.symm, hk]
  · rw [if_neg hk, if_neg (Ne.symm hk)]

theorem lookup_persistPending {hour oldest : ℕ} {pending : List PendingTraffic}
    (distinct : KeyedList.Distinct PendingTraffic.publicKey pending) (database : Database)
    (k : ℕ × String) :
    (database.persistPending hour oldest pending).lookup k =
      if oldest ≤ k.1 then
        (KeyedList.find (itemKey hour) pending k).elim (database.lookup k)
          fun item => some (storedRow item (database.lookup k))
      else none := by
  have hfold := KeyedList.foldl_find (fun database : Database => fun k => database.lookup k)
    (fun database item => database.upsert hour item)
    (fun item old => some (storedRow item old)) (lookup_upsert hour)
    (distinct_itemKey hour distinct) database k
  rw [Database.persistPending, Database.deleteBefore, HashMap.lookup_retain, hfold]
  by_cases hold : oldest ≤ k.1
  · rw [if_pos hold]
    simp only [hold, decide_true]
    cases (KeyedList.find (itemKey hour) pending k).elim (database.lookup k)
      fun item => some (storedRow item (database.lookup k)) <;> rfl
  · simp [hold]

def FitsRow (item : PendingTraffic) (old : Option Row) : Prop :=
  ∀ direction, (old.elim 0 fun row => (row.bytes direction).value) +
    (item.bytes direction).toNat < 2 ^ 63

theorem fromSqlInteger_add {a : ℕ} {b : UInt64} (h : a + b.toNat < 2 ^ 63) :
    fromSqlInteger (a + b.toNat) = saturatingAdd (fromSqlInteger a) b := by
  have ha : (fromSqlInteger a).toNat = a := UInt64.toNat_ofNat_of_lt' (by rw [UInt64.size]; omega)
  have hsum : (fromSqlInteger (a + b.toNat)).toNat = a + b.toNat :=
    UInt64.toNat_ofNat_of_lt' (by rw [UInt64.size]; omega)
  rw [← UInt64.toNat_inj, hsum, saturatingAdd_toNat (by omega), ha]

theorem fromSqlInteger_toSqlInteger {value : UInt64} (h : value.toNat < 2 ^ 63) :
    fromSqlInteger (toSqlInteger value) = value := by
  rw [Database.toSqlInteger_eq h, fromSqlInteger, UInt64.ofNat_toNat]

theorem fromSqlInteger_value_add {a : SqlNumber} {b : UInt64} (ha : a.isInteger = true)
    (h : a.value + b.toNat < 2 ^ 63) :
    fromSqlInteger (a.add (.integer (toSqlInteger b))).value =
      saturatingAdd (fromSqlInteger a.value) b := by
  rw [Database.toSqlInteger_eq (by omega), (Database.value_add ha h).2]
  exact fromSqlInteger_add h

theorem rowBucket_storedRow {hour : ℕ} {item : PendingTraffic} {old : Option Row}
    (integer : ∀ row, old = some row → ∀ direction, (row.bytes direction).isInteger = true)
    (fits : FitsRow item old) :
    rowBucket ⟨itemKey hour item, storedRow item old⟩ =
      mergedBucket hour item (old.map fun row => rowBucket ⟨itemKey hour item, row⟩) := by
  cases old with
  | none =>
    have hupload : item.uploadBytes.toNat < 2 ^ 63 :=
      Nat.lt_of_le_of_lt (Nat.le_add_left _ _) (fits .upload)
    have hdownload : item.downloadBytes.toNat < 2 ^ 63 :=
      Nat.lt_of_le_of_lt (Nat.le_add_left _ _) (fits .download)
    change (⟨_, _, _, fromSqlInteger (toSqlInteger item.uploadBytes),
      fromSqlInteger (toSqlInteger item.downloadBytes)⟩ : TrafficBucket) = newBucket hour item
    rw [fromSqlInteger_toSqlInteger hupload, fromSqlInteger_toSqlInteger hdownload]
    rfl
  | some row =>
    have hupload : row.uploadBytes.value + item.uploadBytes.toNat < 2 ^ 63 := fits .upload
    have hdownload : row.downloadBytes.value + item.downloadBytes.toNat < 2 ^ 63 :=
      fits .download
    have hrow := integer row rfl
    change (⟨_, _, _,
      fromSqlInteger (row.uploadBytes.add (.integer (toSqlInteger item.uploadBytes))).value,
      fromSqlInteger (row.downloadBytes.add (.integer (toSqlInteger item.downloadBytes))).value⟩ :
        TrafficBucket) = (rowBucket ⟨itemKey hour item, row⟩).merge item
    rw [fromSqlInteger_value_add (a := row.uploadBytes) (hrow .upload) hupload,
      fromSqlInteger_value_add (a := row.downloadBytes) (hrow .download) hdownload]
    rfl

theorem storedRow_integer {item : PendingTraffic} {old : Option Row}
    (integer : ∀ row, old = some row → ∀ direction, (row.bytes direction).isInteger = true)
    (fits : FitsRow item old) (direction : Direction) :
    ((storedRow item old).bytes direction).isInteger = true := by
  cases old with
  | none => cases direction <;> rfl
  | some row =>
    have hrow := integer row rfl direction
    have hlt : (row.bytes direction).value + (item.bytes direction).toNat < 2 ^ 63 :=
      fits direction
    have hadd := (Database.value_add hrow hlt).1
    rw [← Database.toSqlInteger_eq (by omega)] at hadd
    cases direction <;> exact hadd

theorem persistPending_integer {database : Database} (integer : database.AllInteger)
    {hour oldest : ℕ} {pending : List PendingTraffic}
    (distinct : KeyedList.Distinct PendingTraffic.publicKey pending)
    (fits : ∀ item ∈ pending, FitsRow item (database.lookup (itemKey hour item))) :
    (database.persistPending hour oldest pending).AllInteger := by
  intro k row hrow
  rw [lookup_persistPending distinct] at hrow
  split_ifs at hrow
  cases hitem : KeyedList.find (itemKey hour) pending k with
  | none =>
    rw [hitem] at hrow
    exact integer k row hrow
  | some item =>
    obtain ⟨hmem, rfl⟩ := KeyedList.key_of_find hitem
    rw [hitem, Option.elim_some] at hrow
    rw [← Option.some.inj hrow]
    exact storedRow_integer (fun old hold => integer _ old hold) (fits item hmem)

theorem find_after_commit {database : Database} (representable : database.Representable)
    {start hour oldest : ℕ} (hstart : start ≤ hour) (holdest : oldest ≤ start)
    {pending : List PendingTraffic}
    (distinct : KeyedList.Distinct PendingTraffic.publicKey pending)
    (fits : ∀ item ∈ pending, FitsRow item (database.lookup (itemKey hour item)))
    (k : ℕ × String) :
    KeyedList.find bucketKey
        (mergePending ((windowRows database start hour).map rowBucket) hour pending) k =
      KeyedList.find bucketKey
        ((windowRows (database.persistPending hour oldest pending) start hour).map
          rowBucket) k := by
  rw [find_mergePending distinct, find_loaded, find_loaded, lookup_persistPending distinct]
  cases hitem : KeyedList.find (itemKey hour) pending k with
  | none =>
    by_cases hwindow : start ≤ k.1 ∧ k.1 ≤ hour
    · simp [hwindow, Nat.le_trans holdest hwindow.1]
    · simp [hwindow]
  | some item =>
    obtain ⟨hmem, rfl⟩ := KeyedList.key_of_find hitem
    have hwindow : start ≤ (itemKey hour item).1 ∧ (itemKey hour item).1 ≤ hour :=
      ⟨hstart, Nat.le_refl hour⟩
    rw [if_pos hwindow, if_pos hwindow, if_pos (Nat.le_trans holdest hwindow.1)]
    simp only [Option.elim_some, Option.map_some, Option.some.injEq]
    rw [rowBucket_storedRow (fun row hrow => representable.allInteger _ row hrow)
      (fits item hmem)]

end MouseVpn.AdminApi
