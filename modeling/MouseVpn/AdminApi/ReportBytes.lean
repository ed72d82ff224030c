import MouseVpn.AdminApi.ReportSums

/-!
# The bytes of a report

As long as no sum reaches the bound of its type, the numbers of a report are the bytes in the
rows and in the counters. The points of the series and the devices are two ways to split the
same buckets.
-/

namespace MouseVpn.AdminApi

open MouseVpn.Lib

def TrafficTotals.bytes (totals : TrafficTotals) : Direction → UInt64
  | .upload => totals.uploadBytes
  | .download => totals.downloadBytes

def TrafficPoint.bytes (point : TrafficPoint) : Direction → UInt64
  | .upload => point.uploadBytes
  | .download => point.downloadBytes

def TrafficReport.seriesBytes (report : TrafficReport) (direction : Direction) : ℕ :=
  (report.hourly.map fun point => (point.bytes direction).toNat).sum

def TrafficReport.devicesBytes (report : TrafficReport) (direction : Direction) : ℕ :=
  (report.devices.map fun summary => (summary.bytes direction).toNat).sum

def TrafficStore.trafficBytes (store : TrafficStore) (now : UInt64) (direction : Direction)
    (p : ℕ × String → Bool) : ℕ :=
  HashMap.sum (fun k row => if p k = true then (row.bytes direction).value else 0) store.database +
    HashMap.sum (fun publicKey registered =>
      if p (currentHour now, publicKey) = true then (registered.counter.load direction).toNat
      else 0) store.counters

theorem TrafficStore.trafficBytes_mono (store : TrafficStore) (now : UInt64)
    (direction : Direction) {p q : ℕ × String → Bool} (h : ∀ k, p k = true → q k = true) :
    store.trafficBytes now direction p ≤ store.trafficBytes now direction q := by
  have hle : ∀ k n, (if p k = true then n else 0) ≤ if q k = true then n else 0 := by
    intro k n
    by_cases hp : p k = true
    · rw [if_pos hp, if_pos (h k hp)]
    · rw [if_neg hp]
      exact Nat.zero_le _
  apply Nat.add_le_add
  · exact HashMap.sum_mono (fun k row => hle k _) _
  · exact HashMap.sum_mono (fun publicKey registered => hle _ _) _

def bytesSum (direction : Direction) (buckets : List TrafficBucket) : ℕ :=
  (buckets.map fun bucket => (bucket.bytes direction).toNat).sum

theorem bytesSum_cons (direction : Direction) (bucket : TrafficBucket)
    (buckets : List TrafficBucket) :
    bytesSum direction (bucket :: buckets) =
      (bucket.bytes direction).toNat + bytesSum direction buckets := by
  rw [bytesSum, List.map_cons, List.sum_cons]
  rfl

theorem bytesSum_append (direction : Direction) (l l' : List TrafficBucket) :
    bytesSum direction (l ++ l') = bytesSum direction l + bytesSum direction l' := by
  rw [bytesSum, List.map_append, List.sum_append]
  rfl

theorem foldl_saturatingAdd {σ : Type} {direction : Direction} (value : σ → UInt64)
    (update : σ → TrafficBucket → σ)
    (h : ∀ s bucket, value (update s bucket) = saturatingAdd (value s) (bucket.bytes direction))
    (buckets : List TrafficBucket) (s : σ)
    (fits : (value s).toNat + bytesSum direction buckets < 2 ^ 64) :
    (value (buckets.foldl update s)).toNat = (value s).toNat + bytesSum direction buckets := by
  induction buckets generalizing s with
  | nil => rfl
  | cons bucket buckets ih =>
    rw [bytesSum_cons] at fits ⊢
    have hone : (value (update s bucket)).toNat =
        (value s).toNat + (bucket.bytes direction).toNat := by
      rw [h, saturatingAdd_toNat (by omega)]
    rw [List.foldl_cons, ih _ (by rw [hone]; omega), hone, Nat.add_assoc]

theorem sumTotals_bytes {direction : Direction} {buckets : List TrafficBucket}
    (fits : bytesSum direction buckets < 2 ^ 64) :
    ((sumTotals buckets).bytes direction).toNat = bytesSum direction buckets := by
  have hzero : ((⟨0, 0⟩ : TrafficTotals).bytes direction).toNat = 0 := by cases direction <;> rfl
  have hadd : ∀ (totals : TrafficTotals) (bucket : TrafficBucket),
      (totals.add bucket.totals).bytes direction =
        saturatingAdd (totals.bytes direction) (bucket.bytes direction) := by
    intro totals bucket
    cases direction <;> rfl
  have hsum := foldl_saturatingAdd (fun totals : TrafficTotals => totals.bytes direction) _ hadd
    buckets ⟨0, 0⟩ (by rw [hzero]; omega)
  rw [sumTotals, hsum, hzero, Nat.zero_add]

theorem sumPoint_bytes (hour : ℕ) {direction : Direction} {buckets : List TrafficBucket}
    (fits : bytesSum direction buckets < 2 ^ 64) :
    ((sumPoint hour buckets).bytes direction).toNat = bytesSum direction buckets := by
  have hzero : ((⟨hour, 0, 0⟩ : TrafficPoint).bytes direction).toNat = 0 := by
    cases direction <;> rfl
  have hadd : ∀ (point : TrafficPoint) (bucket : TrafficBucket),
      (point.add bucket.totals).bytes direction =
        saturatingAdd (point.bytes direction) (bucket.bytes direction) := by
    intro point bucket
    cases direction <;> rfl
  have hsum := foldl_saturatingAdd (fun point : TrafficPoint => point.bytes direction) _ hadd
    buckets ⟨hour, 0, 0⟩ (by rw [hzero]; omega)
  rw [sumPoint, hsum, hzero, Nat.zero_add]

theorem sumPoint_hour (hour : ℕ) (buckets : List TrafficBucket) :
    (sumPoint hour buckets).hour = hour := by
  have hfold : ∀ point : TrafficPoint,
      (buckets.foldl (fun point bucket => point.add bucket.totals) point).hour = point.hour := by
    induction buckets with
    | nil => exact fun _ => rfl
    | cons bucket buckets ih => exact fun point => ih (point.add bucket.totals)
  exact hfold ⟨hour, 0, 0⟩

def deviceBytes (direction : Direction) (device : Option DeviceTrafficSummary) : UInt64 :=
  device.elim 0 fun summary => summary.bytes direction

theorem sumDevice_isSome (publicKey : String) {buckets : List TrafficBucket} (h : buckets ≠ []) :
    (sumDevice publicKey buckets).isSome = true := by
  obtain ⟨before, last, rfl⟩ := (List.eq_nil_or_concat' buckets).resolve_left h
  rw [sumDevice, List.foldl_append]
  rfl

theorem sumDevice_bytes (publicKey : String) {direction : Direction}
    {buckets : List TrafficBucket} (fits : bytesSum direction buckets < 2 ^ 64) :
    (deviceBytes direction (sumDevice publicKey buckets)).toNat = bytesSum direction buckets := by
  have hzero : (deviceBytes direction none).toNat = 0 := rfl
  have hadd : ∀ (device : Option DeviceTrafficSummary) (bucket : TrafficBucket),
      deviceBytes direction (addedDevice publicKey device bucket) =
        saturatingAdd (deviceBytes direction device) (bucket.bytes direction) := by
    intro device bucket
    cases device <;> cases direction <;> rfl
  rw [sumDevice, foldl_saturatingAdd (deviceBytes direction) _ hadd buckets none
    (by rw [hzero]; omega), hzero, Nat.zero_add]

section Split

variable {currentHour seriesStart : ℕ} {buckets : List TrafficBucket} {direction : Direction}

theorem hourly_sum (hours : ℕ) (now : UInt64)
    (fits : ∀ hour, seriesStart ≤ hour → hour ≤ currentHour →
      bytesSum direction (bucketsOf (ofHour currentHour hour) buckets) < 2 ^ 64) :
    (buildReport hours now currentHour seriesStart buckets).seriesBytes direction =
      bytesSum direction (bucketsOf (within seriesStart currentHour) buckets) := by
  have hpoints : (buildReport hours now currentHour seriesStart buckets).seriesBytes direction =
      ((List.range' seriesStart (currentHour + 1 - seriesStart)).map fun hour =>
        bytesSum direction (bucketsOf (ofHour currentHour hour) buckets)).sum := by
    rw [TrafficReport.seriesBytes, buildReport_eq]
    simp only
    rw [reportSums_hourly, List.range'_eq_map_range, List.map_map, List.map_map]
    apply congrArg List.sum
    apply List.map_congr_left
    intro i hi
    have hlt := List.mem_range.mp hi
    exact sumPoint_bytes _ (fits (seriesStart + i) (by omega) (by omega))
  have hpast : ∀ hour, bucketsOf (ofHour currentHour hour) buckets =
      (bucketsOf (within 0 currentHour) buckets).filter fun bucket =>
        decide (bucket.hour = hour) := by
    intro hour
    rw [bucketsOf, bucketsOf, List.filter_filter]
    apply List.filter_congr
    intro bucket _
    rw [Bool.eq_iff_iff, ofHour_iff, Bool.and_eq_true, within_iff, decide_eq_true_eq, bucketKey]
    omega
  have hnodup : (List.range' seriesStart (currentHour + 1 - seriesStart)).Nodup :=
    List.nodup_range'
  have hsplit := KeyedList.sum_by_key TrafficBucket.hour hnodup
    (fun bucket => (bucket.bytes direction).toNat) (bucketsOf (within 0 currentHour) buckets)
  rw [hpoints]
  simp only [hpast]
  refine hsplit.trans ?_
  rw [bytesSum, bucketsOf, bucketsOf, List.filter_filter]
  congr 2
  apply List.filter_congr
  intro bucket _
  rw [Bool.eq_iff_iff]
  simp only [within_iff, bucketKey, List.mem_range'_1, Bool.and_eq_true, decide_eq_true_eq]
  omega

theorem devices_sum (hours : ℕ) (now : UInt64)
    (fits : ∀ publicKey,
      bytesSum direction (bucketsOf (ofDevice seriesStart currentHour publicKey) buckets) <
        2 ^ 64) :
    (buildReport hours now currentHour seriesStart buckets).devicesBytes direction =
      bytesSum direction (bucketsOf (within seriesStart currentHour) buckets) := by
  obtain ⟨devices, hdevices⟩ : ∃ devices, (reportSums currentHour seriesStart buckets).devices =
    devices := ⟨_, rfl⟩
  have hlookup : ∀ publicKey, devices.lookup publicKey = sumDevice publicKey
      (bucketsOf (ofDevice seriesStart currentHour publicKey) buckets) := by
    intro publicKey
    rw [← hdevices, reportSums_device]
  have hsum : (buildReport hours now currentHour seriesStart buckets).devicesBytes direction =
      (devices.keys.map fun publicKey =>
        bytesSum direction
          (bucketsOf (ofDevice seriesStart currentHour publicKey) buckets)).sum := by
    rw [TrafficReport.devicesBytes, buildReport_eq]
    simp only
    rw [hdevices]
    refine ((List.mergeSort_perm _ _).map _).sum_nat.trans ?_
    rw [HashMap.values, AList.keys, List.keys, List.map_map, List.map_map]
    apply congrArg List.sum
    apply List.map_congr_left
    intro entry hentry
    have hfound := HashMap.lookup_eq_some_iff.mpr hentry
    have hbytes := sumDevice_bytes entry.1 (fits entry.1)
    rw [← hlookup, hfound] at hbytes
    exact hbytes
  have hkey : ∀ publicKey, bucketsOf (ofDevice seriesStart currentHour publicKey) buckets =
      (bucketsOf (within seriesStart currentHour) buckets).filter fun bucket =>
        decide (bucket.publicKey = publicKey) := by
    intro publicKey
    rw [bucketsOf, bucketsOf, List.filter_filter]
    apply List.filter_congr
    intro bucket _
    rw [Bool.eq_iff_iff, ofDevice_iff, Bool.and_eq_true, within_iff, decide_eq_true_eq]
    exact And.comm
  have hsplit := KeyedList.sum_by_key TrafficBucket.publicKey devices.keys_nodup
    (fun bucket => (bucket.bytes direction).toNat)
    (bucketsOf (within seriesStart currentHour) buckets)
  rw [hsum]
  simp only [hkey]
  refine hsplit.trans ?_
  rw [bytesSum]
  congr 2
  apply List.filter_eq_self.mpr
  intro bucket hbucket
  -- a bucket of the series has made an entry for its device
  apply decide_eq_true
  rw [← AList.mem_keys, ← AList.lookup_isSome, hlookup]
  apply sumDevice_isSome
  rw [hkey]
  exact List.ne_nil_of_mem (List.mem_filter.mpr ⟨hbucket, decide_eq_true rfl⟩)

end Split

section Store

variable {p : ℕ × String → Bool} {direction : Direction} {buckets : List TrafficBucket}

theorem bucketsOf_cons (p : ℕ × String → Bool) (direction : Direction) (bucket : TrafficBucket)
    (buckets : List TrafficBucket) :
    bytesSum direction (bucketsOf p (bucket :: buckets)) =
      (if p (bucketKey bucket) = true then (bucket.bytes direction).toNat else 0) +
        bytesSum direction (bucketsOf p buckets) := by
  rw [bucketsOf, List.filter_cons]
  split_ifs with hp
  · rw [bytesSum_cons]
    rfl
  · rw [Nat.zero_add]
    rfl

def foundBytes (direction : Direction) (buckets : List TrafficBucket) (k : ℕ × String) : ℕ :=
  (KeyedList.find bucketKey buckets k).elim 0 fun bucket => (bucket.bytes direction).toNat

theorem bytesSum_mergeItem (p : ℕ × String → Bool) {hour : ℕ} {item : PendingTraffic}
    (distinct : KeyedList.Distinct bucketKey buckets)
    (fits : foundBytes direction buckets (itemKey hour item) + (item.bytes direction).toNat <
      2 ^ 64) :
    bytesSum direction (bucketsOf p (mergeItem hour item buckets)) =
      bytesSum direction (bucketsOf p buckets) +
        if p (itemKey hour item) = true then (item.bytes direction).toNat else 0 := by
  rcases mergeItem_cases hour item buckets with ⟨before, bucket, after, rfl, hkey, heq⟩ | ⟨-, heq⟩
  · have hfind : KeyedList.find bucketKey (before ++ bucket :: after) (itemKey hour item) =
        some bucket :=
      (KeyedList.find_eq_some distinct).mpr
        ⟨List.mem_append_right before List.mem_cons_self, hkey⟩
    rw [foundBytes, hfind] at fits
    have hmerged := merge_bytes fits
    have hsame : bucketKey (bucket.merge item) = itemKey hour item := hkey
    rw [heq, bucketsOf, List.filter_append, bytesSum_append, bucketsOf, List.filter_append,
      bytesSum_append]
    have hleft := bucketsOf_cons p direction (bucket.merge item) after
    have hright := bucketsOf_cons p direction bucket after
    rw [hsame, hmerged] at hleft
    rw [hkey] at hright
    simp only [bucketsOf] at hleft hright
    rw [hleft, hright]
    split_ifs <;> omega
  · have hnew : bucketKey (newBucket hour item) = itemKey hour item := rfl
    have hbytes : (newBucket hour item).bytes direction = item.bytes direction := by
      cases direction <;> rfl
    have hlast := bucketsOf_cons p direction (newBucket hour item) []
    rw [hnew, hbytes] at hlast
    rw [heq, bucketsOf, List.filter_append, bytesSum_append]
    exact congrArg (bytesSum direction (bucketsOf p buckets) + ·) hlast

theorem bytesSum_mergePending (p : ℕ × String → Bool) {hour : ℕ} {pending : List PendingTraffic}
    (table : BucketTable hour buckets)
    (distinct : KeyedList.Distinct PendingTraffic.publicKey pending)
    (fits : ∀ item ∈ pending, foundBytes direction buckets (itemKey hour item) +
      (item.bytes direction).toNat < 2 ^ 64) :
    bytesSum direction (bucketsOf p (mergePending buckets hour pending)) =
      bytesSum direction (bucketsOf p buckets) + (pending.map fun item =>
        if p (itemKey hour item) = true then (item.bytes direction).toNat else 0).sum := by
  induction pending generalizing buckets with
  | nil => rfl
  | cons item items ih =>
    obtain ⟨hnew, hrest⟩ := List.nodup_cons.mp distinct
    -- the other items find what they found before
    have hothers : ∀ other ∈ items, foundBytes direction (mergeItem hour item buckets)
        (itemKey hour other) + (other.bytes direction).toNat < 2 ^ 64 := by
      intro other hother
      have hne : itemKey hour item ≠ itemKey hour other := by
        intro heq
        exact hnew ((Prod.mk.inj heq).2 ▸ List.mem_map_of_mem hother)
      rw [foundBytes, find_mergeItem, if_neg hne]
      exact fits other (List.mem_cons_of_mem item hother)
    have hitem := bytesSum_mergeItem p table.distinct (fits item List.mem_cons_self)
    rw [mergePending, List.foldl_cons]
    refine (ih (table.mergeItem item) hrest hothers).trans ?_
    rw [hitem, List.map_cons, List.sum_cons, Nat.add_assoc]

theorem peekCounter_publicKey {entry : Σ _ : String, RegisteredCounter} {item : PendingTraffic}
    (h : peekCounter entry = some item) : item.publicKey = entry.1 := by
  rw [peekCounter] at h
  split_ifs at h
  rw [← Option.some.inj h]

theorem peekPending_distinct (counters : HashMap String RegisteredCounter) :
    KeyedList.Distinct PendingTraffic.publicKey (peekPending counters) := by
  have hkeys : List.Sublist ((peekPending counters).map PendingTraffic.publicKey)
      counters.keys := by
    rw [peekPending, AList.keys, List.keys]
    induction counters.entries with
    | nil => exact List.Sublist.refl _
    | cons entry entries ih =>
      cases hpeek : peekCounter entry with
      | none =>
        rw [List.filterMap_cons_none hpeek]
        exact ih.cons entry.1
      | some item =>
        rw [List.filterMap_cons_some hpeek, List.map_cons, List.map_cons,
          peekCounter_publicKey hpeek]
        exact ih.cons_cons entry.1
  exact hkeys.nodup counters.keys_nodup

theorem sum_peekPending (p : ℕ × String → Bool) (hour : ℕ) (direction : Direction)
    (counters : HashMap String RegisteredCounter) :
    ((peekPending counters).map fun item =>
        if p (itemKey hour item) = true then (item.bytes direction).toNat else 0).sum =
      HashMap.sum (fun publicKey registered =>
        if p (hour, publicKey) = true then (registered.counter.load direction).toNat else 0)
        counters := by
  rw [peekPending, HashMap.sum]
  induction counters.entries with
  | nil => rfl
  | cons entry entries ih =>
    rw [List.map_cons, List.sum_cons, ← ih]
    cases hpeek : peekCounter entry with
    | none =>
      have hzero : (entry.2.counter.load direction).toNat = 0 := by
        rw [peekCounter] at hpeek
        split_ifs at hpeek with hboth
        cases direction with
        | upload => rw [hboth.1]; rfl
        | download => rw [hboth.2]; rfl
      rw [List.filterMap_cons_none hpeek, hzero, ite_self, Nat.zero_add]
    | some item =>
      have hitem : item = ⟨entry.1, entry.2.name, entry.2.counter.load .upload,
          entry.2.counter.load .download⟩ := by
        rw [peekCounter] at hpeek
        split_ifs at hpeek
        exact (Option.some.inj hpeek).symm
      rw [List.filterMap_cons_some hpeek, List.map_cons, List.sum_cons, hitem]
      cases direction <;> rfl

theorem bytesSum_rows {database : Database} (representable : database.Representable)
    {start stop : ℕ} (hp : ∀ k, p k = true → start ≤ k.1 ∧ k.1 ≤ stop) :
    bytesSum direction (bucketsOf p ((windowRows database start stop).map rowBucket)) =
      HashMap.sum (fun k row => if p k = true then (row.bytes direction).value else 0)
        database := by
  have hvalue : ∀ entry ∈ database.entries,
      ((rowBucket entry).bytes direction).toNat = (entry.2.bytes direction).value := by
    intro entry hentry
    apply rowBucket_bytes
    have hlt := (representable entry.1 entry.2 (HashMap.lookup_eq_some_iff.mpr hentry) direction).2
    omega
  have hrows : (bucketsOf p ((windowRows database start stop).map rowBucket)).Perm
      ((database.entries.filter fun entry => p entry.1).map rowBucket) := by
    rw [bucketsOf, List.filter_map]
    apply List.Perm.map
    refine ((List.mergeSort_perm _ _).filter _).trans ?_
    rw [List.filter_filter]
    apply List.Perm.of_eq
    apply List.filter_congr
    intro entry _
    rw [Bool.eq_iff_iff, Bool.and_eq_true, Bool.and_eq_true, decide_eq_true_eq, decide_eq_true_eq]
    exact ⟨fun h => h.1, fun h => ⟨h, hp entry.1 h⟩⟩
  have hsum := HashMap.sum_retain (fun _ row => (Row.bytes row direction).value) (fun k _ => p k)
    database
  rw [← hsum, bytesSum, (hrows.map _).sum_nat, List.map_map]
  apply congrArg List.sum
  apply List.map_congr_left
  intro entry hentry
  exact hvalue entry (List.mem_filter.mp hentry).1

theorem foundBytes_rows {database : Database} (representable : database.Representable)
    {start hour : ℕ} (hstart : start ≤ hour) (publicKey : String) :
    foundBytes direction ((windowRows database start hour).map rowBucket) (hour, publicKey) =
      database.rowBytes hour publicKey direction := by
  rw [foundBytes, find_loaded, if_pos ⟨hstart, Nat.le_refl hour⟩, Database.rowBytes]
  cases hrow : database.lookup (hour, publicKey) with
  | none => rfl
  | some row =>
    have hlt := (representable _ row hrow direction).2
    exact rowBucket_bytes (Nat.lt_trans hlt (by decide))

end Store

def TrafficStore.buckets (store : TrafficStore) (hours : ℕ) (now : UInt64) : List TrafficBucket :=
  mergePending ((windowRows store.database (queryStart hours now) (currentHour now)).map rowBucket)
    (currentHour now) (peekPending store.counters)

theorem queryStart_le (hours : ℕ) (now : UInt64) : queryStart hours now ≤ currentHour now :=
  (Nat.min_le_left _ _).trans (Nat.sub_le _ _)

theorem TrafficStore.buckets_table (store : TrafficStore) (hours : ℕ) (now : UInt64) :
    BucketTable (currentHour now) (store.buckets hours now) :=
  (loaded_table _ _ _).mergePending _

theorem mem_peekPending {counters : HashMap String RegisteredCounter} {item : PendingTraffic}
    (h : item ∈ peekPending counters) :
    ∃ registered, counters.lookup item.publicKey = some registered ∧
      item.name = registered.name ∧
      ∀ direction, item.bytes direction = registered.counter.load direction := by
  obtain ⟨entry, hentry, hpeek⟩ := List.mem_filterMap.mp h
  rw [peekCounter] at hpeek
  split_ifs at hpeek
  obtain rfl := Option.some.inj hpeek
  refine ⟨entry.2, HashMap.lookup_eq_some_iff.mpr hentry, rfl, ?_⟩
  intro direction
  cases direction <;> rfl

theorem TrafficStore.counterBytes_of_mem {store : TrafficStore} {item : PendingTraffic}
    (h : item ∈ peekPending store.counters) (direction : Direction) :
    (item.bytes direction).toNat = store.counterBytes (item.publicKey, direction) := by
  obtain ⟨registered, hfound, -, hbytes⟩ := mem_peekPending h
  rw [counterBytes_of_lookup hfound, hbytes]

theorem TrafficStore.bytesSum_buckets {store : TrafficStore} {hours : ℕ} {now : UInt64}
    {direction : Direction} {p : ℕ × String → Bool}
    (representable : store.database.Representable)
    (fits : ∀ publicKey, store.database.rowBytes (currentHour now) publicKey direction +
      store.counterBytes (publicKey, direction) < 2 ^ 64)
    (hp : ∀ k, p k = true → queryStart hours now ≤ k.1 ∧ k.1 ≤ currentHour now) :
    bytesSum direction (bucketsOf p (store.buckets hours now)) =
      store.trafficBytes now direction p := by
  have hfits : ∀ item ∈ peekPending store.counters, foundBytes direction
      ((windowRows store.database (queryStart hours now) (currentHour now)).map rowBucket)
      (itemKey (currentHour now) item) + (item.bytes direction).toNat < 2 ^ 64 := by
    intro item hitem
    rw [itemKey, foundBytes_rows representable (queryStart_le hours now),
      store.counterBytes_of_mem hitem]
    exact fits item.publicKey
  rw [buckets, bytesSum_mergePending p (loaded_table _ _ _) (peekPending_distinct _) hfits,
    bytesSum_rows representable hp, sum_peekPending]
  rfl

end MouseVpn.AdminApi
