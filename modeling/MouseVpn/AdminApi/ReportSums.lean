import MouseVpn.AdminApi.BucketTables

/-!
# Reading a report off its buckets

Each number of a report is the saturating sum of the buckets of some hours and devices, whatever the
other buckets are. The devices are sorted by total and name, and only those that agree in both can
change places.
-/

namespace MouseVpn.AdminApi

open MouseVpn.Lib

def TrafficBucket.totals (bucket : TrafficBucket) : TrafficTotals :=
  ⟨bucket.uploadBytes, bucket.downloadBytes⟩

def younger (currentHour age : ℕ) (k : ℕ × String) : Bool :=
  decide (k.1 ≤ currentHour) && decide (currentHour - k.1 < age)

def within (start currentHour : ℕ) (k : ℕ × String) : Bool :=
  decide (start ≤ k.1) && decide (k.1 ≤ currentHour)

def ofHour (currentHour hour : ℕ) (k : ℕ × String) : Bool :=
  decide (k.1 ≤ currentHour) && decide (k.1 = hour)

def ofDevice (start currentHour : ℕ) (publicKey : String) (k : ℕ × String) : Bool :=
  within start currentHour k && decide (k.2 = publicKey)

def bucketsOf (p : ℕ × String → Bool) (buckets : List TrafficBucket) : List TrafficBucket :=
  buckets.filter fun bucket => p (bucketKey bucket)

section Choose

variable {currentHour seriesStart : ℕ} {k : ℕ × String}

theorem younger_iff {age : ℕ} :
    younger currentHour age k = true ↔ ¬ currentHour < k.1 ∧ currentHour - k.1 < age := by
  rw [younger, Bool.and_eq_true, decide_eq_true_eq, decide_eq_true_eq, Nat.not_lt]

theorem within_iff :
    within seriesStart currentHour k = true ↔ seriesStart ≤ k.1 ∧ k.1 ≤ currentHour := by
  rw [within, Bool.and_eq_true, decide_eq_true_eq, decide_eq_true_eq]

theorem ofHour_iff {hour : ℕ} :
    ofHour currentHour hour k = true ↔ ¬ currentHour < k.1 ∧ k.1 = hour := by
  rw [ofHour, Bool.and_eq_true, decide_eq_true_eq, decide_eq_true_eq, Nat.not_lt]

theorem ofDevice_iff {publicKey : String} : ofDevice seriesStart currentHour publicKey k = true ↔
    (seriesStart ≤ k.1 ∧ k.1 ≤ currentHour) ∧ k.2 = publicKey := by
  rw [ofDevice, Bool.and_eq_true, within_iff, decide_eq_true_eq]

end Choose

theorem saturatingAdd_eq_min (a b : UInt64) :
    (saturatingAdd a b).toNat = min (a.toNat + b.toNat) (2 ^ 64 - 1) := by
  by_cases h : a.toNat + b.toNat < 2 ^ 64
  · rw [saturatingAdd_toNat h]
    omega
  · rw [saturatingAdd, if_neg h]
    have hmax : (UInt64.ofNat (2 ^ 64 - 1)).toNat = 2 ^ 64 - 1 := rfl
    omega

theorem saturatingAdd_right_comm (a b c : UInt64) :
    saturatingAdd (saturatingAdd a b) c = saturatingAdd (saturatingAdd a c) b := by
  rw [← UInt64.toNat_inj]
  simp only [saturatingAdd_eq_min]
  omega

theorem TrafficTotals.add_right_comm (totals a b : TrafficTotals) :
    (totals.add a).add b = (totals.add b).add a := by
  simp only [TrafficTotals.add, saturatingAdd_right_comm]

theorem TrafficPoint.add_right_comm (point : TrafficPoint) (a b : TrafficTotals) :
    (point.add a).add b = (point.add b).add a := by
  simp only [TrafficPoint.add, saturatingAdd_right_comm]

def sumTotals (buckets : List TrafficBucket) : TrafficTotals :=
  buckets.foldl (fun totals bucket => totals.add bucket.totals) ⟨0, 0⟩

def sumPoint (hour : ℕ) (buckets : List TrafficBucket) : TrafficPoint :=
  buckets.foldl (fun point bucket => point.add bucket.totals) ⟨hour, 0, 0⟩

def addedDevice (publicKey : String) (device : Option DeviceTrafficSummary)
    (bucket : TrafficBucket) : Option DeviceTrafficSummary :=
  some ((device.getD ⟨publicKey, bucket.name, 0, 0⟩).add bucket)

def sumDevice (publicKey : String) (buckets : List TrafficBucket) : Option DeviceTrafficSummary :=
  buckets.foldl (addedDevice publicKey) none

theorem sumTotals_perm {l l' : List TrafficBucket} (h : l.Perm l') : sumTotals l = sumTotals l' :=
  h.foldl_eq' (fun a _ b _ totals => totals.add_right_comm a.totals b.totals) _

theorem sumPoint_perm (hour : ℕ) {l l' : List TrafficBucket} (h : l.Perm l') :
    sumPoint hour l = sumPoint hour l' :=
  h.foldl_eq' (fun a _ b _ point => point.add_right_comm a.totals b.totals) _

section AddBucket

variable (currentHour seriesStart : ℕ) (sums : ReportSums) (bucket : TrafficBucket)

theorem addBucket_week : (sums.addBucket currentHour seriesStart bucket).week =
    if younger currentHour 168 (bucketKey bucket) = true then sums.week.add bucket.totals
    else sums.week := by
  simp only [younger_iff, bucketKey]
  rw [ReportSums.addBucket]
  by_cases hlate : currentHour < bucket.hour
  · rw [if_pos hlate, if_neg fun h => h.1 hlate]
  · simp only [hlate, if_false, not_false_eq_true, true_and]
    rfl

theorem addBucket_day : (sums.addBucket currentHour seriesStart bucket).day =
    if younger currentHour 24 (bucketKey bucket) = true then sums.day.add bucket.totals
    else sums.day := by
  simp only [younger_iff, bucketKey]
  rw [ReportSums.addBucket]
  by_cases hlate : currentHour < bucket.hour
  · rw [if_pos hlate, if_neg fun h => h.1 hlate]
  · simp only [hlate, if_false, not_false_eq_true, true_and]
    rfl

theorem addBucket_hour : (sums.addBucket currentHour seriesStart bucket).hour =
    if younger currentHour 1 (bucketKey bucket) = true then sums.hour.add bucket.totals
    else sums.hour := by
  simp only [younger_iff, bucketKey, Nat.lt_one_iff]
  rw [ReportSums.addBucket]
  by_cases hlate : currentHour < bucket.hour
  · rw [if_pos hlate, if_neg fun h => h.1 hlate]
  · simp only [hlate, if_false, not_false_eq_true, true_and]
    rfl

theorem addBucket_point (i : ℕ) : (sums.addBucket currentHour seriesStart bucket).hourly[i]? =
    if ofHour currentHour (seriesStart + i) (bucketKey bucket) = true then
      sums.hourly[i]?.map fun point => point.add bucket.totals
    else sums.hourly[i]? := by
  simp only [ofHour_iff, bucketKey]
  rw [ReportSums.addBucket]
  by_cases hlate : currentHour < bucket.hour
  · rw [if_pos hlate, if_neg fun h => h.1 hlate]
  · simp only [hlate, if_false, not_false_eq_true, true_and]
    by_cases hseries : seriesStart ≤ bucket.hour
    · have hindex : bucket.hour - seriesStart = i ↔ bucket.hour = seriesStart + i := by omega
      rw [if_pos hseries, List.getElem?_modify]
      simp only [hindex]
      by_cases hi : bucket.hour = seriesStart + i
      · simp [hi, TrafficBucket.totals]
      · simp [hi]
    · rw [if_neg hseries, if_neg (by omega)]

theorem addBucket_device (publicKey : String) :
    (sums.addBucket currentHour seriesStart bucket).devices.lookup publicKey =
      if ofDevice seriesStart currentHour publicKey (bucketKey bucket) = true then
        addedDevice publicKey (sums.devices.lookup publicKey) bucket
      else sums.devices.lookup publicKey := by
  simp only [ofDevice_iff, bucketKey]
  rw [ReportSums.addBucket]
  by_cases hlate : currentHour < bucket.hour
  · rw [if_pos hlate, if_neg fun h => Nat.not_le.mpr hlate h.1.2]
  · by_cases hseries : seriesStart ≤ bucket.hour
    · simp only [hlate, if_false, if_pos hseries, addToDevice]
      rw [HashMap.lookup_insert_ite]
      by_cases hkey : publicKey = bucket.publicKey
      · subst hkey
        rw [if_pos rfl, if_pos ⟨⟨hseries, Nat.not_lt.mp hlate⟩, rfl⟩]
        rfl
      · rw [if_neg hkey, if_neg fun h => hkey h.2.symm]
    · rw [if_neg hlate, if_neg fun h => hseries h.1.1]
      simp only [hseries, if_false]

end AddBucket

def reportSums (currentHour seriesStart : ℕ) (buckets : List TrafficBucket) : ReportSums :=
  buckets.foldl (fun sums bucket => sums.addBucket currentHour seriesStart bucket)
    (ReportSums.start currentHour seriesStart)

section ReportSums

variable (currentHour seriesStart : ℕ) (buckets : List TrafficBucket)

theorem reportSums_week : (reportSums currentHour seriesStart buckets).week =
    sumTotals (bucketsOf (younger currentHour 168) buckets) :=
  KeyedList.foldl_view ReportSums.week _
    (fun totals (bucket : TrafficBucket) => totals.add bucket.totals)
    (fun bucket => younger currentHour 168 (bucketKey bucket))
    (addBucket_week currentHour seriesStart) buckets _

theorem reportSums_day : (reportSums currentHour seriesStart buckets).day =
    sumTotals (bucketsOf (younger currentHour 24) buckets) :=
  KeyedList.foldl_view ReportSums.day _
    (fun totals (bucket : TrafficBucket) => totals.add bucket.totals)
    (fun bucket => younger currentHour 24 (bucketKey bucket))
    (addBucket_day currentHour seriesStart) buckets _

theorem reportSums_hour : (reportSums currentHour seriesStart buckets).hour =
    sumTotals (bucketsOf (younger currentHour 1) buckets) :=
  KeyedList.foldl_view ReportSums.hour _
    (fun totals (bucket : TrafficBucket) => totals.add bucket.totals)
    (fun bucket => younger currentHour 1 (bucketKey bucket))
    (addBucket_hour currentHour seriesStart) buckets _

theorem reportSums_device (publicKey : String) :
    (reportSums currentHour seriesStart buckets).devices.lookup publicKey =
      sumDevice publicKey (bucketsOf (ofDevice seriesStart currentHour publicKey) buckets) :=
  KeyedList.foldl_view (fun sums : ReportSums => sums.devices.lookup publicKey) _
    (addedDevice publicKey)
    (fun bucket => ofDevice seriesStart currentHour publicKey (bucketKey bucket))
    (fun sums bucket => addBucket_device currentHour seriesStart sums bucket publicKey) buckets _

theorem foldl_map_point (l : List TrafficBucket) (point : Option TrafficPoint) :
    l.foldl (fun point bucket => point.map fun point => point.add bucket.totals) point =
      point.map fun point => l.foldl (fun point bucket => point.add bucket.totals) point := by
  induction l generalizing point with
  | nil => cases point <;> rfl
  | cons bucket l ih =>
    rw [List.foldl_cons, ih, Option.map_map]
    rfl

theorem reportSums_hourly : (reportSums currentHour seriesStart buckets).hourly =
    (List.range (currentHour + 1 - seriesStart)).map fun i =>
      sumPoint ((seriesStart + i) * secondsPerHour)
        (bucketsOf (ofHour currentHour (seriesStart + i)) buckets) := by
  apply List.ext_getElem?
  intro i
  have hview := KeyedList.foldl_view (fun sums : ReportSums => sums.hourly[i]?) _
    (fun point bucket => point.map fun point => point.add bucket.totals)
    (fun bucket => ofHour currentHour (seriesStart + i) (bucketKey bucket))
    (fun sums bucket => addBucket_point currentHour seriesStart sums bucket i) buckets
    (ReportSums.start currentHour seriesStart)
  refine hview.trans ?_
  rw [foldl_map_point, ReportSums.start, List.getElem?_map, List.getElem?_map, Option.map_map]
  by_cases hi : i < currentHour + 1 - seriesStart
  · rw [List.getElem?_range hi]
    rfl
  · rw [List.getElem?_eq_none (by rw [List.length_range]; omega)]
    rfl

end ReportSums

def DeviceTrafficSummary.sortKey (summary : DeviceTrafficSummary) : UInt64 × String :=
  (summary.totalBytes, summary.name)

theorem reportsBefore_iff {a b : DeviceTrafficSummary} :
    reportsBefore a b = true ↔ b.totalBytes < a.totalBytes ∨
      a.totalBytes = b.totalBytes ∧ a.name ≤ b.name := by
  rw [reportsBefore, Bool.or_eq_true, Bool.and_eq_true, decide_eq_true_eq, decide_eq_true_eq,
    decide_eq_true_eq]

theorem reportsBefore_trans (a b c : DeviceTrafficSummary) (hab : reportsBefore a b = true)
    (hbc : reportsBefore b c = true) : reportsBefore a c = true := by
  rw [reportsBefore_iff] at hab hbc ⊢
  rcases hab with hab | ⟨hab, hname⟩
  · rcases hbc with hbc | ⟨hbc, -⟩
    · exact Or.inl (UInt64.lt_trans hbc hab)
    · exact Or.inl (hbc ▸ hab)
  · rcases hbc with hbc | ⟨hbc, hname'⟩
    · exact Or.inl (hab ▸ hbc)
    · exact Or.inr ⟨hab.trans hbc, String.le_trans hname hname'⟩

theorem reportsBefore_total (a b : DeviceTrafficSummary) :
    (reportsBefore a b || reportsBefore b a) = true := by
  rw [Bool.or_eq_true, reportsBefore_iff, reportsBefore_iff]
  rcases Nat.lt_trichotomy a.totalBytes.toNat b.totalBytes.toNat with hlt | heq | hlt
  · exact Or.inr (Or.inl hlt)
  · have htotal := UInt64.toNat_inj.mp heq
    rcases String.le_total a.name b.name with hname | hname
    · exact Or.inl (Or.inr ⟨htotal, hname⟩)
    · exact Or.inr (Or.inr ⟨htotal.symm, hname⟩)
  · exact Or.inl (Or.inl hlt)

theorem sortKey_of_reportsBefore {a b : DeviceTrafficSummary} (hab : reportsBefore a b = true)
    (hba : reportsBefore b a = true) : a.sortKey = b.sortKey := by
  rw [reportsBefore_iff] at hab hba
  have hlt : ∀ x y : UInt64, x < y → y < x → False := fun x y h h' =>
    Nat.lt_asymm (UInt64.lt_iff_toNat_lt.mp h) (UInt64.lt_iff_toNat_lt.mp h')
  rcases hab with hab | ⟨htotal, hname⟩
  · rcases hba with hba | ⟨htotal, -⟩
    · exact (hlt _ _ hab hba).elim
    · rw [htotal] at hab
      exact absurd hab (UInt64.lt_irrefl _)
  · rcases hba with hba | ⟨-, hname'⟩
    · rw [htotal] at hba
      exact absurd hba (UInt64.lt_irrefl _)
    · exact Prod.ext htotal (String.le_antisymm hname hname')

theorem sortKey_mergeSort {l l' : List DeviceTrafficSummary} (h : l.Perm l') :
    (l.mergeSort reportsBefore).map DeviceTrafficSummary.sortKey =
      (l'.mergeSort reportsBefore).map DeviceTrafficSummary.sortKey := by
  have hsorted : ∀ l : List DeviceTrafficSummary,
      (l.mergeSort reportsBefore).Pairwise fun a b => reportsBefore a b = true :=
    fun l => List.pairwise_mergeSort reportsBefore_trans reportsBefore_total l
  have hkeys : ∀ l : List DeviceTrafficSummary,
      ((l.mergeSort reportsBefore).map DeviceTrafficSummary.sortKey).Pairwise fun a b =>
        b.1 < a.1 ∨ a.1 = b.1 ∧ a.2 ≤ b.2 := by
    intro l
    rw [List.pairwise_map]
    exact (hsorted l).imp fun hbefore => reportsBefore_iff.mp hbefore
  have hperm : (l.mergeSort reportsBefore).Perm (l'.mergeSort reportsBefore) :=
    (List.mergeSort_perm l _).trans (h.trans (List.mergeSort_perm l' _).symm)
  apply List.Perm.eq_of_pairwise _ (hkeys l) (hkeys l') (hperm.map _)
  intro a b ha hb hab hba
  obtain ⟨x, -, rfl⟩ := List.mem_map.mp ha
  obtain ⟨y, -, rfl⟩ := List.mem_map.mp hb
  exact sortKey_of_reportsBefore (reportsBefore_iff.mpr hab) (reportsBefore_iff.mpr hba)

structure SameReport (report other : TrafficReport) : Prop where
  generatedAt : report.generatedAt = other.generatedAt
  selectedHours : report.selectedHours = other.selectedHours
  hour : report.hour = other.hour
  day : report.day = other.day
  week : report.week = other.week
  hourly : report.hourly = other.hourly
  devices : report.devices.Perm other.devices
  order : report.devices.map DeviceTrafficSummary.sortKey =
    other.devices.map DeviceTrafficSummary.sortKey

theorem buildReport_eq (hours : ℕ) (now : UInt64) (currentHour seriesStart : ℕ)
    (buckets : List TrafficBucket) :
    buildReport hours now currentHour seriesStart buckets =
      ⟨now, hours, (reportSums currentHour seriesStart buckets).hour,
        (reportSums currentHour seriesStart buckets).day,
        (reportSums currentHour seriesStart buckets).week,
        (reportSums currentHour seriesStart buckets).hourly,
        (reportSums currentHour seriesStart buckets).devices.values.mergeSort reportsBefore⟩ :=
  rfl

theorem bucketsOf_device_eq {currentHour seriesStart : ℕ} {buckets buckets' : List TrafficBucket}
    (table : BucketTable currentHour buckets) (table' : BucketTable currentHour buckets')
    (h : buckets.Perm buckets') (publicKey : String) :
    bucketsOf (ofDevice seriesStart currentHour publicKey) buckets =
      bucketsOf (ofDevice seriesStart currentHour publicKey) buckets' := by
  apply KeyedList.filter_eq_of_perm h table.sorted table'.sorted
  intro a ha b hb hpa hpb hhour
  rw [ofDevice, Bool.and_eq_true, decide_eq_true_eq] at hpa hpb
  apply List.inj_on_of_nodup_map table.distinct ha hb
  exact Prod.ext hhour (hpa.2.trans hpb.2.symm)

theorem sameReport_of_find {currentHour : ℕ} {buckets buckets' : List TrafficBucket}
    (table : BucketTable currentHour buckets) (table' : BucketTable currentHour buckets')
    (same : ∀ k, KeyedList.find bucketKey buckets k = KeyedList.find bucketKey buckets' k)
    (hours : ℕ) (now : UInt64) (seriesStart : ℕ) :
    SameReport (buildReport hours now currentHour seriesStart buckets)
      (buildReport hours now currentHour seriesStart buckets') := by
  have hperm := KeyedList.perm_of_find table.distinct table'.distinct same
  have hsum : ∀ p, sumTotals (bucketsOf p buckets) = sumTotals (bucketsOf p buckets') :=
    fun p => sumTotals_perm (hperm.filter _)
  have hvalues : (reportSums currentHour seriesStart buckets).devices.values.Perm
      (reportSums currentHour seriesStart buckets').devices.values := by
    apply (HashMap.entries_perm _).map
    intro publicKey
    rw [reportSums_device, reportSums_device, bucketsOf_device_eq table table' hperm]
  rw [buildReport_eq, buildReport_eq]
  refine ⟨rfl, rfl, ?_, ?_, ?_, ?_, ?_, ?_⟩
  · simp only [reportSums_hour, hsum]
  · simp only [reportSums_day, hsum]
  · simp only [reportSums_week, hsum]
  · simp only [reportSums_hourly]
    apply List.map_congr_left
    intro i _
    exact sumPoint_perm _ (hperm.filter _)
  · exact (List.mergeSort_perm _ _).trans (hvalues.trans (List.mergeSort_perm _ _).symm)
  · exact sortKey_mergeSort hvalues

end MouseVpn.AdminApi
