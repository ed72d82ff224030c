import MouseVpn.AdminApi.TrafficReport

/-!
# The per-device totals of a report

What a report shows for a device is the sum of the rows that it loads and of the counters that
it reads, as long as nothing saturates.
-/

namespace MouseVpn.AdminApi

open MouseVpn.Lib

def bucketBytes (buckets : List TrafficBucket) (hours : ℕ → Bool) (account : Account) : ℕ :=
  (buckets.map fun bucket =>
    if bucket.publicKey = account.1 ∧ hours bucket.hour = true then (bucket.bytes account.2).toNat
    else 0).sum

theorem bucketBytes_cons (bucket : TrafficBucket) (buckets : List TrafficBucket) (hours : ℕ → Bool)
    (account : Account) :
    bucketBytes (bucket :: buckets) hours account =
      (if bucket.publicKey = account.1 ∧ hours bucket.hour = true then
        (bucket.bytes account.2).toNat else 0) + bucketBytes buckets hours account := by
  rw [bucketBytes, List.map_cons, List.sum_cons]
  rfl

theorem merge_bytes {bucket : TrafficBucket} {item : PendingTraffic} {direction : Direction}
    (h : (bucket.bytes direction).toNat + (item.bytes direction).toNat < 2 ^ 64) :
    ((bucket.merge item).bytes direction).toNat =
      (bucket.bytes direction).toNat + (item.bytes direction).toNat := by
  cases direction <;> exact saturatingAdd_toNat h

theorem pendingBytes_one (item : PendingTraffic) (account : Account) :
    pendingBytes [item] account =
      if item.publicKey = account.1 then (item.bytes account.2).toNat else 0 := by
  rw [pendingBytes_cons]
  rfl

theorem bucketBytes_mergeItem (hour : ℕ) (item : PendingTraffic) {buckets : List TrafficBucket}
    {account : Account} (fits : bucketBytes buckets (fun _ => true) account +
      pendingBytes [item] account < 2 ^ 64) (hours : ℕ → Bool) :
    bucketBytes (mergeItem hour item buckets) hours account = bucketBytes buckets hours account +
      if hours hour = true then pendingBytes [item] account else 0 := by
  rw [pendingBytes_one] at fits ⊢
  induction buckets with
  | nil =>
    rw [mergeItem, bucketBytes_cons]
    obtain ⟨publicKey, direction⟩ := account
    by_cases hhour : hours hour = true
    · cases direction <;> simp [bucketBytes, TrafficBucket.bytes, PendingTraffic.bytes, hhour]
    · simp [bucketBytes, hhour]
  | cons bucket buckets ih =>
    rw [bucketBytes_cons] at fits
    simp only [and_true] at fits
    by_cases hmatch : bucket.hour = hour ∧ bucket.publicKey = item.publicKey
    · rw [mergeItem, if_pos hmatch, bucketBytes_cons, bucketBytes_cons]
      obtain ⟨hhour, hkey⟩ := hmatch
      have hfields : (bucket.merge item).publicKey = item.publicKey ∧
          (bucket.merge item).hour = hour := ⟨hkey, hhour⟩
      rw [hfields.1, hfields.2, hkey, hhour]
      by_cases hboth : item.publicKey = account.1 ∧ hours hour = true
      · simp only [hkey, hboth.1, if_true] at fits
        have hsum : ((bucket.merge item).bytes account.2).toNat =
            (bucket.bytes account.2).toNat + (item.bytes account.2).toNat :=
          merge_bytes (by omega)
        rw [if_pos hboth, if_pos hboth, if_pos hboth.2, if_pos hboth.1, hsum]
        omega
      · rw [if_neg hboth, if_neg hboth]
        split_ifs with hwindow hitem
        · exact absurd ⟨hitem, hwindow⟩ hboth
        · rfl
        · rfl
    · rw [mergeItem, if_neg hmatch, bucketBytes_cons, bucketBytes_cons, ih (by omega),
        Nat.add_assoc]

theorem bucketBytes_mergePending (hour : ℕ) (pending : List PendingTraffic)
    {buckets : List TrafficBucket} {account : Account}
    (fits : bucketBytes buckets (fun _ => true) account + pendingBytes pending account < 2 ^ 64)
    (hours : ℕ → Bool) :
    bucketBytes (mergePending buckets hour pending) hours account =
      bucketBytes buckets hours account +
        if hours hour = true then pendingBytes pending account else 0 := by
  induction pending generalizing buckets with
  | nil => simp [mergePending, pendingBytes]
  | cons item items ih =>
    have hsplit : pendingBytes (item :: items) account =
        pendingBytes [item] account + pendingBytes items account :=
      pendingBytes_append [item] items account
    rw [hsplit] at fits ⊢
    have hitem :
        bucketBytes buckets (fun _ => true) account + pendingBytes [item] account < 2 ^ 64 :=
      by omega
    have hfirst := bucketBytes_mergeItem hour item hitem
    rw [mergePending, List.foldl_cons]
    refine (ih ?_).trans ?_
    · rw [hfirst, if_pos rfl]
      omega
    · rw [hfirst]
      split_ifs <;> omega

theorem pendingBytes_peekCounter (entry : Σ _ : String, RegisteredCounter) (account : Account) :
    pendingBytes (peekCounter entry).toList account =
      if entry.1 = account.1 then (entry.2.counter.load account.2).toNat else 0 := by
  obtain ⟨key, direction⟩ := account
  rw [peekCounter]
  split_ifs with hzero hkey hkey
  · cases direction <;> simp [pendingBytes, hzero]
  · rfl
  · rw [Option.toList_some, pendingBytes_one, if_pos hkey]
    cases direction <;> rfl
  · rw [Option.toList_some, pendingBytes_one, if_neg hkey]

theorem pendingBytes_peekPending (store : TrafficStore) (account : Account) :
    pendingBytes (peekPending store.counters) account = store.counterBytes account := by
  have hentries : ∀ entries : List (Σ _ : String, RegisteredCounter),
      pendingBytes (entries.filterMap peekCounter) account =
        (entries.map fun entry =>
          if entry.1 = account.1 then (entry.2.counter.load account.2).toNat else 0).sum := by
    intro entries
    induction entries with
    | nil => rfl
    | cons entry entries ih =>
      have hentry := pendingBytes_peekCounter entry account
      rw [List.map_cons, List.sum_cons, ← ih, ← hentry, ← pendingBytes_append]
      cases hpeek : peekCounter entry with
      | none => rw [List.filterMap_cons_none hpeek]; rfl
      | some item => rw [List.filterMap_cons_some hpeek]; rfl
  refine (hentries store.counters.entries).trans ?_
  have hsum := HashMap.sum_single
    (fun registered => (registered.counter.load account.2).toNat) store.counters account.1
  refine hsum.trans ?_
  rw [TrafficStore.counterBytes]
  cases store.counters.lookup account.1 <;> rfl

def rowBucket (entry : Σ _ : ℕ × String, Row) : TrafficBucket :=
  ⟨entry.1.1, entry.1.2, entry.2.name, fromSqlInteger entry.2.uploadBytes.value,
    fromSqlInteger entry.2.downloadBytes.value⟩

theorem bucketOf_eq {key : ℕ × String} {row : Row}
    (integer : ∀ direction, (row.bytes direction).isInteger = true) :
    bucketOf key row = some (rowBucket ⟨key, row⟩) := by
  obtain ⟨name, upload, download⟩ := row
  have hupload := integer .upload
  have hdownload := integer .download
  cases upload with
  | real => exact Bool.noConfusion hupload
  | integer a =>
    cases download with
    | real => exact Bool.noConfusion hdownload
    | integer b => rfl

theorem rowBucket_bytes {entry : Σ _ : ℕ × String, Row} {direction : Direction}
    (h : (entry.2.bytes direction).value < 2 ^ 64) :
    ((rowBucket entry).bytes direction).toNat = (entry.2.bytes direction).value := by
  cases direction <;> exact UInt64.toNat_ofNat_of_lt' h

theorem mapM_eq_map {α β : Type} {f : α → Option β} {g : α → β} {l : List α}
    (h : ∀ a ∈ l, f a = some (g a)) : l.mapM f = some (l.map g) := by
  induction l with
  | nil => rfl
  | cons a l ih =>
    rw [List.mapM_cons, h a List.mem_cons_self, ih fun b hb => h b (List.mem_cons_of_mem a hb)]
    rfl

theorem storedBytes_of_mem {database : Database} {entry : Σ _ : ℕ × String, Row}
    (h : entry ∈ database.entries) (direction : Direction) :
    (entry.2.bytes direction).value ≤
      database.storedBytes (fun _ => true) (entry.1.2, direction) := by
  have hrow := Database.rowBytes_le database entry.1.1 entry.1.2 direction
  rw [Database.rowBytes, HashMap.lookup_eq_some_iff.2 h] at hrow
  exact hrow

theorem storedBytes_le (database : Database) (hours : ℕ → Bool) (account : Account) :
    database.storedBytes hours account ≤ database.storedBytes (fun _ => true) account := by
  apply HashMap.sum_mono
  intro key row
  split_ifs with h hkey hkey
  · exact Nat.le_refl _
  · exact absurd ⟨h.1, rfl⟩ hkey
  · exact Nat.zero_le _
  · exact Nat.le_refl _

theorem loadBuckets_spec {database : Database} (integer : database.AllInteger)
    (fits : ∀ account, database.storedBytes (fun _ => true) account < 2 ^ 64) (start stop : ℕ) :
    ∃ buckets, loadBuckets database start stop = some buckets ∧
      ∀ hours account, bucketBytes buckets hours account =
        database.storedBytes (fun hour =>
          (decide (start ≤ hour) && decide (hour ≤ stop)) && hours hour) account := by
  refine ⟨_, mapM_eq_map fun entry hentry => bucketOf_eq ?_, ?_⟩
  · have hmem := (List.mergeSort_perm _ _).mem_iff.1 hentry
    exact integer entry.1 entry.2 (HashMap.lookup_eq_some_iff.2 (List.mem_filter.1 hmem).1)
  · intro hours account
    -- the order of the rows does not matter for their sum
    rw [bucketBytes, (((List.mergeSort_perm _ _).map rowBucket).map _).sum_nat]
    have hwindow := HashMap.sum_retain (fun key row =>
      if key.2 = account.1 ∧ hours key.1 = true then (Row.bytes row account.2).value else 0)
      (fun key _ => decide (start ≤ key.1) && decide (key.1 ≤ stop)) database
    refine Eq.trans ?_ (hwindow.trans ?_)
    · rw [List.map_map]
      apply congrArg List.sum
      apply List.map_congr_left
      intro entry hentry
      have hvalue := storedBytes_of_mem (List.mem_filter.1 hentry).1 account.2
      have hlt := fits (entry.1.2, account.2)
      have hbytes := rowBucket_bytes (Nat.lt_of_le_of_lt hvalue hlt)
      rw [Function.comp_apply, hbytes]
      rfl
    · rw [Database.storedBytes]
      congr 1
      funext key row
      by_cases hkey : (decide (start ≤ key.1) && decide (key.1 ≤ stop)) = true
      · simp only [hkey, Bool.true_and, if_true]
      · simp only [hkey, Bool.false_eq_true, if_false, Bool.false_and, and_false]

def sumBytes (devices : HashMap String DeviceTrafficSummary) (account : Account) : ℕ :=
  HashMap.sum (fun _ summary =>
    if summary.publicKey = account.1 then (summary.bytes account.2).toNat else 0) devices

theorem add_bytes {device : DeviceTrafficSummary} {bucket : TrafficBucket} {direction : Direction}
    (h : (device.bytes direction).toNat + (bucket.bytes direction).toNat < 2 ^ 64) :
    ((device.add bucket).bytes direction).toNat =
      (device.bytes direction).toNat + (bucket.bytes direction).toNat := by
  cases direction <;> exact saturatingAdd_toNat h

def Keyed (devices : HashMap String DeviceTrafficSummary) : Prop :=
  ∀ key summary, devices.lookup key = some summary → summary.publicKey = key

theorem addToDevice_keyed {devices : HashMap String DeviceTrafficSummary} (keyed : Keyed devices)
    (bucket : TrafficBucket) : Keyed (addToDevice bucket devices) := by
  intro key summary found
  rw [addToDevice, HashMap.lookup_insert_ite] at found
  split_ifs at found with hkey
  · rw [← Option.some.inj found, hkey]
    cases hold : devices.lookup bucket.publicKey with
    | none => rfl
    | some old => exact keyed _ old hold
  · exact keyed key summary found

theorem bucketBytes_one (bucket : TrafficBucket) (hours : ℕ → Bool) (account : Account) :
    bucketBytes [bucket] hours account =
      if bucket.publicKey = account.1 ∧ hours bucket.hour = true then
        (bucket.bytes account.2).toNat else 0 := by
  rw [bucketBytes_cons]
  rfl

theorem sumBytes_addToDevice {devices : HashMap String DeviceTrafficSummary} (keyed : Keyed devices)
    {bucket : TrafficBucket} {account : Account}
    (fits : sumBytes devices account + bucketBytes [bucket] (fun _ => true) account < 2 ^ 64) :
    sumBytes (addToDevice bucket devices) account =
      sumBytes devices account + bucketBytes [bucket] (fun _ => true) account := by
  have hinsert := HashMap.sum_insert (fun _ summary =>
    if DeviceTrafficSummary.publicKey summary = account.1 then (summary.bytes account.2).toNat
    else 0)
    devices bucket.publicKey (((devices.lookup bucket.publicKey).getD
      ⟨bucket.publicKey, bucket.name, 0, 0⟩).add bucket)
  have hle := HashMap.found_le_sum (fun _ summary =>
    if DeviceTrafficSummary.publicKey summary = account.1 then (summary.bytes account.2).toNat
    else 0)
    devices bucket.publicKey
  have hold : ∃ device, (devices.lookup bucket.publicKey).getD
      ⟨bucket.publicKey, bucket.name, 0, 0⟩ = device ∧ device.publicKey = bucket.publicKey ∧
      HashMap.found (fun _ summary => if DeviceTrafficSummary.publicKey summary = account.1 then
          (summary.bytes account.2).toNat else 0) devices bucket.publicKey =
        if bucket.publicKey = account.1 then (device.bytes account.2).toNat else 0 := by
    cases hlookup : devices.lookup bucket.publicKey with
    | none =>
      refine ⟨_, rfl, rfl, ?_⟩
      rw [HashMap.found, hlookup]
      cases account.2 <;> simp [DeviceTrafficSummary.bytes]
    | some device =>
      refine ⟨device, rfl, keyed _ device hlookup, ?_⟩
      rw [HashMap.found, hlookup, Option.elim_some, keyed _ device hlookup]
  obtain ⟨device, hdevice, hkey, hfound⟩ := hold
  rw [hdevice, hfound] at hinsert
  rw [hfound] at hle
  rw [bucketBytes_one] at fits ⊢
  rw [addToDevice, hdevice, sumBytes]
  have hname : (device.add bucket).publicKey = bucket.publicKey := hkey
  simp only [hname] at hinsert
  rw [sumBytes] at fits ⊢
  by_cases haccount : bucket.publicKey = account.1
  · simp only [haccount, if_true, and_self] at hinsert hle fits ⊢
    have hsum : ((device.add bucket).bytes account.2).toNat =
        (device.bytes account.2).toNat + (bucket.bytes account.2).toNat :=
      add_bytes (by omega)
    omega
  · simp only [haccount, if_false, false_and] at hinsert ⊢
    omega

theorem foldl_addBucket (currentHour seriesStart : ℕ) (buckets : List TrafficBucket)
    {sums : ReportSums} (keyed : Keyed sums.devices) {account : Account}
    (fits : sumBytes sums.devices account + bucketBytes buckets (fun _ => true) account < 2 ^ 64) :
    sumBytes (buckets.foldl (fun sums bucket => sums.addBucket currentHour seriesStart bucket)
        sums).devices account =
      sumBytes sums.devices account + bucketBytes buckets (fun hour =>
        decide (seriesStart ≤ hour) && decide (hour ≤ currentHour)) account := by
  induction buckets generalizing sums with
  | nil => rfl
  | cons bucket buckets ih =>
    rw [bucketBytes_cons] at fits ⊢
    simp only [and_true] at fits
    rw [List.foldl_cons]
    by_cases hseries : seriesStart ≤ bucket.hour ∧ bucket.hour ≤ currentHour
    · have hdevices : (sums.addBucket currentHour seriesStart bucket).devices =
          addToDevice bucket sums.devices := by
        rw [ReportSums.addBucket, if_neg (Nat.not_lt.2 hseries.2)]
        exact if_pos hseries.1
      have hone : bucketBytes [bucket] (fun _ => true) account =
          if bucket.publicKey = account.1 then (bucket.bytes account.2).toNat else 0 := by
        rw [bucketBytes_one]
        simp only [and_true]
      have hsum : sumBytes (addToDevice bucket sums.devices) account =
          sumBytes sums.devices account + bucketBytes [bucket] (fun _ => true) account := by
        apply sumBytes_addToDevice keyed
        rw [hone]
        omega
      rw [ih (by rw [hdevices]; exact addToDevice_keyed keyed bucket)
        (by rw [hdevices, hsum, hone]; omega), hdevices, hsum, hone]
      simp only [hseries.1, hseries.2, decide_true, Bool.and_self, and_true]
      omega
    · have hdevices : (sums.addBucket currentHour seriesStart bucket).devices = sums.devices := by
        rw [ReportSums.addBucket]
        split_ifs with hlate
        · rfl
        · exact if_neg fun hearly => hseries ⟨hearly, Nat.le_of_not_lt hlate⟩
      have hno : ¬ (bucket.publicKey = account.1 ∧ (decide (seriesStart ≤ bucket.hour) &&
          decide (bucket.hour ≤ currentHour)) = true) := by
        intro h
        rw [Bool.and_eq_true, decide_eq_true_eq, decide_eq_true_eq] at h
        exact hseries h.2
      rw [ih (by rw [hdevices]; exact keyed) (by rw [hdevices]; omega), hdevices, if_neg hno,
        Nat.zero_add]

theorem deviceBytes_buildReport (hours : ℕ) (now : UInt64) (currentHour seriesStart : ℕ)
    {buckets : List TrafficBucket} {account : Account}
    (fits : bucketBytes buckets (fun _ => true) account < 2 ^ 64) :
    (buildReport hours now currentHour seriesStart buckets).deviceBytes account =
      bucketBytes buckets (fun hour =>
        decide (seriesStart ≤ hour) && decide (hour ≤ currentHour)) account := by
  have hempty : sumBytes (ReportSums.start currentHour seriesStart).devices account = 0 := rfl
  have hkeyed : Keyed (ReportSums.start currentHour seriesStart).devices := by
    intro key summary found
    cases found
  have hfits : sumBytes (ReportSums.start currentHour seriesStart).devices account +
      bucketBytes buckets (fun _ => true) account < 2 ^ 64 := by
    rw [hempty, Nat.zero_add]
    exact fits
  have hfold := foldl_addBucket currentHour seriesStart buckets hkeyed hfits
  rw [hempty, Nat.zero_add] at hfold
  rw [← hfold, TrafficReport.deviceBytes, buildReport]
  refine ((List.mergeSort_perm _ _).map _).sum_nat.trans ?_
  rw [HashMap.values, List.map_map]
  rfl

theorem reportAt_spec {store : TrafficStore} {database : Database} (integer : database.AllInteger)
    (fits : ∀ account, database.storedBytes (fun _ => true) account + store.counterBytes account <
      2 ^ 64) (hours : ℕ) (now : UInt64) :
    ∃ report, reportAt hours now database store.counters = some report ∧
      ∀ account, report.deviceBytes account =
        database.storedBytes (inSeries hours now) account + store.counterBytes account := by
  have hstored : ∀ account, database.storedBytes (fun _ => true) account < 2 ^ 64 :=
    fun account => Nat.lt_of_le_of_lt (Nat.le_add_right _ _) (fits account)
  obtain ⟨buckets, hload, hbuckets⟩ :=
    loadBuckets_spec integer hstored (queryStart hours now) (currentHour now)
  refine ⟨_, by rw [reportAt, hload]; rfl, ?_⟩
  intro account
  have hpeek := pendingBytes_peekPending store account
  have hall : bucketBytes buckets (fun _ => true) account +
      pendingBytes (peekPending store.counters)
      account < 2 ^ 64 := by
    have hle : bucketBytes buckets (fun _ => true) account ≤
        database.storedBytes (fun _ => true) account := by
      rw [hbuckets]
      exact storedBytes_le database _ account
    have hlt := fits account
    omega
  have hmerge := bucketBytes_mergePending (currentHour now) (peekPending store.counters) hall
  have hcurrent : (decide (seriesStart hours now ≤ currentHour now) &&
      decide (currentHour now ≤ currentHour now)) = true := by
    simp [seriesStart]
  have hseries : (fun hour => (decide (queryStart hours now ≤ hour) &&
      decide (hour ≤ currentHour now)) && (decide (seriesStart hours now ≤ hour) &&
      decide (hour ≤ currentHour now))) = inSeries hours now := by
    funext hour
    have hquery : queryStart hours now ≤ seriesStart hours now := Nat.min_le_left _ _
    rw [inSeries, Bool.eq_iff_iff]
    simp only [Bool.and_eq_true, decide_eq_true_eq]
    exact ⟨fun h => h.2, fun h => ⟨⟨Nat.le_trans hquery h.1, h.2⟩, h⟩⟩
  rw [deviceBytes_buildReport, hmerge, if_pos hcurrent, hbuckets, hpeek, hseries]
  rw [hmerge, if_pos rfl]
  exact hall

end MouseVpn.AdminApi
