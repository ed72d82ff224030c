import MouseVpn.AdminApi.FlushRun

/-!
# The laws of traffic reports

What a report says about a store: the series and the devices sum to the bytes of the series, the
three totals to the bytes of their ages, and a flush does not change it.
-/

namespace MouseVpn.AdminApi

open MouseVpn.Lib

structure ReportExact (store : TrafficStore) (hours : ℕ) (now : UInt64) : Prop where
  rows : ∀ publicKey direction, store.database.rowBytes (currentHour now) publicKey direction +
    store.counterBytes (publicKey, direction) < 2 ^ 64
  week : ∀ direction, store.trafficBytes now direction (younger (currentHour now) 168) < 2 ^ 64
  points : ∀ hour direction, seriesStart hours now ≤ hour → hour ≤ currentHour now →
    store.trafficBytes now direction (ofHour (currentHour now) hour) < 2 ^ 64
  devices : ∀ publicKey direction, store.trafficBytes now direction
    (ofDevice (seriesStart hours now) (currentHour now) publicKey) < 2 ^ 64

def FlushExact (store : TrafficStore) (now : UInt64) : Prop :=
  ∀ publicKey direction, store.database.rowBytes (currentHour now) publicKey direction +
    store.counterBytes (publicKey, direction) < 2 ^ 63

theorem reportAt_eq {store : TrafficStore} (integer : store.database.AllInteger) (hours : ℕ)
    (now : UInt64) :
    reportAt hours now store.database store.counters =
      some (buildReport (selectedHours hours) now (currentHour now) (seriesStart hours now)
        (store.buckets hours now)) := by
  rw [reportAt, loadBuckets_eq integer]
  rfl

theorem one_le_selectedHours (hours : ℕ) : 1 ≤ selectedHours hours := Nat.le_max_left _ _

theorem selectedHours_le (hours : ℕ) : selectedHours hours ≤ 744 := by
  rw [selectedHours, maxQueryHours]
  omega

theorem series_in_window (hours : ℕ) (now : UInt64) (k : ℕ × String)
    (h : within (seriesStart hours now) (currentHour now) k = true) :
    queryStart hours now ≤ k.1 ∧ k.1 ≤ currentHour now := by
  obtain ⟨hstart, hstop⟩ := within_iff.mp h
  exact ⟨(Nat.min_le_left _ _).trans hstart, hstop⟩

theorem younger_in_window (hours : ℕ) (now : UInt64) {age : ℕ} (hage : age ≤ 168) (k : ℕ × String)
    (h : younger (currentHour now) age k = true) :
    queryStart hours now ≤ k.1 ∧ k.1 ≤ currentHour now := by
  obtain ⟨hpast, hyoung⟩ := younger_iff.mp h
  have hmin : queryStart hours now ≤ currentHour now - 167 := Nat.min_le_right _ _
  omega

section Sums

variable {store : TrafficStore} {hours : ℕ} {now : UInt64}

theorem young_bytes (representable : store.database.Representable)
    (unsaturated : ReportExact store hours now) {age : ℕ} (hage : age ≤ 168)
    (direction : Direction) :
    ((sumTotals (bucketsOf (younger (currentHour now) age) (store.buckets hours now))).bytes
      direction).toNat = store.trafficBytes now direction (younger (currentHour now) age) := by
  have hbytes := store.bytesSum_buckets representable (fun key => unsaturated.rows key direction)
    (younger_in_window hours now hage)
  rw [sumTotals_bytes, hbytes]
  rw [hbytes]
  refine Nat.lt_of_le_of_lt (store.trafficBytes_mono now direction ?_) (unsaturated.week direction)
  intro k hk
  obtain ⟨hpast, hyoung⟩ := younger_iff.mp hk
  exact younger_iff.mpr ⟨hpast, Nat.lt_of_lt_of_le hyoung hage⟩

theorem series_bytes (representable : store.database.Representable)
    (unsaturated : ReportExact store hours now) (direction : Direction) :
    (buildReport (selectedHours hours) now (currentHour now) (seriesStart hours now)
      (store.buckets hours now)).seriesBytes direction =
        store.trafficBytes now direction (within (seriesStart hours now) (currentHour now)) ∧
    (buildReport (selectedHours hours) now (currentHour now) (seriesStart hours now)
      (store.buckets hours now)).devicesBytes direction =
        store.trafficBytes now direction (within (seriesStart hours now) (currentHour now)) := by
  have hrows := fun key => unsaturated.rows key direction
  have hseries := store.bytesSum_buckets representable hrows (series_in_window hours now)
  constructor
  · rw [hourly_sum, hseries]
    intro hour hstart hstop
    rw [store.bytesSum_buckets representable hrows]
    · exact unsaturated.points hour direction hstart hstop
    · intro k hk
      obtain ⟨hpast, hhour⟩ := ofHour_iff.mp hk
      apply series_in_window hours now k
      exact within_iff.mpr ⟨hhour ▸ hstart, Nat.not_lt.mp hpast⟩
  · rw [devices_sum, hseries]
    intro publicKey
    rw [store.bytesSum_buckets representable hrows]
    · exact unsaturated.devices publicKey direction
    · intro k hk
      exact series_in_window hours now k (within_iff.mpr (ofDevice_iff.mp hk).1)

end Sums

section Flush

variable {store : TrafficStore} {now : UInt64}

theorem oldestHour_le (hours : ℕ) (now : UInt64) : oldestHour now ≤ queryStart hours now := by
  have hselected := selectedHours_le hours
  rw [oldestHour, retentionHours, queryStart, seriesStart]
  omega

theorem fitsRow_of_mem (fits : FlushExact store now) {item : PendingTraffic}
    (hitem : item ∈ peekPending store.counters) :
    FitsRow item (store.database.lookup (itemKey (currentHour now) item)) := by
  intro direction
  rw [store.counterBytes_of_mem hitem]
  exact fits item.publicKey direction

theorem find_buckets {pending : List PendingTraffic} (h : (peekPending store.counters).Perm pending)
    (hours : ℕ) (now : UInt64) (k : ℕ × String) :
    KeyedList.find bucketKey (store.buckets hours now) k =
      KeyedList.find bucketKey (mergePending
        ((windowRows store.database (queryStart hours now) (currentHour now)).map rowBucket)
        (currentHour now) pending) k := by
  have hdistinct := peekPending_distinct store.counters
  have hdistinct' : KeyedList.Distinct PendingTraffic.publicKey pending :=
    (h.map _).nodup_iff.mp hdistinct
  rw [TrafficStore.buckets, find_mergePending hdistinct, find_mergePending hdistinct',
    KeyedList.find_perm (distinct_itemKey _ hdistinct) h]

theorem peekPending_emptied {counters counters' : HashMap String RegisteredCounter}
    (h : Left counters (fun _ _ => false) counters') : peekPending counters' = [] := by
  apply List.eq_nil_iff_forall_not_mem.mpr
  intro item hitem
  have hfind := (KeyedList.mem_iff_find (peekPending_distinct counters')).mp hitem
  rw [find_peekPending, taken, h item.publicKey] at hfind
  cases hfound : counters.lookup item.publicKey with
  | none =>
    rw [hfound] at hfind
    cases hfind
  | some registered =>
    rw [hfound] at hfind
    simp [peekCounter, RegisteredCounter.keep, DeviceTrafficCounter.load] at hfind

theorem peekPending_restored {counters counters' : HashMap String RegisteredCounter}
    (h : Left counters (fun _ _ => true) counters') :
    (peekPending counters').Perm (peekPending counters) := by
  apply KeyedList.perm_of_find (peekPending_distinct _) (peekPending_distinct _)
  intro key
  rw [find_peekPending, find_peekPending, taken, h key]
  cases hfound : counters.lookup key with
  | none => rw [taken, hfound]; rfl
  | some registered => rw [taken, hfound]; rfl

theorem FlushCall.sameReport (representable : store.database.Representable)
    (fits : FlushExact store now) {events : List Event} {ok : Bool}
    (call : FlushCall store now events ok) (hours : ℕ) :
    (store.run (.flushAt now :: events)).database.AllInteger ∧
      ∀ k, KeyedList.find bucketKey (store.buckets hours now) k =
        KeyedList.find bucketKey ((store.run (.flushAt now :: events)).buckets hours now) k := by
  have hholds := call.holds
  obtain ⟨after, hafter⟩ : ∃ after, store.run (.flushAt now :: events) = after := ⟨_, rfl⟩
  rw [hafter] at hholds ⊢
  cases ok with
  | false =>
    obtain ⟨hdatabase, hleft⟩ := hholds
    refine ⟨hdatabase ▸ representable.allInteger, ?_⟩
    intro k
    rw [find_buckets (peekPending_restored hleft), hdatabase]
    rfl
  | true =>
    obtain ⟨hleft, pending, hitems, hcases⟩ := hholds
    have hperm := hitems.perm
    have hempty : (peekPending after.counters).Perm [] := by rw [peekPending_emptied hleft]
    rcases hcases with ⟨rfl, hdatabase⟩ | hdatabase
    · refine ⟨hdatabase ▸ representable.allInteger, ?_⟩
      intro k
      rw [find_buckets hperm, find_buckets hempty, hdatabase]
    · have hfits : ∀ item ∈ pending,
          FitsRow item (store.database.lookup (itemKey (currentHour now) item)) :=
        fun item hitem => fitsRow_of_mem fits (hperm.mem_iff.mpr hitem)
      refine ⟨hdatabase ▸ persistPending_integer representable.allInteger hitems.distinct hfits, ?_⟩
      intro k
      rw [find_buckets hperm, find_buckets hempty, hdatabase]
      exact find_after_commit representable (queryStart_le hours now) (oldestHour_le hours now)
        hitems.distinct hfits k

end Flush

section Laws

variable {store : TrafficStore} {hours : ℕ} {now : UInt64}

theorem hourly_length (buckets : List TrafficBucket) :
    (buildReport (selectedHours hours) now (currentHour now) (seriesStart hours now)
      buckets).hourly.length = min (selectedHours hours) (currentHour now + 1) := by
  have hpositive := one_le_selectedHours hours
  rw [buildReport_eq]
  simp only
  rw [reportSums_hourly, List.length_map, List.length_range, seriesStart]
  omega

theorem hourly_hour {buckets : List TrafficBucket} {i : ℕ} {point : TrafficPoint}
    (h : (buildReport (selectedHours hours) now (currentHour now) (seriesStart hours now)
      buckets).hourly[i]? = some point) :
    point.hour = (seriesStart hours now + i) * secondsPerHour := by
  rw [buildReport_eq] at h
  simp only at h
  rw [reportSums_hourly, List.getElem?_map] at h
  obtain ⟨j, hj, rfl⟩ := Option.map_eq_some_iff.mp h
  obtain ⟨hlt, rfl⟩ := List.getElem?_eq_some_iff.mp hj
  rw [sumPoint_hour, List.getElem_range]

theorem totals_bytes (representable : store.database.Representable)
    (unsaturated : ReportExact store hours now) (direction : Direction)
    {report : TrafficReport} (h : report = buildReport (selectedHours hours) now (currentHour now)
      (seriesStart hours now) (store.buckets hours now)) :
    (report.hour.bytes direction).toNat =
        store.trafficBytes now direction (younger (currentHour now) 1) ∧
      (report.day.bytes direction).toNat =
        store.trafficBytes now direction (younger (currentHour now) 24) ∧
      (report.week.bytes direction).toNat =
        store.trafficBytes now direction (younger (currentHour now) 168) := by
  rw [h, buildReport_eq]
  simp only
  rw [reportSums_hour, reportSums_day, reportSums_week]
  exact ⟨young_bytes representable unsaturated (by decide) direction,
    young_bytes representable unsaturated (by decide) direction,
    young_bytes representable unsaturated (by decide) direction⟩

end Laws

theorem traffic_report_laws (store : TrafficStore) (hours : ℕ) (now : UInt64)
    (representable : store.database.Representable) :
    ∃ report, reportAt hours now store.database store.counters = some report ∧
      report.hourly.length = min (selectedHours hours) (currentHour now + 1) ∧
      (∀ i point, report.hourly[i]? = some point →
        point.hour = (seriesStart hours now + i) * secondsPerHour) ∧
      (ReportExact store hours now → ∀ direction,
        report.seriesBytes direction = report.devicesBytes direction ∧
        report.seriesBytes direction = store.trafficBytes now direction
          (within (seriesStart hours now) (currentHour now)) ∧
        (report.hour.bytes direction).toNat =
          store.trafficBytes now direction (younger (currentHour now) 1) ∧
        (report.day.bytes direction).toNat =
          store.trafficBytes now direction (younger (currentHour now) 24) ∧
        (report.week.bytes direction).toNat =
          store.trafficBytes now direction (younger (currentHour now) 168)) ∧
      (∃ events ok, FlushCall store now events ok) ∧
      (FlushExact store now → ∀ events ok, FlushCall store now events ok →
        ∃ after, reportAt hours now (store.run (.flushAt now :: events)).database
          (store.run (.flushAt now :: events)).counters = some after ∧
            SameReport report after) := by
  refine ⟨_, reportAt_eq representable.allInteger hours now, hourly_length _, ?_, ?_,
    exists_flushCall store now, ?_⟩
  · intro i point hpoint
    exact hourly_hour hpoint
  · intro unsaturated direction
    obtain ⟨hseries, hdevices⟩ := series_bytes representable unsaturated direction
    exact ⟨hseries.trans hdevices.symm, hseries,
      totals_bytes representable unsaturated direction rfl⟩
  · intro fits events ok call
    obtain ⟨hinteger, hfind⟩ := call.sameReport representable fits hours
    exact ⟨_, reportAt_eq hinteger hours now,
      sameReport_of_find (store.buckets_table hours now) (TrafficStore.buckets_table _ hours now)
        hfind _ _ _⟩

def recordedStore : TrafficStore :=
  ⟨AList.insert (1, "a") ⟨"phone", .integer 100, .integer 200⟩ ∅,
    AList.insert "a" ⟨"phone", ⟨5, 7⟩⟩ ∅, []⟩

def recordedFlush : List Event := [.swapUpload 0 "a", .swapDownload 0, .transaction 0 true]

theorem recordedStore_rows (publicKey : String) (direction : Direction) :
    recordedStore.database.rowBytes 2 publicKey direction +
      recordedStore.counterBytes (publicKey, direction) ≤ 7 := by
  have hrow : recordedStore.database.rowBytes 2 publicKey direction = 0 := by
    rw [Database.rowBytes, recordedStore, HashMap.lookup_insert_ite, if_neg]
    · rfl
    · intro h
      exact absurd (Prod.mk.inj h).1 (by decide)
  rw [hrow, TrafficStore.counterBytes, recordedStore, HashMap.lookup_insert_ite]
  by_cases hkey : publicKey = "a"
  · subst hkey
    cases direction <;> decide
  · rw [if_neg hkey]
    exact Nat.zero_le _

theorem recordedStore_bytes (direction : Direction) (p : ℕ × String → Bool) :
    recordedStore.trafficBytes 7200 direction p ≤ 207 := by
  refine Nat.le_trans (recordedStore.trafficBytes_mono 7200 direction (q := fun _ => true) ?_) ?_
  · exact fun _ _ => rfl
  · cases direction <;> decide

theorem traffic_report_laws_recorded :
    ReportExact recordedStore 24 7200 ∧ FlushExact recordedStore 7200 ∧
      FlushCall recordedStore 7200 recordedFlush true ∧
      ∃ report, reportAt 24 7200 recordedStore.database recordedStore.counters = some report ∧
        report.seriesBytes .upload = 105 ∧ report.devicesBytes .upload = 105 ∧
        ∃ after, reportAt 24 7200 (recordedStore.run (.flushAt 7200 :: recordedFlush)).database
          (recordedStore.run (.flushAt 7200 :: recordedFlush)).counters = some after ∧
            SameReport report after := by
  have hrepresentable : recordedStore.database.Representable := by
    intro k row found direction
    rw [recordedStore, HashMap.lookup_insert_ite] at found
    split_ifs at found
    · rw [← Option.some.inj found]
      cases direction <;> decide
    · cases found
  have hreport : ReportExact recordedStore 24 7200 := by
    refine ⟨?_, ?_, ?_, ?_⟩
    · intro publicKey direction
      exact Nat.lt_of_le_of_lt (recordedStore_rows publicKey direction) (by decide)
    · intro direction
      exact Nat.lt_of_le_of_lt (recordedStore_bytes direction _) (by decide)
    · intro hour direction _ _
      exact Nat.lt_of_le_of_lt (recordedStore_bytes direction _) (by decide)
    · intro publicKey direction
      exact Nat.lt_of_le_of_lt (recordedStore_bytes direction _) (by decide)
  have hflush : FlushExact recordedStore 7200 := by
    intro publicKey direction
    exact Nat.lt_of_le_of_lt (recordedStore_rows publicKey direction) (by decide)
  have hcall : FlushCall recordedStore 7200 recordedFlush true := ⟨by decide, by decide⟩
  obtain ⟨report, heq, -, -, hsums, -, hsame⟩ :=
    traffic_report_laws recordedStore 24 7200 hrepresentable
  obtain ⟨hdevices, hseries, -⟩ := hsums hreport .upload
  have htotal : recordedStore.trafficBytes 7200 .upload
      (within (seriesStart 24 7200) (currentHour 7200)) = 105 := by decide
  exact ⟨hreport, hflush, hcall, report, heq, hseries.trans htotal,
    hdevices.symm.trans (hseries.trans htotal), hsame hflush recordedFlush true hcall⟩

end MouseVpn.AdminApi
