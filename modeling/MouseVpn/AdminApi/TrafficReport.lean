import MouseVpn.AdminApi.TrafficBytes

/-!
# Traffic reports

`report_at` loads the rows of its window, then reads the counters, and adds the counters to the
bucket of the current hour. `build_report` sums the buckets by hour, by period and by device.
-/

namespace MouseVpn.AdminApi

open MouseVpn.Lib

def maxQueryHours : ℕ := 24 * 31

def saturatingAdd (a b : UInt64) : UInt64 :=
  if a.toNat + b.toNat < 2 ^ 64 then a + b else UInt64.ofNat (2 ^ 64 - 1)

theorem saturatingAdd_toNat {a b : UInt64} (h : a.toNat + b.toNat < 2 ^ 64) :
    (saturatingAdd a b).toNat = a.toNat + b.toNat := by
  rw [saturatingAdd, if_pos h, UInt64.toNat_add, Nat.mod_eq_of_lt h]

def fromSqlInteger (value : ℕ) : UInt64 := UInt64.ofNat value

structure TrafficBucket where
  hour : ℕ
  publicKey : String
  name : String
  uploadBytes : UInt64
  downloadBytes : UInt64
  deriving DecidableEq, Repr

def TrafficBucket.bytes (bucket : TrafficBucket) : Direction → UInt64
  | .upload => bucket.uploadBytes
  | .download => bucket.downloadBytes

structure TrafficTotals where
  uploadBytes : UInt64
  downloadBytes : UInt64
  deriving DecidableEq, Repr

def TrafficTotals.add (totals other : TrafficTotals) : TrafficTotals :=
  ⟨saturatingAdd totals.uploadBytes other.uploadBytes,
    saturatingAdd totals.downloadBytes other.downloadBytes⟩

structure TrafficPoint where
  hour : ℕ
  uploadBytes : UInt64
  downloadBytes : UInt64
  deriving DecidableEq, Repr

def TrafficPoint.add (point : TrafficPoint) (totals : TrafficTotals) : TrafficPoint :=
  { point with
    uploadBytes := saturatingAdd point.uploadBytes totals.uploadBytes
    downloadBytes := saturatingAdd point.downloadBytes totals.downloadBytes }

structure DeviceTrafficSummary where
  publicKey : String
  name : String
  uploadBytes : UInt64
  downloadBytes : UInt64
  deriving DecidableEq, Repr

def DeviceTrafficSummary.bytes (summary : DeviceTrafficSummary) : Direction → UInt64
  | .upload => summary.uploadBytes
  | .download => summary.downloadBytes

def DeviceTrafficSummary.totalBytes (summary : DeviceTrafficSummary) : UInt64 :=
  saturatingAdd summary.uploadBytes summary.downloadBytes

structure TrafficReport where
  generatedAt : UInt64
  selectedHours : ℕ
  hour : TrafficTotals
  day : TrafficTotals
  week : TrafficTotals
  hourly : List TrafficPoint
  devices : List DeviceTrafficSummary
  deriving DecidableEq, Repr

def bucketOf (key : ℕ × String) (row : Row) : Option TrafficBucket :=
  match row.uploadBytes, row.downloadBytes with
  | .integer upload, .integer download =>
    some ⟨key.1, key.2, row.name, fromSqlInteger upload, fromSqlInteger download⟩
  | _, _ => none

def loadBuckets (database : Database) (start stop : ℕ) : Option (List TrafficBucket) :=
  ((database.entries.filter fun entry =>
      decide (start ≤ entry.1.1) && decide (entry.1.1 ≤ stop)).mergeSort fun a b =>
        decide (a.1.1 ≤ b.1.1)).mapM fun entry => bucketOf entry.1 entry.2

def peekCounter (entry : Σ _ : String, RegisteredCounter) : Option PendingTraffic :=
  let uploadBytes := entry.2.counter.load .upload
  let downloadBytes := entry.2.counter.load .download
  if uploadBytes = 0 ∧ downloadBytes = 0 then none
  else some ⟨entry.1, entry.2.name, uploadBytes, downloadBytes⟩

def peekPending (counters : HashMap String RegisteredCounter) : List PendingTraffic :=
  counters.entries.filterMap peekCounter

def TrafficBucket.merge (bucket : TrafficBucket) (item : PendingTraffic) : TrafficBucket :=
  { bucket with
    name := item.name
    uploadBytes := saturatingAdd bucket.uploadBytes item.uploadBytes
    downloadBytes := saturatingAdd bucket.downloadBytes item.downloadBytes }

def mergeItem (hour : ℕ) (item : PendingTraffic) : List TrafficBucket → List TrafficBucket
  | [] => [⟨hour, item.publicKey, item.name, item.uploadBytes, item.downloadBytes⟩]
  | bucket :: buckets =>
    if bucket.hour = hour ∧ bucket.publicKey = item.publicKey then bucket.merge item :: buckets
    else bucket :: mergeItem hour item buckets

def mergePending (buckets : List TrafficBucket) (hour : ℕ) (pending : List PendingTraffic) :
    List TrafficBucket :=
  pending.foldl (fun buckets item => mergeItem hour item buckets) buckets

structure ReportSums where
  hourly : List TrafficPoint
  devices : HashMap String DeviceTrafficSummary
  hour : TrafficTotals
  day : TrafficTotals
  week : TrafficTotals

def DeviceTrafficSummary.add (device : DeviceTrafficSummary) (bucket : TrafficBucket) :
    DeviceTrafficSummary :=
  { device with
    name := bucket.name
    uploadBytes := saturatingAdd device.uploadBytes bucket.uploadBytes
    downloadBytes := saturatingAdd device.downloadBytes bucket.downloadBytes }

def addToDevice (bucket : TrafficBucket) (devices : HashMap String DeviceTrafficSummary) :
    HashMap String DeviceTrafficSummary :=
  let device := (devices.lookup bucket.publicKey).getD ⟨bucket.publicKey, bucket.name, 0, 0⟩
  devices.insert bucket.publicKey (device.add bucket)

def ReportSums.addBucket (currentHour seriesStart : ℕ) (sums : ReportSums)
    (bucket : TrafficBucket) : ReportSums :=
  if currentHour < bucket.hour then sums
  else
    let age := currentHour - bucket.hour
    let totals : TrafficTotals := ⟨bucket.uploadBytes, bucket.downloadBytes⟩
    let inSeries := seriesStart ≤ bucket.hour
    { week := if age < 168 then sums.week.add totals else sums.week
      day := if age < 24 then sums.day.add totals else sums.day
      hour := if age = 0 then sums.hour.add totals else sums.hour
      hourly :=
        if inSeries then
          sums.hourly.modify (bucket.hour - seriesStart) fun point => point.add totals
        else sums.hourly
      devices := if inSeries then addToDevice bucket sums.devices else sums.devices }

def ReportSums.start (currentHour seriesStart : ℕ) : ReportSums where
  hourly := (List.range (currentHour + 1 - seriesStart)).map fun index =>
    ⟨(seriesStart + index) * secondsPerHour, 0, 0⟩
  devices := ∅
  hour := ⟨0, 0⟩
  day := ⟨0, 0⟩
  week := ⟨0, 0⟩

def reportsBefore (left right : DeviceTrafficSummary) : Bool :=
  decide (right.totalBytes < left.totalBytes) ||
    (decide (left.totalBytes = right.totalBytes) && decide (left.name ≤ right.name))

def buildReport (hours : ℕ) (now : UInt64) (currentHour seriesStart : ℕ)
    (buckets : List TrafficBucket) : TrafficReport :=
  let sums := buckets.foldl (fun sums bucket => sums.addBucket currentHour seriesStart bucket)
    (ReportSums.start currentHour seriesStart)
  ⟨now, hours, sums.hour, sums.day, sums.week, sums.hourly,
    sums.devices.values.mergeSort reportsBefore⟩

def selectedHours (hours : ℕ) : ℕ := max 1 (min hours maxQueryHours)

def seriesStart (hours : ℕ) (now : UInt64) : ℕ := currentHour now - (selectedHours hours - 1)

def queryStart (hours : ℕ) (now : UInt64) : ℕ :=
  min (seriesStart hours now) (currentHour now - 167)

/-- `report_at`, with the database at the time of `load_buckets` and the counters at the time
of `peek_pending`. -/
def reportAt (hours : ℕ) (now : UInt64) (loaded : Database)
    (peeked : HashMap String RegisteredCounter) : Option TrafficReport := do
  let buckets ← loadBuckets loaded (queryStart hours now) (currentHour now)
  return buildReport (selectedHours hours) now (currentHour now) (seriesStart hours now)
    (mergePending buckets (currentHour now) (peekPending peeked))

def inSeries (hours : ℕ) (now : UInt64) (hour : ℕ) : Bool :=
  decide (seriesStart hours now ≤ hour) && decide (hour ≤ currentHour now)

def TrafficReport.deviceBytes (report : TrafficReport) (account : Account) : ℕ :=
  (report.devices.map fun summary =>
    if summary.publicKey = account.1 then (summary.bytes account.2).toNat else 0).sum

end MouseVpn.AdminApi
