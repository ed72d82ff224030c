import MouseVpn.Lib.HashMap
import MouseVpn.Lib.Machine

/-!
# The traffic store

Devices count their bytes in atomic counters. A flush empties the counters into a list, writes
the list to the hourly history in one transaction, and adds it back to the counters if that
fails. A swap or an addition on one counter, the transaction, and the registration of a device
are single steps, and the steps of packet threads and of any number of flushes interleave.
-/

namespace MouseVpn.AdminApi

open MouseVpn.Lib

def secondsPerHour : ℕ := 3600

def retentionHours : ℕ := 24 * 400

def currentHour (now : UInt64) : ℕ := now.toNat / secondsPerHour

def oldestHour (now : UInt64) : ℕ := currentHour now - retentionHours

inductive Direction
  | upload
  | download
  deriving DecidableEq, Repr

structure DeviceTrafficCounter where
  uploadBytes : UInt64
  downloadBytes : UInt64
  deriving DecidableEq, Repr

namespace DeviceTrafficCounter

def default : DeviceTrafficCounter := ⟨0, 0⟩

def load (counter : DeviceTrafficCounter) : Direction → UInt64
  | .upload => counter.uploadBytes
  | .download => counter.downloadBytes

def store (counter : DeviceTrafficCounter) (value : UInt64) : Direction → DeviceTrafficCounter
  | .upload => { counter with uploadBytes := value }
  | .download => { counter with downloadBytes := value }

def fetchAdd (counter : DeviceTrafficCounter) (bytes : UInt64) (direction : Direction) :
    DeviceTrafficCounter :=
  counter.store (counter.load direction + bytes) direction

end DeviceTrafficCounter

structure RegisteredCounter where
  name : String
  counter : DeviceTrafficCounter
  deriving DecidableEq, Repr

structure PendingTraffic where
  publicKey : String
  name : String
  uploadBytes : UInt64
  downloadBytes : UInt64
  deriving DecidableEq, Repr

def PendingTraffic.bytes (item : PendingTraffic) : Direction → UInt64
  | .upload => item.uploadBytes
  | .download => item.downloadBytes

/-- A value of a column that is checked not to be negative. SQLite turns an integer sum that
overflows into a floating-point number. -/
inductive SqlNumber
  | integer (value : ℕ)
  | real
  deriving DecidableEq, Repr

namespace SqlNumber

def add : SqlNumber → SqlNumber → SqlNumber
  | integer a, integer b => if a + b < 2 ^ 63 then integer (a + b) else real
  | _, _ => real

def value : SqlNumber → ℕ
  | integer value => value
  | real => 0

def isInteger : SqlNumber → Bool
  | integer _ => true
  | real => false

end SqlNumber

def toSqlInteger (value : UInt64) : ℕ :=
  if value.toNat < 2 ^ 63 then value.toNat else 2 ^ 63 - 1

structure Row where
  name : String
  uploadBytes : SqlNumber
  downloadBytes : SqlNumber
  deriving DecidableEq, Repr

def Row.bytes (row : Row) : Direction → SqlNumber
  | .upload => row.uploadBytes
  | .download => row.downloadBytes

/-- The table `traffic_hourly`, by its primary key of hour and public key. -/
abbrev Database := HashMap (ℕ × String) Row

namespace Database

def upsert (database : Database) (hour : ℕ) (item : PendingTraffic) : Database :=
  let excluded : Row :=
    ⟨item.name, .integer (toSqlInteger item.uploadBytes),
      .integer (toSqlInteger item.downloadBytes)⟩
  match database.lookup (hour, item.publicKey) with
  | none => database.insert (hour, item.publicKey) excluded
  | some row =>
    database.insert (hour, item.publicKey) ⟨excluded.name,
      row.uploadBytes.add excluded.uploadBytes, row.downloadBytes.add excluded.downloadBytes⟩

def deleteBefore (database : Database) (oldest : ℕ) : Database :=
  HashMap.retain (fun key _ => decide (oldest ≤ key.1)) database

def persistPending (database : Database) (currentHour oldest : ℕ) (pending : List PendingTraffic) :
    Database :=
  deleteBefore
    (pending.foldl (fun database item => database.upsert currentHour item) database) oldest

end Database

inductive FlushPhase
  /-- `take_pending` is between two devices. -/
  | taking (remaining : List String) (pending : List PendingTraffic)
  /-- `take_pending` has swapped the upload counter of a device. -/
  | takenUpload (publicKey : String) (uploadBytes : UInt64) (remaining : List String)
      (pending : List PendingTraffic)
  | persisting (pending : List PendingTraffic)
  /-- `restore_pending` is between two devices. -/
  | restoring (item : PendingTraffic) (items : List PendingTraffic)
  | restoredUpload (item : PendingTraffic) (items : List PendingTraffic)
  | returned (ok : Bool)
  deriving DecidableEq, Repr

structure Flush where
  now : UInt64
  phase : FlushPhase
  deriving DecidableEq, Repr

structure TrafficStore where
  database : Database
  counters : HashMap String RegisteredCounter
  flushes : List Flush

inductive Event
  /-- `counter`, which registers a device or renames it. -/
  | counter (publicKey name : String)
  | addUpload (publicKey : String) (bytes : UInt64)
  | addDownload (publicKey : String) (bytes : UInt64)
  | flushAt (now : UInt64)
  /-- The next device of a `take_pending`, in an order which the hash map chooses. -/
  | swapUpload (flush : ℕ) (publicKey : String)
  | swapDownload (flush : ℕ)
  | transaction (flush : ℕ) (ok : Bool)
  | restoreUpload (flush : ℕ)
  | restoreDownload (flush : ℕ)

namespace TrafficStore

/-- The store that `open` makes of a database. -/
def opened (database : Database) : TrafficStore := ⟨database, ∅, []⟩

def setCounter (store : TrafficStore) (publicKey : String) (registered : RegisteredCounter) :
    TrafficStore :=
  { store with counters := store.counters.insert publicKey registered }

def setPhase (store : TrafficStore) (i : ℕ) (phase : FlushPhase) : TrafficStore :=
  { store with flushes := store.flushes.modify i fun flush => { flush with phase := phase } }

def counter (store : TrafficStore) (publicKey name : String) : TrafficStore :=
  match store.counters.lookup publicKey with
  | some registered => store.setCounter publicKey { registered with name := name }
  | none => store.setCounter publicKey ⟨name, .default⟩

/-- An addition to the counter that `counter` has returned for the device. -/
def add (store : TrafficStore) (publicKey : String) (bytes : UInt64) (direction : Direction) :
    TrafficStore :=
  match store.counters.lookup publicKey with
  | none => store
  | some registered =>
    store.setCounter publicKey
      { registered with counter := registered.counter.fetchAdd bytes direction }

def afterDevice (remaining : List String) (pending : List PendingTraffic) : FlushPhase :=
  if remaining = [] then if pending = [] then .returned true else .persisting pending
  else .taking remaining pending

def afterRestore : List PendingTraffic → FlushPhase
  | [] => .returned false
  | item :: items => .restoring item items

def flushAt (store : TrafficStore) (now : UInt64) : TrafficStore :=
  { store with flushes := store.flushes ++ [⟨now, afterDevice store.counters.keys []⟩] }

def takeUpload (store : TrafficStore) (i : ℕ) (publicKey : String) (remaining : List String)
    (pending : List PendingTraffic) : TrafficStore :=
  match store.counters.lookup publicKey with
  | none => store
  | some registered =>
    (store.setCounter publicKey
      { registered with counter := registered.counter.store 0 .upload }).setPhase i
        (.takenUpload publicKey (registered.counter.load .upload) (remaining.erase publicKey)
          pending)

def takeDownload (store : TrafficStore) (i : ℕ) (publicKey : String) (uploadBytes : UInt64)
    (remaining : List String) (pending : List PendingTraffic) : TrafficStore :=
  match store.counters.lookup publicKey with
  | none => store
  | some registered =>
    let downloadBytes := registered.counter.load .download
    let pending :=
      if uploadBytes = 0 ∧ downloadBytes = 0 then pending
      else pending ++ [⟨publicKey, registered.name, uploadBytes, downloadBytes⟩]
    (store.setCounter publicKey
      { registered with counter := registered.counter.store 0 .download }).setPhase i
        (afterDevice remaining pending)

def swapUpload (store : TrafficStore) (i : ℕ) (publicKey : String) : TrafficStore :=
  match store.flushes[i]? with
  | some ⟨_, .taking remaining pending⟩ =>
    if publicKey ∈ remaining then store.takeUpload i publicKey remaining pending else store
  | _ => store

def swapDownload (store : TrafficStore) (i : ℕ) : TrafficStore :=
  match store.flushes[i]? with
  | some ⟨_, .takenUpload publicKey uploadBytes remaining pending⟩ =>
    store.takeDownload i publicKey uploadBytes remaining pending
  | _ => store

def commit (store : TrafficStore) (i : ℕ) (now : UInt64) (pending : List PendingTraffic) :
    TrafficStore :=
  setPhase { store with
    database := store.database.persistPending (currentHour now) (oldestHour now) pending } i
      (.returned true)

def transaction (store : TrafficStore) (i : ℕ) (ok : Bool) : TrafficStore :=
  match store.flushes[i]? with
  | some ⟨now, .persisting pending⟩ =>
    if ok then store.commit i now pending
    else store.setPhase i (afterRestore pending)
  | _ => store

def restoreUpload (store : TrafficStore) (i : ℕ) : TrafficStore :=
  match store.flushes[i]? with
  | some ⟨_, .restoring item items⟩ =>
    ((store.counter item.publicKey item.name).add item.publicKey item.uploadBytes .upload).setPhase
      i
      (.restoredUpload item items)
  | _ => store

def restoreDownload (store : TrafficStore) (i : ℕ) : TrafficStore :=
  match store.flushes[i]? with
  | some ⟨_, .restoredUpload item items⟩ =>
    (store.add item.publicKey item.downloadBytes .download).setPhase i (afterRestore items)
  | _ => store

def step (store : TrafficStore) : Event → TrafficStore × Unit
  | .counter publicKey name => (store.counter publicKey name, ())
  | .addUpload publicKey bytes => (store.add publicKey bytes .upload, ())
  | .addDownload publicKey bytes => (store.add publicKey bytes .download, ())
  | .flushAt now => (store.flushAt now, ())
  | .swapUpload i publicKey => (store.swapUpload i publicKey, ())
  | .swapDownload i => (store.swapDownload i, ())
  | .transaction i ok => (store.transaction i ok, ())
  | .restoreUpload i => (store.restoreUpload i, ())
  | .restoreDownload i => (store.restoreDownload i, ())

def run (store : TrafficStore) (events : List Event) : TrafficStore := Machine.run step store events

end TrafficStore

abbrev Account := String × Direction

def pendingBytes (pending : List PendingTraffic) (account : Account) : ℕ :=
  (pending.map fun item =>
    if item.publicKey = account.1 then (item.bytes account.2).toNat else 0).sum

def FlushPhase.bytes (account : Account) : FlushPhase → ℕ
  | .taking _ pending => pendingBytes pending account
  | .takenUpload publicKey uploadBytes _ pending =>
    (if (publicKey, Direction.upload) = account then uploadBytes.toNat else 0) +
      pendingBytes pending account
  | .persisting pending => pendingBytes pending account
  | .restoring item items => pendingBytes (item :: items) account
  | .restoredUpload item items =>
    (if (item.publicKey, Direction.download) = account then item.downloadBytes.toNat else 0) +
      pendingBytes items account
  | .returned _ => 0

def Database.storedBytes (database : Database) (hours : ℕ → Bool) (account : Account) : ℕ :=
  HashMap.sum (fun key row =>
    if key.2 = account.1 ∧ hours key.1 = true then (row.bytes account.2).value else 0) database

namespace TrafficStore

def storedBytes (store : TrafficStore) (account : Account) : ℕ :=
  store.database.storedBytes (fun _ => true) account

def counterBytes (store : TrafficStore) (account : Account) : ℕ :=
  match store.counters.lookup account.1 with
  | none => 0
  | some registered => (registered.counter.load account.2).toNat

def inFlightBytes (store : TrafficStore) (account : Account) : ℕ :=
  (store.flushes.map fun flush => flush.phase.bytes account).sum

def addedBy (store : TrafficStore) (event : Event) (account : Account) : ℕ :=
  match event with
  | .addUpload publicKey bytes =>
    if (publicKey, Direction.upload) = account ∧ publicKey ∈ store.counters then bytes.toNat else 0
  | .addDownload publicKey bytes =>
    if (publicKey, Direction.download) = account ∧ publicKey ∈ store.counters then bytes.toNat
    else 0
  | _ => 0

def addedBytes (store : TrafficStore) (events : List Event) (account : Account) : ℕ :=
  (Machine.observe step (fun store event => store.addedBy event account) store events).sum

def NothingExpires (store : TrafficStore) (events : List Event) : Prop :=
  ∀ past i rest now pending, events = past ++ .transaction i true :: rest →
    (store.run past).flushes[i]? = some ⟨now, .persisting pending⟩ →
    ∀ key ∈ (store.run past).database, oldestHour now ≤ key.1

end TrafficStore

end MouseVpn.AdminApi
