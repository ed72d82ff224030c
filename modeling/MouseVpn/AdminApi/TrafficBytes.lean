import MouseVpn.AdminApi.Traffic

/-!
# What the operations of the traffic store do to its numbers

Under bounds that exclude the overflow of a counter and of an SQL sum.
-/

namespace MouseVpn.AdminApi

open MouseVpn.Lib

namespace DeviceTrafficCounter

theorem load_store (counter : DeviceTrafficCounter) (value : UInt64) (direction other : Direction) :
    (counter.store value direction).load other =
      if direction = other then value else counter.load other := by
  cases direction <;> cases other <;> rfl

end DeviceTrafficCounter

theorem pendingBytes_cons (item : PendingTraffic) (items : List PendingTraffic)
    (account : Account) :
    pendingBytes (item :: items) account =
      (if item.publicKey = account.1 then (item.bytes account.2).toNat else 0) +
        pendingBytes items account := by
  rw [pendingBytes, List.map_cons, List.sum_cons]
  rfl

theorem pendingBytes_append (pending more : List PendingTraffic) (account : Account) :
    pendingBytes (pending ++ more) account =
      pendingBytes pending account + pendingBytes more account := by
  rw [pendingBytes, List.map_append, List.sum_append]
  rfl

theorem pendingBytes_eq_zero {pending : List PendingTraffic} {account : Account}
    (h : account.1 ∉ pending.map PendingTraffic.publicKey) : pendingBytes pending account = 0 := by
  induction pending with
  | nil => rfl
  | cons item items ih =>
    rw [List.map_cons, List.mem_cons, not_or] at h
    rw [pendingBytes_cons, if_neg (Ne.symm h.1), ih h.2]

namespace TrafficStore

variable {store : TrafficStore} {publicKey name : String} {registered : RegisteredCounter}
  {direction : Direction} {bytes : UInt64} {i : ℕ} {flush : Flush}

def flightBytes (store : TrafficStore) (i : ℕ) (account : Account) : ℕ :=
  match store.flushes[i]? with
  | none => 0
  | some flush => flush.phase.bytes account

theorem counterBytes_setCounter (account : Account) :
    (store.setCounter publicKey registered).counterBytes account =
      if account.1 = publicKey then (registered.counter.load account.2).toNat
      else store.counterBytes account := by
  rw [counterBytes, setCounter, HashMap.lookup_insert_ite]
  split_ifs <;> rfl

theorem counterBytes_of_lookup (found : store.counters.lookup publicKey = some registered)
    (direction : Direction) :
    store.counterBytes (publicKey, direction) = (registered.counter.load direction).toNat := by
  rw [counterBytes, found]

theorem counterBytes_store (found : store.counters.lookup publicKey = some registered)
    (value : UInt64) (account : Account) :
    (store.setCounter publicKey
        { registered with
          counter := registered.counter.store value direction }).counterBytes account =
      if (publicKey, direction) = account then value.toNat else store.counterBytes account := by
  obtain ⟨key, other⟩ := account
  rw [counterBytes_setCounter, DeviceTrafficCounter.load_store]
  by_cases hkey : key = publicKey
  · subst hkey
    rw [counterBytes_of_lookup found]
    by_cases hdir : direction = other
    · simp [hdir]
    · simp [hdir]
  · simp [hkey, Ne.symm hkey]

theorem counterBytes_counter (account : Account) :
    (store.counter publicKey name).counterBytes account = store.counterBytes account := by
  rw [counter]
  split
  case h_1 registered found =>
    rw [counterBytes_setCounter]
    split_ifs with h
    · rw [counterBytes, h, found]
    · rfl
  case h_2 missing =>
    rw [counterBytes_setCounter]
    split_ifs with h
    · rw [counterBytes, h, missing]
      cases account.2 <;> rfl
    · rfl

theorem counterBytes_add (known : publicKey ∈ store.counters)
    (fits : store.counterBytes (publicKey, direction) + bytes.toNat < 2 ^ 64) (account : Account) :
    (store.add publicKey bytes direction).counterBytes account =
      store.counterBytes account + if (publicKey, direction) = account then bytes.toNat else 0 := by
  obtain ⟨registered, found⟩ := Option.isSome_iff_exists.1 (AList.lookup_isSome.2 known)
  rw [counterBytes_of_lookup found] at fits
  simp only [add, found, DeviceTrafficCounter.fetchAdd]
  rw [counterBytes_store found]
  split_ifs with h
  · rw [← h, counterBytes_of_lookup found, UInt64.toNat_add, Nat.mod_eq_of_lt fits]
  · rfl

theorem flightBytes_setPhase (found : store.flushes[i]? = some flush) (phase : FlushPhase) (j : ℕ)
    (account : Account) :
    (store.setPhase i phase).flightBytes j account =
      if i = j then phase.bytes account else store.flightBytes j account := by
  rw [flightBytes, setPhase, List.getElem?_modify]
  by_cases h : i = j
  · subst h
    simp [found]
  · simp only [h, if_false, flightBytes]
    cases store.flushes[j]? <;> rfl

theorem flightBytes_of_found (found : store.flushes[i]? = some flush) (account : Account) :
    store.flightBytes i account = flush.phase.bytes account := by
  rw [flightBytes, found]

theorem flightBytes_eq_zero {i : ℕ} (h : store.flushes.length ≤ i) (account : Account) :
    store.flightBytes i account = 0 := by
  rw [flightBytes, List.getElem?_eq_none h]

theorem flightBytes_flushAt (now : UInt64) (j : ℕ) (account : Account) :
    (store.flushAt now).flightBytes j account = store.flightBytes j account := by
  rcases Nat.lt_trichotomy j store.flushes.length with h | h | h
  · rw [flightBytes, flushAt, List.getElem?_append_left h]
    rfl
  · rw [flightBytes_eq_zero (Nat.le_of_eq h.symm), flightBytes, flushAt, h,
      List.getElem?_concat_length, afterDevice]
    split_ifs <;> rfl
  · rw [flightBytes_eq_zero (Nat.le_of_lt h), flightBytes_eq_zero]
    rw [flushAt, List.length_append]
    exact h

theorem counter_flushes : (store.counter publicKey name).flushes = store.flushes := by
  rw [counter]
  split <;> rfl

theorem counter_database : (store.counter publicKey name).database = store.database := by
  rw [counter]
  split <;> rfl

theorem add_flushes : (store.add publicKey bytes direction).flushes = store.flushes := by
  rw [add]
  split <;> rfl

theorem add_database : (store.add publicKey bytes direction).database = store.database := by
  rw [add]
  split <;> rfl

theorem mem_counter {key : String} (h : key ∈ store.counters) :
    key ∈ (store.counter publicKey name).counters := by
  rw [counter]
  split <;> exact AList.mem_insert _ |>.2 (.inr h)

theorem mem_counter_self : publicKey ∈ (store.counter publicKey name).counters := by
  rw [counter]
  split <;> exact AList.mem_insert _ |>.2 (.inl rfl)

theorem mem_add {key : String} (h : key ∈ store.counters) :
    key ∈ (store.add publicKey bytes direction).counters := by
  rw [add]
  split
  · exact h
  · exact AList.mem_insert _ |>.2 (.inr h)

end TrafficStore

namespace Database

variable {database : Database}

def AllInteger (database : Database) : Prop :=
  ∀ key row, database.lookup key = some row → ∀ direction, (row.bytes direction).isInteger = true

theorem toSqlInteger_eq {value : UInt64} (h : value.toNat < 2 ^ 63) :
    toSqlInteger value = value.toNat :=
  if_pos h

theorem value_add {a : SqlNumber} {b : ℕ} (h : a.isInteger = true) (fits : a.value + b < 2 ^ 63) :
    (a.add (.integer b)).isInteger = true ∧ (a.add (.integer b)).value = a.value + b := by
  cases a with
  | integer value =>
    rw [SqlNumber.value] at fits
    rw [SqlNumber.add, if_pos fits]
    exact ⟨rfl, rfl⟩
  | real => exact Bool.noConfusion h

variable (hour : ℕ) {item : PendingTraffic}

def rowBytes (database : Database) (hour : ℕ) (publicKey : String) (direction : Direction) : ℕ :=
  (database.lookup (hour, publicKey)).elim 0 fun row => (row.bytes direction).value

theorem rowBytes_le (database : Database) (hour : ℕ) (publicKey : String) (direction : Direction) :
    database.rowBytes hour publicKey direction ≤
      database.storedBytes (fun _ => true) (publicKey, direction) := by
  have h := HashMap.found_le_sum (fun key row =>
    if key.2 = publicKey ∧ true = true then (Row.bytes row direction).value else 0) database
    (hour, publicKey)
  simpa [HashMap.found, rowBytes, storedBytes] using h

theorem upsert_eq (integer : database.AllInteger)
    (fits : ∀ direction, database.storedBytes (fun _ => true) (item.publicKey, direction) +
      (item.bytes direction).toNat < 2 ^ 63) :
    ∃ row, database.upsert hour item = AList.insert (hour, item.publicKey) row database ∧
      ∀ direction, (row.bytes direction).isInteger = true ∧ (row.bytes direction).value =
        database.rowBytes hour item.publicKey direction + (item.bytes direction).toNat := by
  have hsql : ∀ direction, toSqlInteger (item.bytes direction) = (item.bytes direction).toNat := by
    intro direction
    exact toSqlInteger_eq (Nat.lt_of_le_of_lt (Nat.le_add_left _ _) (fits direction))
  rw [upsert]
  split
  case h_1 missing =>
    refine ⟨_, rfl, ?_⟩
    intro direction
    rw [rowBytes, missing]
    cases direction with
    | upload => exact ⟨rfl, (hsql .upload).trans (Nat.zero_add _).symm⟩
    | download => exact ⟨rfl, (hsql .download).trans (Nat.zero_add _).symm⟩
  case h_2 row found =>
    refine ⟨_, rfl, ?_⟩
    intro direction
    have hle := rowBytes_le database hour item.publicKey direction
    have hinteger := integer _ row found direction
    rw [rowBytes, found, Option.elim_some] at hle ⊢
    have hsum : (row.bytes direction).value + toSqlInteger (item.bytes direction) < 2 ^ 63 := by
      have hfits := fits direction
      rw [hsql]
      omega
    rw [← hsql]
    cases direction with
    | upload => exact value_add hinteger hsum
    | download => exact value_add hinteger hsum

theorem upsert_integer (integer : database.AllInteger)
    (fits : ∀ direction, database.storedBytes (fun _ => true) (item.publicKey, direction) +
      (item.bytes direction).toNat < 2 ^ 63) : (database.upsert hour item).AllInteger := by
  obtain ⟨row, heq, hrow⟩ := upsert_eq hour integer fits
  intro key found hlookup direction
  rw [heq, HashMap.lookup_insert_ite] at hlookup
  split_ifs at hlookup with hkey
  · rw [← Option.some.inj hlookup]
    exact (hrow direction).1
  · exact integer key found hlookup direction

theorem storedBytes_upsert (integer : database.AllInteger)
    (fits : ∀ direction, database.storedBytes (fun _ => true) (item.publicKey, direction) +
      (item.bytes direction).toNat < 2 ^ 63) (hours : ℕ → Bool) (account : Account) :
    (database.upsert hour item).storedBytes hours account = database.storedBytes hours account +
      if item.publicKey = account.1 ∧ hours hour = true then (item.bytes account.2).toNat
      else 0 := by
  obtain ⟨row, heq, hrow⟩ := upsert_eq hour integer fits
  have hsum := HashMap.sum_insert (fun key row =>
    if key.2 = account.1 ∧ hours key.1 = true then (Row.bytes row account.2).value else 0) database
    (hour, item.publicKey) row
  rw [heq]
  simp only [storedBytes, HashMap.found] at hsum ⊢
  have hvalue := (hrow account.2).2
  rw [rowBytes] at hvalue
  by_cases h : item.publicKey = account.1 ∧ hours hour = true
  · simp only [h, and_self, if_true] at hsum hvalue ⊢
    omega
  · simp only [h, if_false] at hsum ⊢
    have hnone : (database.lookup (hour, item.publicKey)).elim 0 (fun _ => 0) = 0 := by
      cases database.lookup (hour, item.publicKey) <;> rfl
    omega

theorem storedBytes_deleteBefore (oldest : ℕ) (hours : ℕ → Bool) (account : Account) :
    (database.deleteBefore oldest).storedBytes hours account =
      database.storedBytes (fun hour => hours hour && decide (oldest ≤ hour)) account := by
  rw [storedBytes, deleteBefore, HashMap.sum_retain, storedBytes]
  congr 1
  funext key row
  by_cases h : oldest ≤ key.1
  · simp [h]
  · simp [h]

theorem deleteBefore_integer (integer : database.AllInteger) (oldest : ℕ) :
    (database.deleteBefore oldest).AllInteger := by
  intro key row found
  rw [deleteBefore, HashMap.lookup_retain] at found
  exact integer key row (Option.filter_eq_some_iff.1 found).1

theorem foldl_upsert (pending : List PendingTraffic) (integer : database.AllInteger)
    (fits : ∀ account, database.storedBytes (fun _ => true) account +
      pendingBytes pending account < 2 ^ 63) :
    (pending.foldl (fun database item => upsert database hour item) database).AllInteger ∧
      ∀ hours account,
        (pending.foldl (fun database item => upsert database hour item) database).storedBytes hours
          account = database.storedBytes hours account +
            if hours hour = true then pendingBytes pending account else 0 := by
  induction pending generalizing database with
  | nil => exact ⟨integer, fun hours account => by simp [pendingBytes]⟩
  | cons item items ih =>
    have hitem : ∀ direction, database.storedBytes (fun _ => true) (item.publicKey, direction) +
        (item.bytes direction).toNat < 2 ^ 63 := by
      intro direction
      have h := fits (item.publicKey, direction)
      rw [pendingBytes_cons, if_pos rfl] at h
      dsimp only at h
      omega
    have hstored := storedBytes_upsert hour integer hitem
    have hrest : ∀ account, (database.upsert hour item).storedBytes (fun _ => true) account +
        pendingBytes items account < 2 ^ 63 := by
      intro account
      have h := fits account
      rw [pendingBytes_cons] at h
      rw [hstored]
      simp only [and_true] at h ⊢
      omega
    obtain ⟨hinteger, hbytes⟩ := ih (upsert_integer hour integer hitem) hrest
    refine ⟨hinteger, ?_⟩
    intro hours account
    rw [List.foldl_cons, hbytes, hstored, pendingBytes_cons]
    by_cases hhour : hours hour = true
    · simp only [hhour, and_true, if_true]
      omega
    · simp [hhour]

theorem persistPending_spec {pending : List PendingTraffic} (oldest : ℕ)
    (integer : database.AllInteger)
    (fits : ∀ account, database.storedBytes (fun _ => true) account +
      pendingBytes pending account < 2 ^ 63) :
    (database.persistPending hour oldest pending).AllInteger ∧
      ∀ hours account, (database.persistPending hour oldest pending).storedBytes hours account =
        database.storedBytes (fun hour => hours hour && decide (oldest ≤ hour)) account +
          if (hours hour && decide (oldest ≤ hour)) = true then pendingBytes pending account
          else 0 := by
  obtain ⟨hinteger, hbytes⟩ := foldl_upsert hour pending integer fits
  refine ⟨deleteBefore_integer hinteger oldest, ?_⟩
  intro hours account
  rw [persistPending, storedBytes_deleteBefore, hbytes]

end Database

end MouseVpn.AdminApi
