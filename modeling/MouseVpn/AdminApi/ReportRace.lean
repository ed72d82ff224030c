import MouseVpn.AdminApi.TrafficConservation
import MouseVpn.AdminApi.ReportTotals

/-!
# Reports beside running flushes

A report reads the database and then the counters, and a flush moves bytes from the counters to
the database. Bytes in the database never return to a counter, so that no byte is counted twice.
Bytes that a flush has when the database is read, or takes before the counters are read, are in
neither.
-/

namespace MouseVpn.AdminApi

open MouseVpn.Lib Ledger

inductive Place.Moves : Place → Place → Prop
  | stay (place : Place) : Moves place place
  | taken (flush : ℕ) : Moves .counter (.flight flush)
  | restored (flush : ℕ) : Moves (.flight flush) .counter
  | committed (flush hour : ℕ) : Moves (.flight flush) (.stored hour)
  | expired (hour : ℕ) : Moves (.stored hour) .expired

theorem Place.moves_commit (flush hour oldest : ℕ) (place : Place) :
    place.Moves (place.commit flush hour oldest) := by
  cases place with
  | flight other =>
    rw [commit]
    split_ifs
    · exact .committed other hour
    · exact .stay _
  | stored other =>
    rw [commit]
    split_ifs
    · exact .stay _
    · exact .expired other
  | counter => exact .stay _
  | expired => exact .stay _

structure Follows (R : Place → Place → Prop) (p p' : Parcel Account Place) : Prop where
  account : p'.account = p.account
  size : p'.size = p.size
  place : R p.place p'.place

namespace TrafficStore

variable {store : TrafficStore} {parcels : Parcels} {n : ℕ} {p : Parcel Account Place}

theorem relocate_follows {next : Account → Place → Place} {R : Place → Place → Prop}
    (h : ∀ account place, R place (next account place)) (found : parcels[n]? = some p) :
    ∃ p', (relocate next parcels)[n]? = some p' ∧ Follows R p p' := by
  refine ⟨{ p with place := next p.account p.place }, ?_, rfl, rfl, h _ _⟩
  rw [relocate, List.getElem?_map, found]
  rfl

theorem move_follows {account : Account} {source target : Place}
    (h : source.Moves target) (found : parcels[n]? = some p) :
    ∃ p', (move account source target parcels)[n]? = some p' ∧ Follows Place.Moves p p' := by
  apply relocate_follows _ found
  intro a place
  split_ifs with hmatch
  · rw [hmatch.2]
    exact h
  · exact .stay place

theorem stays (found : parcels[n]? = some p) :
    ∃ p', parcels[n]? = some p' ∧ Follows Place.Moves p p' :=
  ⟨p, found, rfl, rfl, .stay _⟩

theorem follow_follows (store : TrafficStore) (event : Event) (found : parcels[n]? = some p) :
    ∃ p', (store.follow parcels event)[n]? = some p' ∧ Follows Place.Moves p p' := by
  have hadd : ∀ publicKey bytes direction, ∃ p',
      (store.followAdd parcels publicKey bytes direction)[n]? = some p' ∧
        Follows Place.Moves p p' := by
    intro publicKey bytes direction
    obtain ⟨hlt, -⟩ := List.getElem?_eq_some_iff.1 found
    rw [followAdd]
    split_ifs
    · rw [List.getElem?_append_left hlt]
      exact stays found
    · exact stays found
  cases event with
  | counter publicKey name => exact stays found
  | addUpload publicKey bytes => exact hadd publicKey bytes .upload
  | addDownload publicKey bytes => exact hadd publicKey bytes .download
  | flushAt now => exact stays found
  | swapUpload i publicKey =>
    simp only [follow]
    split
    · split_ifs
      · exact move_follows (.taken i) found
      · exact stays found
    · exact stays found
  | swapDownload i =>
    simp only [follow]
    split
    · exact move_follows (.taken i) found
    · exact stays found
  | transaction i ok =>
    simp only [follow]
    split
    · split_ifs
      · exact relocate_follows (fun _ place => place.moves_commit _ _ _) found
      · exact stays found
    · exact stays found
  | restoreUpload i =>
    simp only [follow]
    split
    · exact move_follows (.restored i) found
    · exact stays found
  | restoreDownload i =>
    simp only [follow]
    split
    · exact move_follows (.restored i) found
    · exact stays found

theorem parcelsAfter_append (store : TrafficStore) (parcels : Parcels) (past events : List Event) :
    store.parcelsAfter parcels (past ++ events) =
      (store.run past).parcelsAfter (store.parcelsAfter parcels past) events := by
  rw [parcelsAfter, Machine.run_append, ← trace_fst store parcels past]
  rfl

/-- A parcel keeps its account and its size along every run, and one that is not in a place of
`Q` is in none later, if no single move leads into `Q`. -/
theorem parcelsAfter_follows (store : TrafficStore) {Q : Place → Prop}
    (closed : ∀ a b, Place.Moves a b → Q a → Q b)
    (found : parcels[n]? = some p) (events : List Event) :
    ∃ p', (store.parcelsAfter parcels events)[n]? = some p' ∧
      Follows (fun a b => Q a → Q b) p p' := by
  induction events using List.reverseRecOn with
  | nil => exact ⟨p, found, rfl, rfl, fun h => h⟩
  | append_singleton events event ih =>
    obtain ⟨q, hq, hfollows⟩ := ih
    obtain ⟨q', hq', hstep⟩ := follow_follows (store.run events) event hq
    refine ⟨q', by rw [parcelsAfter_concat, hq'], hstep.account.trans hfollows.account,
      hstep.size.trans hfollows.size, ?_⟩
    intro h
    exact closed _ _ hstep.place (hfollows.place h)

def Settled (place : Place) : Prop := place = .expired ∨ ∃ hour, place = .stored hour

theorem settled_closed (a b : Place) (h : Place.Moves a b) (ha : Settled a) : Settled b := by
  cases h with
  | stay => exact ha
  | taken flush =>
    rcases ha with h | ⟨hour, h⟩ <;> cases h
  | restored flush =>
    rcases ha with h | ⟨hour, h⟩ <;> cases h
  | committed flush hour => exact .inr ⟨hour, rfl⟩
  | expired hour => exact .inl rfl

def HeldByFlush (parcels : Parcels) (n : ℕ) : Prop :=
  ∃ p flush, parcels[n]? = some p ∧ p.place = .flight flush

theorem held_of_left_counter (found : parcels[n]? = some p) (unsettled : ¬ Settled p.place)
    {events : List Event} {p' : Parcel Account Place}
    (found' : (store.parcelsAfter parcels events)[n]? = some p') (left : p'.place ≠ .counter) :
    ∃ past, past <+: events ∧ HeldByFlush (store.parcelsAfter parcels past) n := by
  induction events using List.reverseRecOn generalizing p' with
  | nil =>
    refine ⟨[], List.nil_prefix, p, ?_⟩
    rw [parcelsAfter, Machine.run_nil, found] at found'
    cases hplace : p.place with
    | counter => exact absurd ((Option.some.inj found') ▸ hplace) left
    | flight flush => exact ⟨flush, found, rfl⟩
    | stored hour => exact absurd (.inr ⟨hour, hplace⟩) unsettled
    | expired => exact absurd (.inl hplace) unsettled
  | append_singleton events event ih =>
    have hprefix : ∀ {past}, past <+: events → past <+: events ++ [event] :=
      fun h => h.trans (List.prefix_append _ _)
    obtain ⟨q, hq, -⟩ := parcelsAfter_follows store settled_closed found events
    by_cases hcounter : q.place = .counter
    · obtain ⟨q', hq', hstep⟩ := follow_follows (store.run events) event hq
      have hlast : (store.parcelsAfter parcels (events ++ [event]))[n]? = some q' := by
        rw [parcelsAfter_concat, hq']
      rw [hlast] at found'
      have hplace := hstep.place
      rw [hcounter, Option.some.inj found'] at hplace
      cases hp : p'.place with
      | counter => exact absurd hp left
      | flight flush =>
        exact ⟨_, List.prefix_rfl, p', flush, by rw [hlast, found'], hp⟩
      | stored hour => rw [hp] at hplace; cases hplace
      | expired => rw [hp] at hplace; cases hplace
    · obtain ⟨past, hpast, hheld⟩ := ih hq hcounter
      exact ⟨past, hprefix hpast, hheld⟩

end TrafficStore

structure ReportRun where
  database : Database
  before : List Event
  untilLoad : List Event
  untilPeek : List Event

namespace ReportRun

open TrafficStore

def storeAfter (r : ReportRun) (events : List Event) : TrafficStore :=
  (opened r.database).run events

def parcelsAfter (r : ReportRun) (events : List Event) : Parcels :=
  (opened r.database).parcelsAfter (rowParcels r.database.entries) events

def atStart (r : ReportRun) : Parcels := r.parcelsAfter r.before

def atLoad (r : ReportRun) : Parcels := r.parcelsAfter (r.before ++ r.untilLoad)

def atPeek (r : ReportRun) : Parcels := r.parcelsAfter (r.before ++ r.untilLoad ++ r.untilPeek)

def report (r : ReportRun) (hours : ℕ) (now : UInt64) : Option TrafficReport :=
  reportAt hours now (r.storeAfter (r.before ++ r.untilLoad)).database
    (r.storeAfter (r.before ++ r.untilLoad ++ r.untilPeek)).counters

def timesCounted (r : ReportRun) (hours : ℕ) (now : UInt64) (n : ℕ) : ℕ :=
  (r.atLoad[n]?.any fun p => p.place.isStored (inSeries hours now)).toNat +
    (r.atPeek[n]?.any fun p => p.place == .counter).toNat

def InWindow (r : ReportRun) (hours : ℕ) (now : UInt64) (n : ℕ) : Prop :=
  ∀ p, r.atLoad[n]? = some p →
    p.place ≠ .expired ∧ ∀ hour, p.place = .stored hour → inSeries hours now hour = true

/-- A flush has the parcel when the rows are loaded or takes it later, and it is not back in its
counter when the counters are read. -/
def Missed (r : ReportRun) (n : ℕ) : Prop :=
  (∃ past, past <+: r.untilPeek ∧
    HeldByFlush (r.parcelsAfter (r.before ++ r.untilLoad ++ past)) n) ∧
  ∀ p, r.atPeek[n]? = some p → p.place ≠ .counter

variable (r : ReportRun)

theorem parcelsAfter_append (past events : List Event) :
    r.parcelsAfter (past ++ events) =
      (r.storeAfter past).parcelsAfter (r.parcelsAfter past) events :=
  TrafficStore.parcelsAfter_append _ _ past events

variable {r} {n : ℕ} {p q : Parcel Account Place} {hours : ℕ} {now : UInt64}

theorem after_load (found : r.atLoad[n]? = some p) (events : List Event) :
    ∃ q, (r.parcelsAfter (r.before ++ r.untilLoad ++ events))[n]? = some q ∧
      Follows (fun a b => Settled a → Settled b) p q := by
  rw [parcelsAfter_append]
  exact parcelsAfter_follows _ settled_closed found events

theorem exists_atLoad (h : n < r.atStart.length) : ∃ p, r.atLoad[n]? = some p := by
  have found : r.atStart[n]? = some r.atStart[n] := List.getElem?_eq_getElem h
  obtain ⟨p, hp, -⟩ :=
    parcelsAfter_follows (r.storeAfter r.before) settled_closed found r.untilLoad
  refine ⟨p, ?_⟩
  rw [atLoad, parcelsAfter_append]
  exact hp

theorem atLoad_length_le : r.atLoad.length ≤ r.atPeek.length := by
  by_contra hlt
  have found := List.getElem?_eq_getElem (Nat.lt_of_not_le hlt)
  obtain ⟨q, hq, -⟩ := after_load found r.untilPeek
  exact Nat.lt_irrefl _ (List.getElem?_eq_some_iff.1 hq).1

theorem not_counter_of_settled {place : Place} (h : Settled place) :
    (place == .counter) = false := by
  rcases h with h | ⟨hour, h⟩ <;> rw [h] <;> rfl

theorem settled_of_isStored {place : Place} {W : ℕ → Bool} (h : place.isStored W = true) :
    Settled place := by
  cases place with
  | stored hour => exact .inr ⟨hour, rfl⟩
  | counter => cases h
  | flight flush => cases h
  | expired => cases h

theorem timesCounted_of_found (hp : r.atLoad[n]? = some p) (hq : r.atPeek[n]? = some q) :
    r.timesCounted hours now n =
      (p.place.isStored (inSeries hours now)).toNat + (q.place == .counter).toNat := by
  rw [timesCounted, hp, hq]
  rfl

theorem timesCounted_le_one (n : ℕ) : r.timesCounted hours now n ≤ 1 := by
  cases hp : r.atLoad[n]? with
  | none =>
    rw [timesCounted, hp, Option.any_none, Bool.toNat_false, Nat.zero_add]
    exact Bool.toNat_le _
  | some p =>
    obtain ⟨q, hq, hfollows⟩ := after_load hp r.untilPeek
    rw [timesCounted_of_found hp hq]
    cases hstored : p.place.isStored (inSeries hours now) with
    | false =>
      rw [Bool.toNat_false, Nat.zero_add]
      exact Bool.toNat_le _
    | true =>
      rw [not_counter_of_settled (hfollows.place (settled_of_isStored hstored))]
      exact Nat.le_refl 1

theorem not_missed_of_settled (hp : r.atLoad[n]? = some p) (settled : Settled p.place) :
    ¬ r.Missed n := by
  intro missed
  obtain ⟨⟨past, -, q, flush, hq, hflight⟩, -⟩ := missed
  obtain ⟨q', hq', hfollows⟩ := after_load hp past
  rw [hq] at hq'
  have hsettled := hfollows.place settled
  rw [← Option.some.inj hq', hflight] at hsettled
  rcases hsettled with h | ⟨hour, h⟩ <;> cases h

theorem timesCounted_eq_one_iff (h : n < r.atStart.length) (window : r.InWindow hours now n) :
    r.timesCounted hours now n = 1 ↔ ¬ r.Missed n := by
  obtain ⟨p, hp⟩ := exists_atLoad h
  obtain ⟨q, hq, hfollows⟩ := after_load hp r.untilPeek
  obtain ⟨hkept, hseries⟩ := window p hp
  rw [timesCounted_of_found hp hq]
  by_cases settled : Settled p.place
  · have hstored : p.place.isStored (inSeries hours now) = true := by
      rcases settled with hexpired | ⟨hour, hhour⟩
      · exact absurd hexpired hkept
      · rw [hhour]
        exact hseries hour hhour
    rw [hstored, not_counter_of_settled (hfollows.place settled)]
    exact iff_of_true rfl (not_missed_of_settled hp settled)
  · have hunstored : p.place.isStored (inSeries hours now) = false :=
      Bool.eq_false_iff.2 fun hstored => settled (settled_of_isStored hstored)
    rw [hunstored, Bool.toNat_false, Nat.zero_add]
    by_cases hcounter : q.place = .counter
    · rw [hcounter]
      apply iff_of_true rfl
      intro missed
      exact missed.2 q hq hcounter
    · rw [beq_false_of_ne hcounter]
      apply iff_of_false Nat.zero_ne_one
      rw [not_not]
      constructor
      · have found : (r.parcelsAfter (r.before ++ r.untilLoad ++ r.untilPeek))[n]? = some q := hq
        rw [parcelsAfter_append] at found
        obtain ⟨past, hpast, hheld⟩ := held_of_left_counter hp settled found hcounter
        refine ⟨past, hpast, ?_⟩
        rw [parcelsAfter_append]
        exact hheld
      · intro q' hq' heq
        rw [atPeek, hq] at hq'
        exact hcounter (Option.some.inj hq' ▸ heq)

def countedBytes (r : ReportRun) (hours : ℕ) (now : UInt64) (account : Account) : ℕ :=
  ((List.range r.atPeek.length).map fun n => r.atPeek[n]?.elim 0 fun p =>
    if p.account = account then p.size * r.timesCounted hours now n else 0).sum

theorem countedBytes_eq (r : ReportRun) (hours : ℕ) (now : UInt64) (account : Account) :
    r.countedBytes hours now account =
      held r.atLoad account (Place.isStored (inSeries hours now)) +
        heldAt r.atPeek account .counter := by
  rw [heldAt, held_eq_sum_range _ _ atLoad_length_le, held_eq_sum_range _ _ (Nat.le_refl _),
    ← List.sum_map_add, countedBytes]
  congr 1
  apply List.map_congr_left
  intro n hn
  obtain ⟨q, hq⟩ : ∃ q, r.atPeek[n]? = some q := ⟨_, List.getElem?_eq_getElem (List.mem_range.1 hn)⟩
  rw [hq, Option.elim_some, Option.elim_some]
  cases hp : r.atLoad[n]? with
  | none =>
    rw [Option.elim_none, Nat.zero_add, timesCounted, hp, hq, Parcel.share]
    by_cases haccount : q.account = account
    · cases hcounter : q.place == .counter <;> simp [haccount, hcounter]
    · simp [haccount]
  | some p =>
    obtain ⟨q', hq', hfollows⟩ := after_load hp r.untilPeek
    obtain rfl : q = q' := Option.some.inj (hq.symm.trans hq')
    rw [Option.elim_some, timesCounted_of_found hp hq, Parcel.share, Parcel.share, hfollows.account,
      hfollows.size]
    by_cases haccount : p.account = account
    · cases hcounter : q.place == .counter <;>
        cases hstored : p.place.isStored (inSeries hours now) <;>
        simp [haccount, Nat.mul_two]
    · simp [haccount]

theorem total_atPeek (r : ReportRun) (account : Account) :
    total r.atPeek account = (opened r.database).storedBytes account +
      (opened r.database).addedBytes (r.before ++ r.untilLoad ++ r.untilPeek) account := by
  rw [atPeek, parcelsAfter, total_parcelsAfter, total_rowParcels]

theorem total_atLoad_le (r : ReportRun) (account : Account) :
    total r.atLoad account ≤ total r.atPeek account := by
  rw [atPeek, parcelsAfter_append, total_parcelsAfter]
  exact Nat.le_add_right _ _

/-- The per-device totals of a report are made of the bytes that are in the rows of its series when
it loads them and of those that are in the counters when it reads them. No byte is counted twice.
A byte that was added before the report began, and that the report does not find in a row outside
its series, is counted exactly once unless a flush has it or takes it while the report reads and
has not put it back. -/
theorem report_counts_once_iff (r : ReportRun) (integer : r.database.AllInteger)
    (fits : ∀ account, (opened r.database).storedBytes account +
      (opened r.database).addedBytes (r.before ++ r.untilLoad ++ r.untilPeek) account < 2 ^ 63)
    (hours : ℕ) (now : UInt64) :
    (∃ report, r.report hours now = some report ∧
      ∀ account, report.deviceBytes account = r.countedBytes hours now account) ∧
    (∀ n, r.timesCounted hours now n ≤ 1) ∧
    ∀ n, n < r.atStart.length → r.InWindow hours now n →
      (r.timesCounted hours now n = 1 ↔ ¬ r.Missed n) := by
  refine ⟨?_, timesCounted_le_one, fun n h window => timesCounted_eq_one_iff h window⟩
  have hpeekFits : Fits r.atPeek := by
    intro a
    rw [total_atPeek]
    exact fits a
  have hloadFits : Fits r.atLoad := fun a => Nat.lt_of_le_of_lt (r.total_atLoad_le a) (hpeekFits a)
  have hopened := explains_opened integer
  have hvalid := phasesValid_opened r.database
  have hload : Explains (r.storeAfter (r.before ++ r.untilLoad)) r.atLoad :=
    hopened.run hvalid hloadFits
  have hpeek : Explains (r.storeAfter (r.before ++ r.untilLoad ++ r.untilPeek)) r.atPeek :=
    hopened.run hvalid hpeekFits
  have hbound : ∀ a,
      (r.storeAfter (r.before ++ r.untilLoad)).database.storedBytes (fun _ => true) a +
      (r.storeAfter (r.before ++ r.untilLoad ++ r.untilPeek)).counterBytes a < 2 ^ 64 := by
    intro a
    have hstored := held_le_total r.atLoad a (Place.isStored fun _ => true)
    have hcounter := held_le_total r.atPeek a (fun place => place == .counter)
    have hlt := hloadFits a
    have hlt' := hpeekFits a
    rw [hload.stored, hpeek.counter, heldAt]
    omega
  obtain ⟨report, hreport, hbytes⟩ := reportAt_spec hload.integer hbound hours now
  refine ⟨report, hreport, ?_⟩
  intro account
  rw [hbytes, countedBytes_eq, hload.stored, hpeek.counter]

def overtaken : ReportRun where
  database := ∅
  before := [.counter "key" "Laptop", .addUpload "key" 1000]
  untilLoad := []
  untilPeek := [.flushAt 36000, .swapUpload 0 "key", .swapDownload 0]

theorem overtaken_integer : overtaken.database.AllInteger := by
  intro key row found
  cases found

theorem overtaken_fits (account : Account) : (opened overtaken.database).storedBytes account +
    (opened overtaken.database).addedBytes
      (overtaken.before ++ overtaken.untilLoad ++ overtaken.untilPeek) account < 2 ^ 63 := by
  have hempty : (opened overtaken.database).storedBytes account = 0 := rfl
  have hadded : (opened overtaken.database).addedBytes
      (overtaken.before ++ overtaken.untilLoad ++ overtaken.untilPeek) account ≤ 1000 := by
    simp only [overtaken, List.cons_append, List.nil_append, addedBytes, Machine.observe, addedBy,
      List.sum_cons, List.sum_nil]
    split_ifs <;> decide
  omega

theorem overtaken_inWindow : overtaken.InWindow 1 36000 0 := by
  intro p found
  have hload : overtaken.atLoad[0]? = some ⟨("key", .upload), .counter, 1000⟩ := rfl
  rw [hload] at found
  rw [← Option.some.inj found]
  exact ⟨Place.noConfusion, fun _ h => Place.noConfusion h⟩

theorem overtaken_counts :
    (∃ report, overtaken.report 1 36000 = some report ∧
      report.deviceBytes ("key", .upload) = overtaken.countedBytes 1 36000 ("key", .upload)) ∧
    (overtaken.timesCounted 1 36000 0 = 1 ↔ ¬ overtaken.Missed 0) := by
  obtain ⟨⟨report, hreport, hbytes⟩, -, honce⟩ :=
    report_counts_once_iff overtaken overtaken_integer overtaken_fits 1 36000
  exact ⟨⟨report, hreport, hbytes _⟩, honce 0 (by decide) overtaken_inWindow⟩

/-- The bytes were added before the report began, in the hour that it is about, and the report
does not have them. -/
theorem report_misses_taken_bytes :
    (opened overtaken.database).addedBytes overtaken.before ("key", .upload) = 1000 ∧
      overtaken.InWindow 1 36000 0 ∧ overtaken.timesCounted 1 36000 0 = 0 ∧
      (overtaken.report 1 36000).map TrafficReport.devices = some [] := by
  refine ⟨rfl, overtaken_inWindow, rfl, ?_⟩
  have hload : loadBuckets (overtaken.storeAfter (overtaken.before ++ overtaken.untilLoad)).database
      (queryStart 1 36000) (currentHour 36000) = some [] := by
    rw [loadBuckets, show (overtaken.storeAfter
      (overtaken.before ++ overtaken.untilLoad)).database.entries = [] from rfl, List.filter_nil,
      List.mergeSort_nil, List.mapM_nil]
    rfl
  have hpeek : peekPending (overtaken.storeAfter
      (overtaken.before ++ overtaken.untilLoad ++ overtaken.untilPeek)).counters = [] := rfl
  rw [report, reportAt, hload, hpeek]
  exact congrArg some List.mergeSort_nil

end ReportRun

end MouseVpn.AdminApi
