import MouseVpn.Client.Wire
import MouseVpn.Lib.Machine

/-!
# The reliability totals of the Linux interface

Every helper reports cumulative metrics, and `ReliabilityMonitor` adds what is new in a report to
the totals of the profile and the protocol. What is new is measured against one slot, which knows
the profile and the protocol but not the helper. The helpers and their last reports are kept
beside the monitor here, to say what the totals should be.
-/

namespace MouseVpn.Linux

open MouseVpn.Lib MouseVpn.Client

/-- The cumulative fields of `RuntimeMetrics`. -/
inductive Counter
  | uptimeSeconds
  | outgoingPackets
  | incomingPackets
  | outgoingDrops
  | keepalivesSent
  | keepaliveResponses
  | keepaliveTimeouts
  | reconnects
  | reconnectFailures
  | peerUnreachable
  | migrations
  | keepaliveRttTotalMs
  | keepaliveRttSamples
  deriving DecidableEq, Repr

structure RuntimeMetrics where
  counters : Counter → UInt64
  lastKeepaliveRttMs : UInt64
  maxKeepaliveRttMs : UInt64

def RuntimeMetrics.default : RuntimeMetrics := ⟨fun _ => 0, 0, 0⟩

def RuntimeMetrics.delta (current previous : RuntimeMetrics) : RuntimeMetrics where
  counters c := saturatingSub (current.counters c) (previous.counters c)
  lastKeepaliveRttMs := current.lastKeepaliveRttMs
  maxKeepaliveRttMs := current.maxKeepaliveRttMs

/-- The total of `uptime_seconds` is the field `observed_seconds` of the source. -/
structure ModeTotals where
  sessions : UInt64
  counters : Counter → UInt64
  maxKeepaliveRttMs : UInt64
  updatedAt : UInt64

def ModeTotals.default : ModeTotals := ⟨0, fun _ => 0, 0, 0⟩

def ModeTotals.add (totals : ModeTotals) (delta : RuntimeMetrics) (firstObservation : Bool)
    (now : UInt64) : ModeTotals where
  sessions := totals.sessions + if firstObservation then 1 else 0
  counters c := totals.counters c + delta.counters c
  maxKeepaliveRttMs := max totals.maxKeepaliveRttMs delta.maxKeepaliveRttMs
  updatedAt := now

def protocolKey : ClientProtocol → String
  | .legacy => "legacy"
  | .speedy => "speedy"
  | .morphQuiet => "morph_quiet"
  | .morphBalanced => "morph_balanced"
  | .morphParanoid => "morph_paranoid"

theorem protocolKey_injective {protocol protocol' : ClientProtocol}
    (h : protocolKey protocol = protocolKey protocol') : protocol = protocol' := by
  cases protocol <;> cases protocol' <;> first | rfl | exact absurd h (by decide)

abbrev StoredDiagnostics := HashMap String (HashMap String ModeTotals)

namespace StoredDiagnostics

def totals (stored : StoredDiagnostics) (profileId : String) (protocol : ClientProtocol) :
    ModeTotals :=
  ((stored.lookup profileId).bind fun modes => modes.lookup (protocolKey protocol)).getD .default

/-- `profiles.entry(..).or_default().modes.entry(..).or_default()`, changed in place. -/
def modify (stored : StoredDiagnostics) (profileId : String) (protocol : ClientProtocol)
    (f : ModeTotals → ModeTotals) : StoredDiagnostics :=
  let modes := (stored.lookup profileId).getD ∅
  let mode := (modes.lookup (protocolKey protocol)).getD .default
  stored.insert profileId (modes.insert (protocolKey protocol) (f mode))

theorem totals_modify (stored : StoredDiagnostics) (profileId : String) (protocol : ClientProtocol)
    (f : ModeTotals → ModeTotals) (profileId' : String) (protocol' : ClientProtocol) :
    (stored.modify profileId protocol f).totals profileId' protocol' =
      if profileId' = profileId ∧ protocol' = protocol then f (stored.totals profileId protocol)
      else stored.totals profileId' protocol' := by
  have hmode : ((stored.lookup profileId).getD ∅).lookup (protocolKey protocol') =
      (stored.lookup profileId).bind fun modes => modes.lookup (protocolKey protocol') := by
    cases stored.lookup profileId <;> rfl
  rw [totals, modify, HashMap.lookup_insert_ite]
  by_cases hprofile : profileId' = profileId
  · subst hprofile
    rw [if_pos rfl, Option.bind_some, HashMap.lookup_insert_ite]
    by_cases hprotocol : protocol' = protocol
    · subst hprotocol
      rw [if_pos rfl, if_pos ⟨rfl, rfl⟩, Option.getD_some, hmode]
      rfl
    · rw [if_neg fun h => hprotocol (protocolKey_injective h), if_neg fun h => hprotocol h.2, hmode]
      rfl
  · rw [if_neg hprofile, if_neg fun h => hprofile h.1]
    rfl

end StoredDiagnostics

structure ActiveSession where
  profileId : String
  protocol : ClientProtocol
  previous : RuntimeMetrics
  observed : Bool

structure ReliabilityMonitor where
  stored : StoredDiagnostics
  active : Option ActiveSession

namespace ReliabilityMonitor

def fresh (profileId : String) (protocol : ClientProtocol) : ActiveSession :=
  ⟨profileId, protocol, .default, false⟩

def begin (monitor : ReliabilityMonitor) (profileId : String) (protocol : ClientProtocol) :
    ReliabilityMonitor :=
  { monitor with active := some (fresh profileId protocol) }

/-- The session against which `observe` measures: another profile or protocol begins anew. -/
def session (monitor : ReliabilityMonitor) (profileId : String) (protocol : ClientProtocol) :
    ActiveSession :=
  match monitor.active with
  | none => fresh profileId protocol
  | some active =>
    if active.profileId = profileId ∧ active.protocol = protocol then active
    else fresh profileId protocol

def observe (monitor : ReliabilityMonitor) (profileId : String) (protocol : ClientProtocol)
    (current : RuntimeMetrics) (now : UInt64) : ReliabilityMonitor :=
  let active := monitor.session profileId protocol
  { stored := monitor.stored.modify profileId protocol fun totals =>
      totals.add (current.delta active.previous) (!active.observed) now
    active := some { active with previous := current, observed := true } }

end ReliabilityMonitor

structure Helper where
  profileId : String
  protocol : ClientProtocol
  last : Option RuntimeMetrics

def Helper.reported (helper : Helper) (c : Counter) : UInt64 :=
  (helper.last.getD .default).counters c

def Helper.report (helper : Helper) (current : RuntimeMetrics) : Helper :=
  { helper with last := some current }

structure Reports where
  monitor : ReliabilityMonitor
  helpers : List Helper

inductive ReliabilityCall
  | begin (profileId : String) (protocol : ClientProtocol)
  | observe (i : ℕ) (current : RuntimeMetrics) (now : UInt64)

namespace Reports

def start (stored : StoredDiagnostics) : Reports := ⟨⟨stored, none⟩, []⟩

def step (st : Reports) (call : ReliabilityCall) : Reports × Unit :=
  (match call with
    | .begin profileId protocol =>
      ⟨st.monitor.begin profileId protocol, st.helpers ++ [⟨profileId, protocol, none⟩]⟩
    | .observe i current now =>
      match st.helpers[i]? with
      | none => st
      | some helper =>
        ⟨st.monitor.observe helper.profileId helper.protocol current now,
          st.helpers.set i (helper.report current)⟩, ())

def run (st : Reports) (calls : List ReliabilityCall) : Reports := Machine.run step st calls

end Reports

inductive Total
  | sessions
  | counter (c : Counter)
  deriving DecidableEq, Repr

def ModeTotals.value (totals : ModeTotals) : Total → UInt64
  | .sessions => totals.sessions
  | .counter c => totals.counters c

/-- What `observe` adds to the totals. -/
def ActiveSession.gain (active : ActiveSession) (current : RuntimeMetrics) : Total → UInt64
  | .sessions => if active.observed then 0 else 1
  | .counter c => saturatingSub (current.counters c) (active.previous.counters c)

def Helper.share (helper : Helper) : Total → ℕ
  | .sessions => if helper.last.isSome then 1 else 0
  | .counter c => (helper.reported c).toNat

theorem ModeTotals.value_add (totals : ModeTotals) (active : ActiveSession)
    (current : RuntimeMetrics) (now : UInt64) (total : Total) :
    (totals.add (current.delta active.previous) (!active.observed) now).value total =
      totals.value total + active.gain current total := by
  cases total with
  | sessions => cases active with | mk _ _ _ observed => cases observed <;> rfl
  | counter c => rfl

namespace Reports

variable {stored : StoredDiagnostics} {st : Reports}

def Of (profileId : String) (protocol : ClientProtocol) (helper : Helper) : Prop :=
  helper.profileId = profileId ∧ helper.protocol = protocol

instance (profileId : String) (protocol : ClientProtocol) (helper : Helper) :
    Decidable (Of profileId protocol helper) :=
  inferInstanceAs (Decidable (_ ∧ _))

def shares (helpers : List Helper) (profileId : String) (protocol : ClientProtocol)
    (total : Total) : ℕ :=
  (helpers.map fun helper => if Of profileId protocol helper then helper.share total else 0).sum

def Exact (stored : StoredDiagnostics) (st : Reports) : Prop :=
  ∀ profileId protocol total,
    ((st.monitor.stored.totals profileId protocol).value total).toNat =
      ((stored.totals profileId protocol).value total).toNat +
        shares st.helpers profileId protocol total

def Monotone (st : Reports) : ReliabilityCall → Prop
  | .begin _ _ => True
  | .observe i current _ => ∀ helper, st.helpers[i]? = some helper →
      ∀ c, helper.reported c ≤ current.counters c

/-- The slot is for the profile and the protocol of the helper. -/
def Meets (slot : Option ActiveSession) (helper : Helper) : Prop :=
  ∃ active, slot = some active ∧ active.profileId = helper.profileId ∧
    active.protocol = helper.protocol

/-- The slot knows whether the helper has reported, and of each counter it has the number that
the helper has reported last. A counter that has not moved may also stand higher in the slot. -/
def Follows (active : ActiveSession) (helper : Helper) (current : RuntimeMetrics) : Prop :=
  active.observed = helper.last.isSome ∧
    ∀ c, active.previous.counters c = helper.reported c ∨
      current.counters c = helper.reported c ∧ helper.reported c ≤ active.previous.counters c

/-- The slot before the call follows the helper that reports. If it is not for the profile and the
protocol of that helper, the helper has not reported before. -/
def Credited (st : Reports) : ReliabilityCall → Prop
  | .begin _ _ => True
  | .observe i current _ => ∀ helper, st.helpers[i]? = some helper →
      (∀ active, st.monitor.active = some active → active.profileId = helper.profileId →
        active.protocol = helper.protocol → Follows active helper current) ∧
      (¬ Meets st.monitor.active helper → helper.last = none)

/-- The totals have room for what the helper adds to its last report. -/
def Fits (st : Reports) : ReliabilityCall → Prop
  | .begin _ _ => True
  | .observe i current _ => ∀ helper, st.helpers[i]? = some helper → ∀ total,
      ((st.monitor.stored.totals helper.profileId helper.protocol).value total).toNat +
        (helper.report current).share total < 2 ^ 64 + helper.share total

theorem share_of_unobserved (profileId : String) (protocol : ClientProtocol) (total : Total) :
    Helper.share ⟨profileId, protocol, none⟩ total = 0 := by
  cases total <;> rfl

theorem shares_append (helpers : List Helper) (profileId : String) (protocol : ClientProtocol)
    (profileId' : String) (protocol' : ClientProtocol) (total : Total) :
    shares (helpers ++ [⟨profileId, protocol, none⟩]) profileId' protocol' total =
      shares helpers profileId' protocol' total := by
  rw [shares, List.map_append, List.sum_append, List.map_singleton, List.sum_singleton,
    share_of_unobserved, ite_self, Nat.add_zero]
  rfl

theorem sum_map_set {α : Type} (f : α → ℕ) {l : List α} {i : ℕ} {a : α} (h : l[i]? = some a)
    (b : α) : ((l.set i b).map f).sum + f a = (l.map f).sum + f b := by
  induction l generalizing i with
  | nil => cases h
  | cons first rest ih =>
    cases i with
    | zero =>
      cases h
      rw [List.set_cons_zero, List.map_cons, List.map_cons, List.sum_cons, List.sum_cons]
      omega
    | succ i =>
      have hrest := ih h
      rw [List.set_cons_succ, List.map_cons, List.map_cons, List.sum_cons, List.sum_cons]
      omega

theorem shares_set {helpers : List Helper} {i : ℕ} {helper : Helper}
    (h : helpers[i]? = some helper) (current : RuntimeMetrics) (profileId : String)
    (protocol : ClientProtocol) (total : Total) :
    shares (helpers.set i (helper.report current)) profileId protocol total +
        (if Of profileId protocol helper then helper.share total else 0) =
      shares helpers profileId protocol total +
        (if Of profileId protocol helper then (helper.report current).share total else 0) :=
  sum_map_set _ h (helper.report current)

theorem Monotone.share_le {i : ℕ} {current : RuntimeMetrics} {now : UInt64} {helper : Helper}
    (h : st.Monotone (.observe i current now)) (hi : st.helpers[i]? = some helper)
    (total : Total) : helper.share total ≤ (helper.report current).share total := by
  cases total with
  | sessions =>
    change (if helper.last.isSome then 1 else 0) ≤ 1
    split_ifs <;> decide
  | counter c => exact UInt64.le_iff_toNat_le.mp (h helper hi c)

theorem wraps_to_iff {before sum sum' share share' : ℕ} {gain value : UInt64}
    (hvalue : value.toNat = before + sum) (hsum : sum' + share = sum + share')
    (hle : share ≤ share') : (value + gain).toNat = before + sum' ↔
      gain.toNat + share = share' ∧ value.toNat + gain.toNat < 2 ^ 64 := by
  have hgain := gain.toNat_lt
  have hroom := value.toNat_lt
  rw [UInt64.toNat_add]
  omega

theorem gain_iff (active : ActiveSession) (helper : Helper) (current : RuntimeMetrics)
    (hmono : ∀ c, helper.reported c ≤ current.counters c) :
    (∀ total, (active.gain current total).toNat + helper.share total =
      (helper.report current).share total) ↔ Follows active helper current := by
  have hsessions : (active.gain current .sessions).toNat + helper.share .sessions =
      (helper.report current).share .sessions ↔ active.observed = helper.last.isSome := by
    change (if active.observed then (0 : UInt64) else 1).toNat +
      (if helper.last.isSome then 1 else 0) = 1 ↔ _
    cases active.observed <;> cases helper.last <;> simp
  have hcounter : ∀ c, (active.gain current (.counter c)).toNat + helper.share (.counter c) =
      (helper.report current).share (.counter c) ↔
        active.previous.counters c = helper.reported c ∨
          current.counters c = helper.reported c ∧
            helper.reported c ≤ active.previous.counters c := by
    intro c
    have hle := UInt64.le_iff_toNat_le.mp (hmono c)
    change (saturatingSub (current.counters c) (active.previous.counters c)).toNat +
      (helper.reported c).toNat = (current.counters c).toNat ↔ _
    rw [saturatingSub_toNat, ← UInt64.toNat_inj, ← UInt64.toNat_inj, UInt64.le_iff_toNat_le]
    omega
  constructor
  · intro h
    exact ⟨hsessions.mp (h .sessions), fun c => (hcounter c).mp (h (.counter c))⟩
  · intro h total
    cases total with
    | sessions => exact hsessions.mpr h.1
    | counter c => exact (hcounter c).mpr (h.2 c)

theorem follows_fresh_iff (profileId : String) (protocol : ClientProtocol) (helper : Helper)
    (current : RuntimeMetrics) :
    Follows (ReliabilityMonitor.fresh profileId protocol) helper current ↔ helper.last = none := by
  constructor
  · intro h
    apply Option.not_isSome_iff_eq_none.mp
    intro hsome
    simp [← h.1, ReliabilityMonitor.fresh] at hsome
  · intro h
    exact ⟨by rw [h]; rfl, fun c => Or.inl (by rw [Helper.reported, h]; rfl)⟩

/-- The session that `observe` finds is the slot, or a new one. -/
theorem follows_session_iff (monitor : ReliabilityMonitor) (helper : Helper)
    (current : RuntimeMetrics) :
    Follows (monitor.session helper.profileId helper.protocol) helper current ↔
      (∀ active, monitor.active = some active → active.profileId = helper.profileId →
        active.protocol = helper.protocol → Follows active helper current) ∧
      (¬ Meets monitor.active helper → helper.last = none) := by
  rw [ReliabilityMonitor.session]
  cases hactive : monitor.active with
  | none => simp [follows_fresh_iff, Meets]
  | some active =>
    by_cases hmeets : active.profileId = helper.profileId ∧ active.protocol = helper.protocol
    · simp [hmeets, Meets]
    · simp only [hmeets, if_false, follows_fresh_iff, Meets, Option.some.injEq]
      constructor
      · intro h
        exact ⟨fun other heq hp hq => absurd ⟨heq ▸ hp, heq ▸ hq⟩ hmeets, fun _ => h⟩
      · intro h
        apply h.2
        rintro ⟨other, rfl, hother⟩
        exact hmeets hother

theorem exact_observe_iff (hexact : Exact stored st) {i : ℕ} {current : RuntimeMetrics}
    {now : UInt64} {helper : Helper} (hi : st.helpers[i]? = some helper)
    (hmono : st.Monotone (.observe i current now)) :
    Exact stored ⟨st.monitor.observe helper.profileId helper.protocol current now,
        st.helpers.set i (helper.report current)⟩ ↔
      ∀ total,
        ((st.monitor.session helper.profileId helper.protocol).gain current total).toNat +
            helper.share total = (helper.report current).share total ∧
          ((st.monitor.stored.totals helper.profileId helper.protocol).value total).toNat +
            ((st.monitor.session helper.profileId helper.protocol).gain current total).toNat <
              2 ^ 64 := by
  have hset : ∀ total, shares (st.helpers.set i (helper.report current)) helper.profileId
      helper.protocol total + helper.share total =
        shares st.helpers helper.profileId helper.protocol total +
          (helper.report current).share total := by
    intro total
    have h := shares_set hi current helper.profileId helper.protocol total
    rwa [if_pos ⟨rfl, rfl⟩, if_pos ⟨rfl, rfl⟩] at h
  constructor
  · intro h total
    have hafter := h helper.profileId helper.protocol total
    simp only [ReliabilityMonitor.observe, StoredDiagnostics.totals_modify, and_self, if_true,
      ModeTotals.value_add] at hafter
    exact (wraps_to_iff (hexact _ _ total) (hset total) (hmono.share_le hi total)).mp hafter
  · intro h profileId protocol total
    simp only [ReliabilityMonitor.observe, StoredDiagnostics.totals_modify]
    split_ifs with hsame
    · obtain ⟨rfl, rfl⟩ := hsame
      rw [ModeTotals.value_add]
      exact (wraps_to_iff (hexact _ _ total) (hset total) (hmono.share_le hi total)).mpr (h total)
    · have hother : ¬ Of profileId protocol helper := fun hof => hsame ⟨hof.1.symm, hof.2.symm⟩
      have hkeep := shares_set hi current profileId protocol total
      rw [if_neg hother, if_neg hother] at hkeep
      rw [hexact profileId protocol total]
      exact congrArg _ hkeep.symm

theorem exact_step_iff (hexact : Exact stored st) (call : ReliabilityCall)
    (hmono : st.Monotone call) :
    Exact stored (st.step call).1 ↔ st.Credited call ∧ st.Fits call := by
  cases call with
  | begin profileId protocol =>
    refine iff_of_true ?_ ⟨trivial, trivial⟩
    intro profileId' protocol' total
    rw [step, shares_append]
    exact hexact profileId' protocol' total
  | observe i current now =>
    simp only [step, Credited, Fits]
    cases hi : st.helpers[i]? with
    | none => exact iff_of_true hexact ⟨nofun, nofun⟩
    | some helper =>
      simp only [Option.some.injEq, forall_eq']
      rw [exact_observe_iff hexact hi hmono, forall_and, ← follows_session_iff,
        ← gain_iff _ helper current (hmono helper hi)]
      refine and_congr_right fun hgain => forall_congr' fun total => ?_
      have htotal := hgain total
      omega

theorem exact_start : Exact stored (start stored) := by
  intro profileId protocol total
  rfl

/-- The totals stay exact exactly as long as the slot before every report follows the helper that
reports, and the sums fit. -/
theorem totals_exact_iff (calls : List ReliabilityCall)
    (hmono : Machine.Obeys step Monotone (start stored) calls) :
    (∀ pre post, calls = pre ++ post → Exact stored ((start stored).run pre)) ↔
      Machine.Obeys step (fun st call => st.Credited call ∧ st.Fits call) (start stored) calls :=
  (Machine.obeys_iff_invariant_of_obeys step (Exact stored)
    (fun _ call hexact hm => exact_step_iff hexact call hm) exact_start hmono).symm

def Timely (st : Reports) : ReliabilityCall → Prop
  | .begin _ _ => True
  | .observe i _ _ => i + 1 = st.helpers.length

def Tracked (st : Reports) : Prop :=
  ∀ i helper, i + 1 = st.helpers.length → st.helpers[i]? = some helper → st.monitor.active =
    some ⟨helper.profileId, helper.protocol, helper.last.getD .default, helper.last.isSome⟩

theorem Tracked.session (ht : st.Tracked) {i : ℕ} {helper : Helper} (hi : i + 1 = st.helpers.length)
    (hh : st.helpers[i]? = some helper) :
    st.monitor.session helper.profileId helper.protocol =
      ⟨helper.profileId, helper.protocol, helper.last.getD .default, helper.last.isSome⟩ := by
  simp only [ReliabilityMonitor.session, ht i helper hi hh, and_self, if_true]

theorem Tracked.step (ht : st.Tracked) {call : ReliabilityCall} (htimely : st.Timely call) :
    (st.step call).1.Tracked := by
  cases call with
  | begin profileId protocol =>
    intro i helper hi hh
    rw [Reports.step, List.length_append, List.length_singleton, Nat.add_right_cancel_iff] at hi
    rw [Reports.step, hi, List.getElem?_concat_length] at hh
    cases hh
    rfl
  | observe i current now =>
    cases hh : st.helpers[i]? with
    | none =>
      simp only [Reports.step, hh]
      exact ht
    | some helper =>
      simp only [Reports.step, hh]
      intro j helper' hj hh'
      have hlt : i < st.helpers.length := (List.getElem?_eq_some_iff.mp hh).1
      rw [List.length_set, ← htimely, Nat.add_right_cancel_iff] at hj
      rw [hj, List.getElem?_set_self hlt] at hh'
      cases hh'
      simp only [ReliabilityMonitor.observe, ht.session htimely hh]
      rfl

section Sample

def upFor (seconds : UInt64) : RuntimeMetrics where
  counters c := if c = .uptimeSeconds then seconds else 0
  lastKeepaliveRttMs := 0
  maxKeepaliveRttMs := 0

def twoReports : List ReliabilityCall :=
  [.begin "p" .legacy, .observe 0 (upFor 300) 1, .observe 0 (upFor 305) 2]

theorem two_reports_exact :
    Machine.Obeys step Monotone (start ∅) twoReports ∧
      ∀ pre post, twoReports = pre ++ post → Exact ∅ ((start ∅).run pre) := by
  have hmono : Machine.Obeys step Monotone (start ∅) twoReports := by
    refine ⟨trivial, ?_, ?_, trivial⟩
    all_goals
      intro helper hh c
      cases hh
      cases c <;> decide +kernel
  refine ⟨hmono, (totals_exact_iff twoReports hmono).mpr
    ⟨⟨trivial, trivial⟩, ⟨?_, ?_⟩, ⟨?_, ?_⟩, trivial⟩⟩
  case refine_1 | refine_3 =>
    intro helper hh
    cases hh
    refine ⟨fun active hactive _ _ => ?_, fun hnone => absurd ⟨_, rfl, rfl, rfl⟩ hnone⟩
    cases hactive
    exact ⟨rfl, fun _ => Or.inl rfl⟩
  case refine_2 | refine_4 =>
    intro helper hh total
    cases hh
    cases total with
    | sessions => decide +kernel
    | counter c => cases c <;> decide +kernel

def lateReport : List ReliabilityCall :=
  [.begin "p" .legacy, .observe 0 (upFor 300) 1, .begin "p" .legacy, .observe 0 (upFor 305) 2]

theorem late_report_counted_twice :
    Machine.Obeys step Monotone (start ∅) lateReport ∧
      (((start ∅).run lateReport).monitor.stored.totals "p" .legacy).value
        (.counter .uptimeSeconds) = 605 ∧
      (((start ∅).run lateReport).monitor.stored.totals "p" .legacy).value .sessions = 2 ∧
      shares ((start ∅).run lateReport).helpers "p" .legacy (.counter .uptimeSeconds) = 305 ∧
      shares ((start ∅).run lateReport).helpers "p" .legacy .sessions = 1 := by
  refine ⟨⟨trivial, ?_, trivial, ?_, trivial⟩, by decide +kernel, by decide +kernel,
    by decide +kernel, by decide +kernel⟩
  all_goals
    intro helper hh c
    cases hh
    cases c <;> decide +kernel

end Sample

end Reports

end MouseVpn.Linux
