import MouseVpn.Crypto.ReplayRefinement
import MouseVpn.Lib.RustStd

/-!
# Loss on the way to the Windows client

`Sequence` counts the gaps in the numbers of the datagrams that the receiver has accepted. It
takes a number far behind the highest one for the beginning of another session and starts again.
What the receiver accepts is decided by the replay window, which reaches further back.
-/

namespace MouseVpn.Windows

open MouseVpn.Lib MouseVpn.Crypto

def reorderWindow : UInt64 := 4096

/-- The field `highest` is one past the highest number, so that zero means nothing yet. -/
structure Sequence where
  highest : UInt64
  received : UInt64
  reportedHighest : UInt64
  reportedReceived : UInt64
  deriving DecidableEq, Repr

namespace Sequence

def default : Sequence := ⟨0, 0, 0, 0⟩

def position (sequence : UInt64) : UInt64 := saturatingAdd sequence 1

def Restarts (s : Sequence) (sequence : UInt64) : Prop :=
  saturatingSub s.highest (position sequence) > reorderWindow

instance (s : Sequence) (sequence : UInt64) : Decidable (s.Restarts sequence) :=
  inferInstanceAs (Decidable (_ > _))

def observe (s : Sequence) (sequence : UInt64) : Sequence :=
  let s := if s.Restarts sequence then default else s
  { s with
    highest := max s.highest (position sequence)
    received := saturatingAdd s.received 1 }

def interval (s : Sequence) : Sequence × (UInt64 × UInt64) :=
  let expected := saturatingSub s.highest s.reportedHighest
  let received := saturatingSub s.received s.reportedReceived
  ({ s with reportedHighest := s.highest, reportedReceived := s.received },
    (expected, saturatingSub expected received))

end Sequence

inductive ReceiveEvent
  | datagram (sequence : UInt64)
  | report
  deriving DecidableEq, Repr

structure Measurement where
  window : ReplayWindow
  sequence : Sequence
  reports : List (UInt64 × UInt64)

namespace Measurement

def start : Measurement := ⟨.default, .default, []⟩

def step (m : Measurement) (event : ReceiveEvent) : Measurement × Unit :=
  (match event with
    | .datagram sequence =>
      match m.window.ensureAcceptable sequence with
      | .error _ => m
      | .ok () =>
        { m with
          window := m.window.markAuthenticated sequence
          sequence := m.sequence.observe sequence }
    | .report =>
      { m with
        sequence := m.sequence.interval.1
        reports := m.reports ++ [m.sequence.interval.2] }, ())

def run (m : Measurement) (events : List ReceiveEvent) : Measurement := Machine.run step m events

def expected (m : Measurement) : ℕ := (m.reports.map fun report => report.1.toNat).sum

def accepted (m : Measurement) : ℕ := (m.window.highest.map fun h => h.toNat + 1).getD 0

/-- An accepted datagram does not restart the measurement, and after a report the expected counts
add up to the numbers so far. -/
def Measures (m : Measurement) : ReceiveEvent → Prop
  | .datagram sequence =>
    m.window.ensureAcceptable sequence = .ok () → ¬ m.sequence.Restarts sequence
  | .report => (m.step .report).1.expected = m.accepted

/-- An accepted datagram is at most `reorderWindow` behind the highest one, and at a report the
highest number is not the last one that there is. -/
def Near (m : Measurement) : ReceiveEvent → Prop
  | .datagram sequence => m.window.ensureAcceptable sequence = .ok () →
      ∀ h, m.window.highest = some h →
        (Sequence.position h).toNat ≤ (Sequence.position sequence).toNat + 4096
  | .report => ∀ h, m.window.highest = some h → h.toNat + 1 < 2 ^ 64

structure Whole (m : Measurement) : Prop where
  highest : m.sequence.highest.toNat =
    (m.window.highest.map fun h => (Sequence.position h).toNat).getD 0
  reported : m.expected = m.sequence.reportedHighest.toNat
  ordered : m.sequence.reportedHighest.toNat ≤ m.sequence.highest.toNat

variable {m : Measurement}

theorem position_toNat (sequence : UInt64) :
    (Sequence.position sequence).toNat = min (sequence.toNat + 1) (2 ^ 64 - 1) :=
  saturatingAdd_one_toNat sequence

theorem restarts_iff (s : Sequence) (sequence : UInt64) : s.Restarts sequence ↔
    (Sequence.position sequence).toNat + 4096 < s.highest.toNat := by
  have hwindow : reorderWindow.toNat = 4096 := rfl
  rw [Sequence.Restarts, gt_iff_lt, UInt64.lt_iff_toNat_lt, saturatingSub_toNat, hwindow]
  omega

theorem expected_report (m : Measurement) : (m.step .report).1.expected =
    m.expected + (m.sequence.highest.toNat - m.sequence.reportedHighest.toNat) := by
  rw [expected, step, List.map_append, List.sum_append, List.map_singleton, List.sum_singleton,
    Sequence.interval, saturatingSub_toNat]
  rfl

theorem Whole.start : Whole Measurement.start := ⟨rfl, rfl, Nat.le_refl 0⟩

theorem Whole.measures_iff (hw : m.Whole) (event : ReceiveEvent) :
    m.Measures event ↔ m.Near event := by
  cases event with
  | datagram sequence =>
    simp only [Measures, Near, restarts_iff, hw.highest, Nat.not_lt]
    cases m.window.highest with
    | none => simp
    | some h => simp
  | report =>
    have hordered := hw.ordered
    rw [Measures, Near, expected_report, hw.reported, Nat.add_sub_cancel' hordered, hw.highest,
      accepted]
    cases m.window.highest with
    | none => simp
    | some h =>
      simp only [Option.map_some, Option.getD_some, Option.some.injEq, forall_eq', position_toNat]
      omega

theorem highest_markAuthenticated (w : ReplayWindow) (sequence : UInt64) :
    (w.markAuthenticated sequence).highest =
      some (w.highest.elim sequence fun h => if sequence > h then sequence else h) := by
  unfold ReplayWindow.markAuthenticated
  cases w.highest <;> rfl

theorem position_max (h sequence : UInt64) :
    (Sequence.position (if sequence > h then sequence else h)).toNat =
      max (Sequence.position h).toNat (Sequence.position sequence).toNat := by
  rw [position_toNat, position_toNat, position_toNat]
  split_ifs with hlt
  · rw [gt_iff_lt, UInt64.lt_iff_toNat_lt] at hlt
    omega
  · rw [gt_iff_lt, UInt64.lt_iff_toNat_lt] at hlt
    omega

theorem Whole.step (hw : m.Whole) {event : ReceiveEvent} (hn : m.Near event) :
    (m.step event).1.Whole := by
  cases event with
  | datagram sequence =>
    cases haccept : m.window.ensureAcceptable sequence with
    | error e =>
      simp only [Measurement.step, haccept]
      exact hw
    | ok u =>
      have hkeeps : ¬ m.sequence.Restarts sequence :=
        (hw.measures_iff (.datagram sequence)).mpr hn haccept
      simp only [Measurement.step, haccept, Sequence.observe, if_neg hkeeps]
      refine ⟨?_, hw.reported, ?_⟩
      · simp only [UInt64.toNat_max, hw.highest, highest_markAuthenticated]
        cases m.window.highest with
        | none => simp
        | some h => simp [position_max]
      · simp only [UInt64.toNat_max]
        exact hw.ordered.trans (Nat.le_max_left _ _)
  | report =>
    refine ⟨hw.highest, ?_, Nat.le_refl _⟩
    rw [expected_report, hw.reported, Nat.add_sub_cancel' hw.ordered]
    rfl

/-- Over every session, the measurement is never restarted and the reports add up exactly if no
accepted datagram is further behind than `reorderWindow`. -/
theorem loss_measured_iff (events : List ReceiveEvent) :
    Machine.Obeys step Measures start events ↔ Machine.Obeys step Near start events :=
  Machine.obeys_congr_of_invariant step Whole (fun _ event hw => hw.measures_iff event)
    (fun _ _ hw hn => hw.step hn) Whole.start

def numbers (events : List ReceiveEvent) : List UInt64 :=
  events.filterMap fun
    | .datagram sequence => some sequence
    | .report => none

theorem window_run (m : Measurement) (events : List ReceiveEvent) :
    (m.run events).window = Machine.run ReplayWindow.receive m.window (numbers events) := by
  induction events generalizing m with
  | nil => rfl
  | cons event events ih =>
    have hrest := ih (m.step event).1
    cases event with
    | report => exact hrest
    | datagram sequence =>
      have hstep : (m.step (.datagram sequence)).1.window = (m.window.receive sequence).1 := by
        simp only [Measurement.step, ReplayWindow.receive]
        cases m.window.ensureAcceptable sequence <;> rfl
      rw [hstep] at hrest
      exact hrest

/-- What the replay window still accepts and is more than `reorderWindow` behind restarts the
measurement. -/
theorem late_datagram_restarts {events : List ReceiveEvent}
    (hnear : Machine.Obeys step Near start events) {h : ℕ}
    (hh : SlidingWindow.Highest (ReplayWindow.marksOf (numbers events)) h) {sequence : UInt64}
    (hnew : sequence.toNat ∉ ReplayWindow.marksOf (numbers events)) (htop : h + 1 < 2 ^ 64)
    (hlate : 4096 < h - sequence.toNat) (hinside : h - sequence.toNat < 8192) :
    (start.run events).window.ensureAcceptable sequence = .ok () ∧
      (start.run events).sequence.Restarts sequence := by
  have hwindow : (start.run events).window = ReplayWindow.windowAfter (numbers events) :=
    window_run start events
  refine ⟨?_, ?_⟩
  · obtain ⟨-, -, -, hok, -⟩ := ReplayWindow.replayWindow_refines (numbers events) sequence
    rw [hwindow, hok]
    refine ⟨hnew, ?_⟩
    intro h' hh' _
    rwa [hh'.unique hh]
  · have hwhole : (start.run events).Whole :=
      Machine.run_invariant_of_obeys step Whole (fun _ _ hw hn => hw.step hn) Whole.start hnear
    obtain ⟨hr, -⟩ := ReplayWindow.run_represents (numbers events)
    rw [restarts_iff, hwhole.highest, hwindow]
    cases hhighest : (ReplayWindow.windowAfter (numbers events)).highest with
    | none =>
      have hempty := (hr.empty hhighest).1
      rw [List.reverse_eq_nil_iff] at hempty
      have hmem : h ∈ ReplayWindow.marksOf (numbers events) := hh.1
      rw [ReplayWindow.marksOf, hempty] at hmem
      cases hmem
    | some top =>
      have htopmost : SlidingWindow.Highest (ReplayWindow.marksOf (numbers events)) top.toNat := by
        have hreverse := hr.highest top hhighest
        simp only [SlidingWindow.Highest, List.mem_reverse] at hreverse
        exact hreverse
      rw [Option.map_some, Option.getD_some, position_toNat, position_toNat, htopmost.unique hh]
      omega

section Sample

def reordered : List ReceiveEvent := [.datagram 5000, .report, .datagram 100, .report]

/-- A datagram of the same session that arrives 4900 numbers late. -/
theorem late_datagram_counted_again :
    (start.run [.datagram 5000, .report]).window.ensureAcceptable 100 = .ok () ∧
      (start.run [.datagram 5000, .report]).sequence.Restarts 100 ∧
      (start.run reordered).reports = [(5001, 5000), (101, 100)] ∧
      (start.run reordered).expected = 5102 ∧ (start.run reordered).accepted = 5001 := by
  decide +kernel

theorem late_datagram_restarts_sample :
    (start.run [.datagram 5000, .report]).window.ensureAcceptable 100 = .ok () ∧
      (start.run [.datagram 5000, .report]).sequence.Restarts 100 := by
  have hnear : Machine.Obeys step Near start [.datagram 5000, .report] := by
    refine ⟨?_, ?_, trivial⟩
    · intro _ h hh
      cases hh
    · intro h hh
      cases hh
      decide
  have hmarks : ReplayWindow.marksOf (numbers [.datagram 5000, .report]) = [5000] := by
    decide +kernel
  refine late_datagram_restarts hnear (h := 5000) ?_ ?_ (by decide) (by decide) (by decide)
  · simp [SlidingWindow.Highest, hmarks]
  · simp [hmarks]

end Sample

end Measurement

end MouseVpn.Windows
