import Mathlib.Data.Finset.Max
import Mathlib.Data.List.MinMax

/-!
# Set-based sliding receive window

The specification of a receiver that accepts each number at most once and
forgets what lies `width` or more behind the highest number it has marked. It
keeps every marked number; an implementation may keep only the window.
-/

namespace MouseVpn.Lib.SlidingWindow

inductive Verdict
  | fresh
  | duplicate
  | tooOld
  deriving DecidableEq, Repr

def Highest (marked : List ℕ) (h : ℕ) : Prop := IsGreatest {m | m ∈ marked} h

variable (width : ℕ)

def judge (marked : List ℕ) (s : ℕ) : Verdict :=
  if ∃ h ∈ marked, s + width ≤ h then .tooOld
  else if s ∈ marked then .duplicate
  else .fresh

theorem Highest.unique {marked : List ℕ} {h h' : ℕ} (hh : Highest marked h)
    (hh' : Highest marked h') : h = h' := IsGreatest.unique hh hh'

theorem exists_highest {marked : List ℕ} {m : ℕ} (hm : m ∈ marked) :
    ∃ h, Highest marked h := by
  have hf : (marked.toFinset : Finset ℕ).Nonempty := ⟨m, by simpa using hm⟩
  refine ⟨marked.toFinset.max' hf, ?_, ?_⟩
  · simpa using marked.toFinset.max'_mem hf
  · intro x hx
    exact marked.toFinset.le_max' x (by simpa using hx)

theorem highest_cons_of_lt {marked : List ℕ} {h s : ℕ} (hh : Highest marked h) (hs : h < s) :
    Highest (s :: marked) s := by
  refine ⟨by simp, ?_⟩
  intro m hm
  rcases List.mem_cons.mp hm with rfl | hm
  · exact le_rfl
  · exact (hh.2 hm).trans hs.le

theorem highest_cons_of_le {marked : List ℕ} {h s : ℕ} (hh : Highest marked h) (hs : s ≤ h) :
    Highest (s :: marked) h := by
  refine ⟨List.mem_cons_of_mem _ hh.1, ?_⟩
  intro m hm
  rcases List.mem_cons.mp hm with rfl | hm
  · exact hs
  · exact hh.2 hm

theorem behind_iff {marked : List ℕ} {h s : ℕ} (hh : Highest marked h) :
    (∃ m ∈ marked, s + width ≤ m) ↔ s + width ≤ h := by
  constructor
  · rintro ⟨m, hm, hs⟩
    exact hs.trans (hh.2 hm)
  · intro hs
    exact ⟨h, hh.1, hs⟩

theorem judge_tooOld_iff (marked : List ℕ) (s : ℕ) :
    judge width marked s = .tooOld ↔ ∃ h, Highest marked h ∧ s ≤ h ∧ width ≤ h - s := by
  have hj : judge width marked s = .tooOld ↔ ∃ h ∈ marked, s + width ≤ h := by
    unfold judge
    split_ifs <;> simp_all
  rw [hj]
  constructor
  · rintro ⟨m, hm, hs⟩
    obtain ⟨h, hh⟩ := exists_highest hm
    have hmh : m ≤ h := hh.2 hm
    exact ⟨h, hh, by omega, by omega⟩
  · rintro ⟨h, hh, hs, hw⟩
    exact ⟨h, hh.1, by omega⟩

theorem judge_duplicate_iff (marked : List ℕ) (s : ℕ) :
    judge width marked s = .duplicate ↔ s ∈ marked ∧ ∃ h, Highest marked h ∧ h - s < width := by
  have hj : judge width marked s = .duplicate ↔
      s ∈ marked ∧ ¬ ∃ h ∈ marked, s + width ≤ h := by
    unfold judge
    split_ifs <;> simp_all
  rw [hj]
  constructor
  · rintro ⟨hs, hn⟩
    obtain ⟨h, hh⟩ := exists_highest hs
    refine ⟨hs, h, hh, ?_⟩
    have hsh : s ≤ h := hh.2 hs
    have hw : ¬ s + width ≤ h := fun hw => hn ⟨h, hh.1, hw⟩
    omega
  · rintro ⟨hs, h, hh, hw⟩
    refine ⟨hs, ?_⟩
    rw [behind_iff width hh]
    have hsh : s ≤ h := hh.2 hs
    omega

theorem judge_fresh_iff (marked : List ℕ) (s : ℕ) :
    judge width marked s = .fresh ↔
      s ∉ marked ∧ ∀ h, Highest marked h → s ≤ h → h - s < width := by
  constructor
  · intro hf
    constructor
    · intro hs
      obtain ⟨h, hh⟩ := exists_highest hs
      have hd : judge width marked s ≠ .duplicate := by simp [hf]
      have ho : judge width marked s ≠ .tooOld := by simp [hf]
      rw [Ne, judge_duplicate_iff] at hd
      rw [Ne, judge_tooOld_iff] at ho
      by_cases hw : h - s < width
      · exact hd ⟨hs, h, hh, hw⟩
      · exact ho ⟨h, hh, hh.2 hs, by omega⟩
    · intro h hh hs
      have ho : judge width marked s ≠ .tooOld := by simp [hf]
      rw [Ne, judge_tooOld_iff] at ho
      by_contra hw
      exact ho ⟨h, hh, hs, by omega⟩
  · rintro ⟨hs, hw⟩
    cases hv : judge width marked s with
    | fresh => rfl
    | duplicate => exact absurd ((judge_duplicate_iff width marked s).mp hv).1 hs
    | tooOld =>
      obtain ⟨h, hh, hle, hge⟩ := (judge_tooOld_iff width marked s).mp hv
      have := hw h hh hle
      omega

end MouseVpn.Lib.SlidingWindow
