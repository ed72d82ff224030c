import Mathlib.Data.List.GetD
import Mathlib.Data.Nat.Notation
import Mathlib.Logic.Function.Basic
import Mathlib.Tactic.SplitIfs

/-!
# Leases with shared flags

A book maps each key to the flag of its current lease. Copies of leases are held
by anyone who has ever read them, and all copies of one lease share its flag. The
book is sound if a set flag means that the copy is of the current lease of its key.
Clearing the flag of a lease when it is struck from the book then disables every
copy, also those that were taken before and are used later.
-/

namespace MouseVpn.Lib

variable {κ : Type*} [DecidableEq κ]

/-- `held k c`: somebody holds a copy of a lease of `k` with flag `c`. -/
structure SoundLeases (current : κ → Option ℕ) (flags : List Bool) (held : κ → ℕ → Prop) :
    Prop where
  inRange : ∀ k c, held k c → c < flags.length
  live : ∀ k c, held k c → flags.getD c false = true → current k = some c

namespace SoundLeases

variable {current : κ → Option ℕ} {flags : List Bool} {held : κ → ℕ → Prop}

omit [DecidableEq κ] in
theorem mono (h : SoundLeases current flags held) {held' : κ → ℕ → Prop}
    (hle : ∀ k c, held' k c → held k c) : SoundLeases current flags held' :=
  ⟨fun k c hh => h.inRange k c (hle k c hh), fun k c hh => h.live k c (hle k c hh)⟩

def cleared (current : κ → Option ℕ) (flags : List Bool) (k : κ) : List Bool :=
  match current k with
  | some c => flags.set c false
  | none => flags

omit [DecidableEq κ] in
@[simp] theorem cleared_length (k : κ) : (cleared current flags k).length = flags.length := by
  unfold cleared
  split <;> simp

omit [DecidableEq κ] in
theorem getD_cleared {k : κ} {c : ℕ} (h : (cleared current flags k).getD c false = true) :
    flags.getD c false = true ∧ current k ≠ some c := by
  unfold cleared at h
  cases hk : current k with
  | none =>
    simp only [hk] at h
    exact ⟨h, by simp⟩
  | some c' =>
    simp only [hk, List.getD_eq_getElem?_getD, List.getElem?_set] at h
    by_cases hc : c' = c
    · rw [if_pos hc] at h
      split_ifs at h <;> cases h
    · rw [if_neg hc, ← List.getD_eq_getElem?_getD] at h
      exact ⟨h, by simpa using hc⟩

theorem strike (h : SoundLeases current flags held) (k : κ) :
    SoundLeases (Function.update current k none) (cleared current flags k) held := by
  refine ⟨fun k' c hh => by simpa using h.inRange k' c hh, fun k' c hh hf => ?_⟩
  obtain ⟨hf, hne⟩ := getD_cleared hf
  have hcur := h.live k' c hh hf
  by_cases hk : k' = k
  · rw [hk] at hcur
    exact absurd hcur hne
  · rw [Function.update_of_ne hk]
    exact hcur

theorem grant (h : SoundLeases current flags held) {k : κ}
    (hk : ∀ c, held k c → current k ≠ some c) :
    SoundLeases (Function.update current k (some flags.length)) (flags ++ [true])
      (fun k' c => held k' c ∨ k' = k ∧ c = flags.length) := by
  constructor
  · rintro k' c (hh | ⟨-, rfl⟩)
    · have := h.inRange k' c hh
      simp only [List.length_append, List.length_singleton]
      omega
    · simp
  · rintro k' c (hh | ⟨rfl, rfl⟩) hf
    · rw [List.getD_append _ _ _ _ (h.inRange k' c hh)] at hf
      have hcur := h.live k' c hh hf
      have hne : k' ≠ k := by
        rintro rfl
        exact hk c hh hcur
      rw [Function.update_of_ne hne]
      exact hcur
    · exact Function.update_self ..

end SoundLeases

end MouseVpn.Lib
