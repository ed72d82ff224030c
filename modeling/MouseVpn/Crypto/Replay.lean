import Mathlib.Data.Nat.Bitwise
import Mathlib.Data.UInt

/-!
# The circular-bitmap receive window

`ReplayWindow` keeps the highest authenticated sequence and a ring of 64-bit
words. A sequence owns one bit of the word `sequence / 64`, and that word lives
in the ring slot `word % 129`. Advancing into new words clears their slots
only; a jump past the whole ring clears everything.

The bitmap is read through `cell`, the bit of a word number, and each ring
operation has one equation for it.
-/

namespace MouseVpn.Crypto

def replayWindowSize : UInt64 := 8192

def wordBits : UInt64 := 64

def wordCount : ℕ := (replayWindowSize / wordBits).toNat + 1

theorem wordCount_eq : wordCount = 129 := by decide

inductive ReplayError
  | duplicate
  | tooOld
  deriving DecidableEq, Repr

structure ReplayWindow where
  highest : Option UInt64
  seen : Vector UInt64 wordCount
  deriving DecidableEq

namespace ReplayWindow

def default : ReplayWindow := ⟨none, Vector.replicate wordCount 0⟩

def mask (sequence : UInt64) : UInt64 := 1 <<< (sequence % wordBits)

def index (word : UInt64) : Fin wordCount :=
  ⟨word.toNat % wordCount, Nat.mod_lt _ (by decide)⟩

def put (seen : Vector UInt64 wordCount) (slot : Fin wordCount) (word : UInt64) :
    Vector UInt64 wordCount :=
  seen.set slot word slot.isLt

def ensureAcceptable (w : ReplayWindow) (sequence : UInt64) : Except ReplayError Unit :=
  match w.highest with
  | none => .ok ()
  | some highest =>
    if sequence > highest then .ok ()
    else if highest - sequence ≥ replayWindowSize then .error .tooOld
    else if w.seen.get (index (sequence / wordBits)) &&& mask sequence ≠ 0 then .error .duplicate
    else .ok ()

/-- The loop `for word in previous_word + 1..=next_word`, `n` iterations in. -/
def clearWords (seen : Vector UInt64 wordCount) (previousWord : UInt64) :
    ℕ → Vector UInt64 wordCount
  | 0 => seen
  | n + 1 =>
    put (clearWords seen previousWord n) (index (previousWord + 1 + UInt64.ofNat n)) 0

def markAuthenticated (w : ReplayWindow) (sequence : UInt64) : ReplayWindow :=
  let seen :=
    match w.highest with
    | none => w.seen
    | some highest =>
      if sequence > highest then
        let previousWord := highest / wordBits
        let nextWord := sequence / wordBits
        if nextWord - previousWord ≥ UInt64.ofNat wordCount then
          Vector.replicate wordCount 0
        else
          clearWords w.seen previousWord (nextWord - previousWord).toNat
      else w.seen
  let slot := index (sequence / wordBits)
  let seen := put seen slot (seen.get slot ||| mask sequence)
  match w.highest with
  | none => ⟨some sequence, seen⟩
  | some highest => ⟨some (if sequence > highest then sequence else highest), seen⟩

/-- Bit `bit` of the ring slot of word number `word`. -/
def cell (seen : Vector UInt64 wordCount) (word bit : ℕ) : Bool :=
  (seen.get ⟨word % wordCount, Nat.mod_lt _ (by decide)⟩).toNat.testBit bit

theorem mask_toNat (s : UInt64) : (mask s).toNat = 2 ^ (s.toNat % 64) := by
  have hlt : s.toNat % 64 < 64 := Nat.mod_lt _ (by decide)
  have hpow : 2 ^ (s.toNat % 64) < 2 ^ 64 := Nat.pow_lt_pow_right (by decide) hlt
  simp only [mask, wordBits, UInt64.toNat_shiftLeft, UInt64.toNat_mod, UInt64.reduceToNat]
  rw [Nat.mod_mod, Nat.one_shiftLeft, Nat.mod_eq_of_lt hpow]

theorem word_toNat (s : UInt64) : (s / wordBits).toNat = s.toNat / 64 := by
  simp [wordBits]

theorem index_word (s : UInt64) :
    index (s / wordBits) = ⟨s.toNat / 64 % wordCount, Nat.mod_lt _ (by decide)⟩ := by
  simp only [index, word_toNat]

theorem seen_mask_iff (seen : Vector UInt64 wordCount) (s : UInt64) :
    seen.get (index (s / wordBits)) &&& mask s ≠ 0 ↔
      cell seen (s.toNat / 64) (s.toNat % 64) = true := by
  rw [index_word, ← UInt64.toNat_inj.ne, UInt64.toNat_and, mask_toNat, Nat.and_two_pow]
  simp only [cell]
  cases (seen.get ⟨s.toNat / 64 % wordCount, _⟩).toNat.testBit (s.toNat % 64) <;> simp

@[simp] theorem cell_replicate (word bit : ℕ) :
    cell (Vector.replicate wordCount 0) word bit = false := by
  simp [cell, Vector.get]

theorem get_put (seen : Vector UInt64 wordCount) (i j : Fin wordCount) (x : UInt64) :
    (put seen i x).get j = if i = j then x else seen.get j := by
  change (seen.set i x i.isLt)[j.val] = _
  rw [Vector.getElem_set]
  simp only [Fin.ext_iff]
  rfl

theorem cell_put_zero (seen : Vector UInt64 wordCount) (w : UInt64) (word bit : ℕ) :
    cell (put seen (index w) 0) word bit = true ↔
      w.toNat % wordCount ≠ word % wordCount ∧ cell seen word bit = true := by
  simp only [cell, get_put, index, Fin.mk.injEq]
  split_ifs with h <;> simp [h]

theorem cell_put_mask (seen : Vector UInt64 wordCount) (s : UInt64) (word bit : ℕ) :
    cell (put seen (index (s / wordBits)) (seen.get (index (s / wordBits)) ||| mask s)) word bit
        = true ↔
      cell seen word bit = true ∨
        (s.toNat / 64 % wordCount = word % wordCount ∧ s.toNat % 64 = bit) := by
  simp only [cell, get_put, index_word, Fin.mk.injEq]
  split_ifs with h
  · simp only [UInt64.toNat_or, mask_toNat, Nat.testBit_or, Nat.testBit_two_pow, h, true_and,
      Bool.or_eq_true, decide_eq_true_eq]
  · simp [h]

theorem cell_clearWords (seen : Vector UInt64 wordCount) (p : UInt64) (n word bit : ℕ)
    (hp : p.toNat + n < 2 ^ 64) :
    cell (clearWords seen p n) word bit = true ↔
      (∀ w, p.toNat < w → w ≤ p.toNat + n → w % wordCount ≠ word % wordCount) ∧
        cell seen word bit = true := by
  induction n with
  | zero =>
    have hn : ∀ w, p.toNat < w → w ≤ p.toNat + 0 → w % wordCount ≠ word % wordCount := by
      intro w hw hle
      omega
    simp only [clearWords, and_iff_right hn]
  | succ n ih =>
    have hw : (p + 1 + UInt64.ofNat n).toNat = p.toNat + (n + 1) := by
      simp only [UInt64.toNat_add, UInt64.toNat_ofNat', UInt64.reduceToNat]
      omega
    simp only [clearWords]
    rw [cell_put_zero, ih (by omega), hw]
    -- The last iteration clears word `p + n + 1`; the earlier ones are the hypothesis.
    constructor
    · rintro ⟨hlast, hall, hc⟩
      refine ⟨fun w h1 h2 => ?_, hc⟩
      by_cases he : w = p.toNat + (n + 1)
      · rw [he]
        exact hlast
      · exact hall w h1 (by omega)
    · rintro ⟨hall, hc⟩
      exact ⟨hall _ (by omega) le_rfl, fun w h1 h2 => hall w h1 (by omega), hc⟩

end ReplayWindow

end MouseVpn.Crypto
