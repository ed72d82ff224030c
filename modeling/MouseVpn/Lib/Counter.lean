import MouseVpn.Lib.Machine
import Mathlib.Data.UInt

/-!
# Counters of 64 bits

A machine counts something in a word of 64 bits and wraps around silently. A run whose length does
not exceed what is left of the word never wraps, and along such a run the counter is a number.
-/

namespace MouseVpn.Lib.Counter

variable {m n : UInt64}

/-- The next increment does not wrap. -/
def Room (n : UInt64) : Prop := n.toNat + 1 < 2 ^ 64

theorem toNat_succ (room : Room n) : (n + 1).toNat = n.toNat + 1 := by
  rw [UInt64.toNat_add, UInt64.toNat_one]
  exact Nat.mod_eq_of_lt room

theorem toNat_succ_le (n : UInt64) : (n + 1).toNat ≤ n.toNat + 1 := by
  rw [UInt64.toNat_add, UInt64.toNat_one]
  exact Nat.mod_le _ _

theorem lt_succ_of_le (room : Room n) (h : m ≤ n) : m < n + 1 := by
  rw [UInt64.lt_iff_toNat_lt, toNat_succ room]
  exact Nat.lt_succ_of_le (UInt64.le_iff_toNat_le.mp h)

theorem le_succ_of_le (room : Room n) (h : m ≤ n) : m ≤ n + 1 :=
  UInt64.le_of_lt (lt_succ_of_le room h)

theorem lt_succ_of_lt (room : Room n) (h : m < n) : m < n + 1 :=
  lt_succ_of_le room (UInt64.le_of_lt h)

section Run

variable {σ ι ο : Type*} {step : σ → ι → σ × ο} {count : σ → UInt64}
  (counts : ∀ s i, count (step s i).1 = count s ∨ count (step s i).1 = count s + 1)
include counts

theorem toNat_run_le (s : σ) (is : List ι) :
    (count (Machine.run step s is)).toNat ≤ (count s).toNat + is.length := by
  refine Machine.run_induction step
    (fun past s' => (count s').toNat ≤ (count s).toNat + past.length) (Nat.le_refl _) ?_ is
  intro past i hpast
  rw [List.length_append, List.length_singleton]
  rcases counts (Machine.run step s past) i with h | h
  · rw [h]
    omega
  · have hnext := toNat_succ_le (count (Machine.run step s past))
    rw [h]
    omega

theorem obeys_room {s : σ} {is : List ι} (few : (count s).toNat + is.length < 2 ^ 64) :
    Machine.Obeys step (fun s _ => Room (count s)) s is := by
  induction is generalizing s with
  | nil => trivial
  | cons i is ih =>
    rw [List.length_cons] at few
    have hnext : (count (step s i).1).toNat ≤ (count s).toNat + 1 := by
      rcases counts s i with h | h
      · exact h ▸ Nat.le_succ _
      · exact h ▸ toNat_succ_le _
    exact ⟨by unfold Room; omega, ih (by omega)⟩

theorem run_invariant (Inv : σ → Prop)
    (next : ∀ s i, Inv s → Room (count s) → Inv (step s i).1) {s : σ} (hs : Inv s) {is : List ι}
    (few : (count s).toNat + is.length < 2 ^ 64) : Inv (Machine.run step s is) :=
  Machine.run_invariant_of_obeys step Inv next hs (obeys_room counts few)

end Run

end MouseVpn.Lib.Counter
