import Mathlib.Algebra.BigOperators.Group.List.Basic
import Mathlib.Algebra.GroupWithZero.Nat

/-!
# A ledger of parcels

A parcel has an account and a size, which it keeps, and a place, which changes. What an account
has at some places is the sum of the sizes of its parcels there, so that nothing is lost or
doubled by moving parcels.
-/

namespace MouseVpn.Lib.Ledger

structure Parcel (α π : Type) where
  account : α
  place : π
  size : ℕ
  deriving DecidableEq, Repr

variable {α π : Type} [DecidableEq α]

def Parcel.share (p : Parcel α π) (account : α) (P : π → Bool) : ℕ :=
  if p.account = account ∧ P p.place = true then p.size else 0

/-- What the account has at the places in `P`. -/
def held (parcels : List (Parcel α π)) (account : α) (P : π → Bool) : ℕ :=
  (parcels.map fun p => p.share account P).sum

def total (parcels : List (Parcel α π)) (account : α) : ℕ := held parcels account fun _ => true

def relocate (next : α → π → π) (parcels : List (Parcel α π)) : List (Parcel α π) :=
  parcels.map fun p => { p with place := next p.account p.place }

theorem share_false (p : Parcel α π) (account : α) {P : π → Bool} (h : P p.place = false) :
    p.share account P = 0 := by
  rw [Parcel.share, h, if_neg fun hp => Bool.noConfusion hp.2]

theorem held_cons (p : Parcel α π) (parcels : List (Parcel α π)) (account : α) (P : π → Bool) :
    held (p :: parcels) account P = p.share account P + held parcels account P := by
  rw [held, List.map_cons, List.sum_cons]
  rfl

variable (parcels : List (Parcel α π)) (account : α)

theorem held_append (more : List (Parcel α π)) (P : π → Bool) :
    held (parcels ++ more) account P = held parcels account P + held more account P := by
  rw [held, List.map_append, List.sum_append]
  rfl

theorem held_singleton (p : Parcel α π) (P : π → Bool) :
    held [p] account P = p.share account P := by
  rw [held_cons]
  rfl

theorem held_false : held parcels account (fun _ => false) = 0 := by
  induction parcels with
  | nil => rfl
  | cons p parcels ih => rw [held_cons, ih, share_false p account rfl]

theorem held_relocate (next : α → π → π) (P : π → Bool) :
    held (relocate next parcels) account P =
      held parcels account fun place => P (next account place) := by
  induction parcels with
  | nil => rfl
  | cons p parcels ih =>
    rw [held_cons, ← ih, relocate, List.map_cons, held_cons]
    congr 1
    by_cases h : p.account = account
    · rw [Parcel.share, Parcel.share, h]
    · rw [Parcel.share, Parcel.share, if_neg fun hp => h hp.1, if_neg fun hp => h hp.1]

theorem total_relocate (next : α → π → π) :
    total (relocate next parcels) account = total parcels account :=
  held_relocate parcels account next _

theorem held_or {P Q : π → Bool} (disjoint : ∀ place, P place = true → Q place = false) :
    held parcels account (fun place => P place || Q place) =
      held parcels account P + held parcels account Q := by
  induction parcels with
  | nil => rfl
  | cons p parcels ih =>
    have hshare : p.share account (fun place => P place || Q place) =
        p.share account P + p.share account Q := by
      by_cases hP : P p.place = true
      · simp [Parcel.share, hP, disjoint _ hP]
      · simp [Parcel.share, hP]
    rw [held_cons, held_cons, held_cons, ih, hshare]
    omega

theorem held_mono {P Q : π → Bool} (h : ∀ place, P place = true → Q place = true) :
    held parcels account P ≤ held parcels account Q := by
  induction parcels with
  | nil => exact Nat.le_refl 0
  | cons p parcels ih =>
    rw [held_cons, held_cons]
    apply Nat.add_le_add _ ih
    by_cases hp : p.account = account ∧ P p.place = true
    · simp [Parcel.share, hp, h p.place hp.2]
    · rw [Parcel.share, if_neg hp]
      exact Nat.zero_le _

theorem held_le_total (P : π → Bool) : held parcels account P ≤ total parcels account :=
  held_mono parcels account fun _ _ => rfl

omit [DecidableEq α] in
theorem sum_range_ite (i n size : ℕ) :
    ((List.range n).map fun j => if i = j then size else 0).sum = if i < n then size else 0 := by
  induction n with
  | zero => rfl
  | succ n ih =>
    rw [List.range_succ, List.map_append, List.sum_append, ih, List.map_singleton,
      List.sum_singleton]
    split_ifs <;> omega

theorem sum_held_index (index : π → Option ℕ) {n : ℕ}
    (bound : ∀ p ∈ parcels, ∀ i, index p.place = some i → i < n) :
    ((List.range n).map fun i => held parcels account fun place => index place == some i).sum =
      held parcels account fun place => (index place).isSome := by
  induction parcels with
  | nil => simp [held]
  | cons p parcels ih =>
    have hrest := ih fun q hq => bound q (List.mem_cons_of_mem p hq)
    have hshare : ((List.range n).map fun i =>
        p.share account fun place => index place == some i).sum =
        p.share account fun place => (index place).isSome := by
      by_cases h : p.account = account
      · rcases hi : index p.place with _ | i
        · simp [Parcel.share, hi]
        · have hlt := bound p List.mem_cons_self i hi
          have hterm : ∀ j, p.share account (fun place => index place == some j) =
              if i = j then p.size else 0 := by
            intro j
            simp [Parcel.share, hi, h]
          simp only [hterm]
          rw [sum_range_ite, if_pos hlt]
          simp [Parcel.share, hi, h]
      · simp [Parcel.share, h]
    simp only [held_cons]
    rw [List.sum_map_add, hrest, hshare]

theorem held_eq_sum_range {n : ℕ} (h : parcels.length ≤ n) (P : π → Bool) :
    held parcels account P =
      ((List.range n).map fun i => parcels[i]?.elim 0 fun p => p.share account P).sum := by
  induction parcels generalizing n with
  | nil => simp [held]
  | cons p parcels ih =>
    obtain ⟨m, rfl⟩ : ∃ m, n = m + 1 := ⟨n - 1, by rw [List.length_cons] at h; omega⟩
    have hm : parcels.length ≤ m := Nat.le_of_succ_le_succ h
    rw [held_cons, ih hm, List.range_succ_eq_map, List.map_cons, List.sum_cons, List.map_map]
    rfl

section Move

variable [DecidableEq π]

def heldAt (parcels : List (Parcel α π)) (account : α) (place : π) : ℕ :=
  held parcels account fun p => p == place

def move (account : α) (source target : π) (parcels : List (Parcel α π)) : List (Parcel α π) :=
  relocate (fun a p => if a = account ∧ p = source then target else p) parcels

variable {account} {source target : π}

theorem held_move_of_not {P : π → Bool} (hsource : P source = false) (htarget : P target = false)
    (a : α) : held (move account source target parcels) a P = held parcels a P := by
  rw [move, held_relocate]
  congr 1
  funext place
  split_ifs with h
  · rw [h.2, hsource, htarget]
  · rfl

theorem held_move_ne {a : α} (hne : a ≠ account) (P : π → Bool) :
    held (move account source target parcels) a P = held parcels a P := by
  rw [move, held_relocate]
  congr 1
  funext place
  rw [if_neg fun h => hne h.1]

theorem heldAt_move_source (hne : target ≠ source) :
    heldAt (move account source target parcels) account source = 0 := by
  rw [heldAt, move, held_relocate, ← held_false parcels account]
  congr 1
  funext place
  by_cases h : place = source
  · simp [h, hne]
  · simp [h]

theorem heldAt_move_target (hne : target ≠ source) :
    heldAt (move account source target parcels) account target =
      heldAt parcels account target + heldAt parcels account source := by
  rw [heldAt, move, held_relocate, heldAt, heldAt, ← held_or]
  · congr 1
    funext place
    by_cases h : place = source
    · simp [h]
    · simp [h]
  · intro place h
    simpa [eq_of_beq h] using hne

theorem heldAt_move (hne : target ≠ source) (a : α) (place : π) :
    heldAt (move account source target parcels) a place =
      if account = a then
        if place = source then 0
        else if place = target then heldAt parcels a target + heldAt parcels a source
        else heldAt parcels a place
      else heldAt parcels a place := by
  split_ifs with ha hs ht
  · rw [← ha, hs, heldAt_move_source parcels hne]
  · rw [← ha, ht, heldAt_move_target parcels hne]
  · apply held_move_of_not parcels
    · exact beq_false_of_ne (Ne.symm hs)
    · exact beq_false_of_ne (Ne.symm ht)
  · exact held_move_ne parcels (Ne.symm ha) _

end Move

end MouseVpn.Lib.Ledger
