import Mathlib.Data.Nat.Bitwise
import Mathlib.Data.UInt

/-!
# Network masks

A mask with `k` zeros at the end keeps the quotient by `2 ^ k`. The numbers from the
masked value up to its bitwise union with the complement of the mask are those with the
same quotient, so all of them have the same masked value.
-/

namespace MouseVpn.Lib.Netmask

/-- The mask whose last `k` bits are zero. -/
def mask (k : UInt32) : UInt32 := 0xFFFFFFFF <<< k

variable {k x t : UInt32}

theorem and_shiftLeft_ones (n k m : ℕ) (h : n < 2 ^ (k + m)) :
    n &&& ((2 ^ m - 1) <<< k) = n / 2 ^ k * 2 ^ k := by
  apply Nat.eq_of_testBit_eq
  intro i
  rw [Nat.testBit_and, Nat.testBit_shiftLeft, Nat.testBit_two_pow_sub_one, ← Nat.shiftLeft_eq,
    Nat.testBit_shiftLeft, ← Nat.shiftRight_eq_div_pow, Nat.testBit_shiftRight]
  by_cases hi : k ≤ i
  · simp only [hi, decide_true, Bool.true_and, Nat.add_sub_cancel' hi]
    by_cases hm : i - k < m
    · simp [hm]
    · have hlt : n < 2 ^ i := lt_of_lt_of_le h (Nat.pow_le_pow_right (by decide) (by omega))
      simp [Nat.testBit_lt_two_pow hlt]
  · simp [hi]

theorem mask_toNat (h : k.toNat < 32) : (mask k).toNat = (2 ^ (32 - k.toNat) - 1) <<< k.toNat := by
  have hones : (0xFFFFFFFF : UInt32).toNat = 2 ^ 32 - 1 := rfl
  have hsplit : 2 ^ (32 - k.toNat) * 2 ^ k.toNat = 2 ^ 32 := by
    rw [← Nat.pow_add, Nat.sub_add_cancel h.le]
  have hpos : 0 < 2 ^ k.toNat := Nat.two_pow_pos _
  have hle : 2 ^ k.toNat ≤ 2 ^ 32 := Nat.pow_le_pow_right (by decide) h.le
  -- the bits that leave the word are a multiple of `2 ^ 32`
  have hshift : (2 ^ 32 - 1) * 2 ^ k.toNat =
      (2 ^ 32 - 2 ^ k.toNat) + 2 ^ 32 * (2 ^ k.toNat - 1) := by
    generalize 2 ^ k.toNat = p at hpos hle ⊢
    omega
  rw [mask, UInt32.toNat_shiftLeft, Nat.mod_eq_of_lt h, hones, Nat.shiftLeft_eq, Nat.shiftLeft_eq,
    hshift, Nat.add_mul_mod_self_left, Nat.mod_eq_of_lt (by omega), Nat.sub_mul, hsplit, one_mul]

theorem and_mask_toNat (h : k.toNat < 32) :
    (x &&& mask k).toNat = x.toNat / 2 ^ k.toNat * 2 ^ k.toNat := by
  rw [UInt32.toNat_and, mask_toNat h, and_shiftLeft_ones]
  rw [Nat.add_sub_cancel' h.le]
  exact x.toNat_lt

theorem not_mask_toNat (h : k.toNat < 32) : (~~~mask k).toNat = 2 ^ k.toNat - 1 := by
  have hsplit : 2 ^ (32 - k.toNat) * 2 ^ k.toNat = 2 ^ 32 := by
    rw [← Nat.pow_add, Nat.sub_add_cancel h.le]
  have hle : 2 ^ k.toNat ≤ 2 ^ 32 := Nat.pow_le_pow_right (by decide) h.le
  rw [UInt32.toNat_not, mask_toNat h, Nat.shiftLeft_eq, Nat.sub_mul, hsplit, one_mul]
  have hsize : UInt32.size = 2 ^ 32 := rfl
  omega

theorem broadcast_toNat (h : k.toNat < 32) :
    ((t &&& mask k) ||| ~~~mask k).toNat = (t &&& mask k).toNat + (2 ^ k.toNat - 1) := by
  rw [UInt32.toNat_or, not_mask_toNat h, and_mask_toNat h, Nat.mul_comm,
    ← Nat.two_pow_add_eq_or_of_lt (by have := Nat.two_pow_pos k.toNat; omega)]

theorem and_mask_eq_of_between (h : k.toNat < 32) (hlow : (t &&& mask k).toNat ≤ x.toNat)
    (hhigh : x.toNat ≤ ((t &&& mask k) ||| ~~~mask k).toNat) : x &&& mask k = t &&& mask k := by
  have hpos := Nat.two_pow_pos k.toNat
  rw [broadcast_toNat h] at hhigh
  rw [← UInt32.toNat_inj]
  rw [and_mask_toNat h] at hlow hhigh
  rw [and_mask_toNat h, and_mask_toNat h]
  congr 1
  refine Nat.div_eq_of_lt_le hlow ?_
  rw [Nat.succ_mul]
  omega

end MouseVpn.Lib.Netmask
