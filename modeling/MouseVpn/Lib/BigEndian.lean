import Mathlib.Data.Nat.ModEq
import Mathlib.Tactic.Positivity
import Mathlib.Tactic.Ring

/-!
# Big-endian byte strings

Fixed-length network byte order for natural numbers. The fixed-width
conversions of the wire formats are these two functions at their lengths.
-/

namespace MouseVpn.Lib

abbrev Bytes := List UInt8

instance : LawfulBEq Bytes := inferInstance

namespace BigEndian

/-- The last `n` base-256 digits of `x`, most significant first. -/
def beBytes : ℕ → ℕ → Bytes
  | 0, _ => []
  | n + 1, x => UInt8.ofNat (x / 256 ^ n) :: beBytes n x

def beNat : Bytes → ℕ
  | [] => 0
  | b :: bs => b.toNat * 256 ^ bs.length + beNat bs

@[simp] theorem beBytes_length (n x : ℕ) : (beBytes n x).length = n := by
  induction n with
  | zero => rfl
  | succ n ih => simp [beBytes, ih]

theorem beNat_beBytes (n x : ℕ) : beNat (beBytes n x) = x % 256 ^ n := by
  induction n with
  | zero => simp [beBytes, beNat, Nat.mod_one]
  | succ n ih =>
    simp only [beBytes, beNat, beBytes_length, ih, UInt8.toNat_ofNat']
    have hp : x % 256 ^ (n + 1) = x % 256 ^ n + 256 ^ n * (x / 256 ^ n % 256) := Nat.mod_pow_succ
    rw [hp, Nat.mul_comm, Nat.add_comm]

theorem beNat_beBytes_of_lt {n x : ℕ} (h : x < 256 ^ n) : beNat (beBytes n x) = x := by
  rw [beNat_beBytes, Nat.mod_eq_of_lt h]

theorem beBytes_mul_add (n k x : ℕ) : beBytes n (k * 256 ^ n + x) = beBytes n x := by
  induction n generalizing k with
  | zero => rfl
  | succ n ih =>
    have hpow : k * 256 ^ (n + 1) + x = 256 ^ n * (k * 256) + x := by ring
    have hhead : UInt8.ofNat ((k * 256 ^ (n + 1) + x) / 256 ^ n) = UInt8.ofNat (x / 256 ^ n) := by
      rw [hpow, Nat.mul_add_div (by positivity)]
      apply UInt8.toNat_inj.mp
      simp
    have htail : beBytes n (k * 256 ^ (n + 1) + x) = beBytes n x := by
      rw [hpow, Nat.mul_comm]
      exact ih (k * 256)
    rw [beBytes, beBytes, hhead, htail]

theorem beNat_lt (bs : Bytes) : beNat bs < 256 ^ bs.length := by
  induction bs with
  | nil => decide
  | cons b bs ih =>
    have hb : b.toNat + 1 ≤ 256 := b.toNat_lt
    calc b.toNat * 256 ^ bs.length + beNat bs
        < b.toNat * 256 ^ bs.length + 256 ^ bs.length := Nat.add_lt_add_left ih _
      _ = (b.toNat + 1) * 256 ^ bs.length := by ring
      _ ≤ 256 * 256 ^ bs.length := Nat.mul_le_mul_right _ hb
      _ = 256 ^ (b :: bs).length := by rw [List.length_cons]; ring

theorem beBytes_beNat (bs : Bytes) : beBytes bs.length (beNat bs) = bs := by
  induction bs with
  | nil => rfl
  | cons b bs ih =>
    have hhead : UInt8.ofNat ((b.toNat * 256 ^ bs.length + beNat bs) / 256 ^ bs.length) = b := by
      rw [Nat.mul_comm, Nat.mul_add_div (by positivity), Nat.div_eq_of_lt (beNat_lt bs)]
      simp
    rw [List.length_cons, beBytes, beNat, hhead, beBytes_mul_add, ih]

end BigEndian

end MouseVpn.Lib
