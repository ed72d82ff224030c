import Mathlib.Data.List.FinRange
import Mathlib.Data.Nat.Bitwise
import MouseVpn.Lib.Cidr

/-!
# The address blocks of the kill switch

The firewall blocks every IPv4 address except the server's. The loop walks down the bits of
the server address. At every bit it emits the half that the server is not in and goes on in
the half that the server is in.
-/

namespace MouseVpn.Windows

open MouseVpn.Lib MouseVpn.Lib.Siblings

def blockedRound (server : UInt32) (state : UInt32 × List String) (prefixLen : ℕ) :
    UInt32 × List String :=
  let (serverNetwork, prefixes) := state
  let bit := (1 : UInt32) <<< UInt32.ofNat (32 - prefixLen)
  if server &&& bit = 0 then
    (serverNetwork, prefixes ++ [Cidr.blockText (serverNetwork ||| bit) prefixLen])
  else (serverNetwork ||| bit, prefixes ++ [Cidr.blockText serverNetwork prefixLen])

def blockedIpv4Prefixes (serverIp : Ipv4Addr) : List String :=
  ((List.range' 1 32).foldl (blockedRound serverIp.toUInt32) (0, [])).2

section Loop

variable (server : UInt32)

/-- The block of the server with `j` host bits. -/
def serverNetwork (j : ℕ) : UInt32 := UInt32.ofNat (server.toNat / 2 ^ j * 2 ^ j)

def siblingNetwork (j : ℕ) : UInt32 := UInt32.ofNat (sibling (server.toNat / 2 ^ j) * 2 ^ j)

theorem serverNetwork_toNat (j : ℕ) :
    (serverNetwork server j).toNat = server.toNat / 2 ^ j * 2 ^ j := by
  rw [serverNetwork, UInt32.toNat_ofNat']
  exact Nat.mod_eq_of_lt (lt_of_le_of_lt (Nat.div_mul_le_self _ _) server.toNat_lt)

theorem siblingNetwork_toNat {j : ℕ} (hj : j < 32) :
    (siblingNetwork server j).toNat = sibling (server.toNat / 2 ^ j) * 2 ^ j := by
  rw [siblingNetwork, UInt32.toNat_ofNat']
  exact Nat.mod_eq_of_lt (sibling_mul_lt hj server.toNat_lt)

theorem bit_toNat {j : ℕ} (hj : j < 32) : ((1 : UInt32) <<< UInt32.ofNat j).toNat = 2 ^ j := by
  have hmod : j % 2 ^ 32 % 32 = j := by omega
  rw [UInt32.toNat_shiftLeft, UInt32.toNat_ofNat', hmod, Nat.shiftLeft_eq]
  have hone : (1 : UInt32).toNat = 1 := rfl
  rw [hone, one_mul]
  exact Nat.mod_eq_of_lt (Nat.pow_lt_pow_right (by decide) hj)

theorem and_bit_eq_zero_iff {j : ℕ} (hj : j < 32) :
    server &&& (1 : UInt32) <<< UInt32.ofNat j = 0 ↔ server.toNat / 2 ^ j % 2 = 0 := by
  rw [← UInt32.toNat_inj, UInt32.toNat_and, bit_toNat hj, Nat.and_two_pow,
    Nat.testBit_eq_decide_div_mod_eq]
  have hzero : (0 : UInt32).toNat = 0 := rfl
  have hpos := Nat.two_pow_pos j
  rw [hzero]
  rcases Nat.mod_two_eq_zero_or_one (server.toNat / 2 ^ j) with h | h
  · simp [h]
  · simp [h]

theorem or_bit {j : ℕ} (hj : j < 32) :
    serverNetwork server (j + 1) ||| (1 : UInt32) <<< UInt32.ofNat j =
      UInt32.ofNat ((server.toNat / 2 ^ (j + 1) * 2 + 1) * 2 ^ j) := by
  have hlt : 2 ^ j < 2 ^ (j + 1) := Nat.pow_lt_pow_right (by decide) (Nat.lt_succ_self j)
  have hor := Nat.two_pow_add_eq_or_of_lt hlt (server.toNat / 2 ^ (j + 1))
  have hsum : (server.toNat / 2 ^ (j + 1) * 2 + 1) * 2 ^ j =
      2 ^ (j + 1) * (server.toNat / 2 ^ (j + 1)) + 2 ^ j := by
    rw [Nat.pow_succ, Nat.add_mul, Nat.mul_assoc, one_mul, Nat.mul_comm _ (2 * 2 ^ j),
      Nat.mul_comm 2 (2 ^ j)]
  rw [← UInt32.toNat_inj, UInt32.toNat_or, serverNetwork_toNat, bit_toNat hj, hsum, hor,
    Nat.mul_comm, UInt32.toNat_ofNat']
  symm
  apply Nat.mod_eq_of_lt
  apply Nat.or_lt_two_pow
  · rw [Nat.mul_comm]
    exact lt_of_le_of_lt (Nat.div_mul_le_self _ _) server.toNat_lt
  · exact Nat.pow_lt_pow_right (by decide) hj

theorem halves {j : ℕ} :
    (server.toNat / 2 ^ j % 2 = 0 →
      serverNetwork server j = serverNetwork server (j + 1) ∧
      siblingNetwork server j =
        UInt32.ofNat ((server.toNat / 2 ^ (j + 1) * 2 + 1) * 2 ^ j)) ∧
    (server.toNat / 2 ^ j % 2 = 1 →
      siblingNetwork server j = serverNetwork server (j + 1) ∧
      serverNetwork server j =
        UInt32.ofNat ((server.toNat / 2 ^ (j + 1) * 2 + 1) * 2 ^ j)) := by
  have hlow : server.toNat / 2 ^ (j + 1) * 2 ^ (j + 1) =
      server.toNat / 2 ^ j / 2 * 2 * 2 ^ j := by
    rw [div_two_pow_succ, Nat.pow_succ, Nat.mul_assoc, Nat.mul_comm (2 ^ j) 2]
  rw [serverNetwork, serverNetwork, siblingNetwork, hlow, div_two_pow_succ, sibling]
  generalize server.toNat / 2 ^ j = b
  constructor
  · intro hbit
    rw [if_pos hbit]
    have hb : b / 2 * 2 = b := by omega
    rw [hb]
    exact ⟨rfl, rfl⟩
  · intro hbit
    have hb : b / 2 * 2 = b - 1 := by omega
    have hb' : b / 2 * 2 + 1 = b := by omega
    rw [if_neg (by omega), hb', hb]
    exact ⟨rfl, rfl⟩

theorem blockedRound_eq {j : ℕ} (hj : j < 32) (prefixes : List String) :
    blockedRound server (serverNetwork server (j + 1), prefixes) (32 - j) =
      (serverNetwork server j,
        prefixes ++ [Cidr.blockText (siblingNetwork server j) (32 - j)]) := by
  have hsub : 32 - (32 - j) = j := by omega
  unfold blockedRound
  simp only [hsub, and_bit_eq_zero_iff server hj, or_bit server hj]
  rcases Nat.mod_two_eq_zero_or_one (server.toNat / 2 ^ j) with hbit | hbit
  · obtain ⟨hserver, hsibling⟩ := (halves server).1 hbit
    rw [if_pos hbit, hserver, hsibling]
  · obtain ⟨hsibling, hserver⟩ := (halves server).2 hbit
    rw [if_neg (by omega), hserver, hsibling]

theorem blockedRounds_eq {k : ℕ} (hk : k ≤ 32) :
    (List.range' 1 k).foldl (blockedRound server) (0, []) =
      (serverNetwork server (32 - k),
        (List.range k).map fun i => Cidr.blockText (siblingNetwork server (31 - i)) (i + 1)) := by
  induction k with
  | zero =>
    have hzero : serverNetwork server 32 = 0 := by
      rw [serverNetwork, Nat.div_eq_of_lt server.toNat_lt, Nat.zero_mul]
      rfl
    simp [hzero]
  | succ k ih =>
    have hround := blockedRound_eq server (j := 31 - k) (by omega)
      ((List.range k).map fun i => Cidr.blockText (siblingNetwork server (31 - i)) (i + 1))
    have hj : 31 - k + 1 = 32 - k := by omega
    have hlen : 32 - (31 - k) = k + 1 := by omega
    have hnext : 32 - (k + 1) = 31 - k := by omega
    rw [hj, hlen] at hround
    rw [List.range'_concat, List.foldl_append, ih (by omega), Nat.one_mul, Nat.add_comm 1 k,
      List.foldl_cons, List.foldl_nil, hround, List.range_succ, List.map_append, hnext]
    rfl

end Loop

theorem siblingNetwork_aligned (server : UInt32) (i : Fin 32) :
    (siblingNetwork server (31 - i)).toNat % 2 ^ (32 - (i.val + 1)) = 0 := by
  have hbits : 32 - (i.val + 1) = 31 - i.val := by omega
  rw [siblingNetwork_toNat server (by omega), hbits]
  exact Nat.mul_mod_left _ _

/-- The block of addresses that leave the server's path at bit `31 - i`. -/
def siblingBlock (server : UInt32) (i : Fin 32) : Cidr :=
  { network := siblingNetwork server (31 - i)
    length := i + 1
    short := i.isLt
    aligned := siblingNetwork_aligned server i }

theorem siblingBlock_contains_iff (server : UInt32) (i : Fin 32) (ip : Ipv4Addr) :
    (siblingBlock server i).Contains ip ↔
      Splits server.toNat (31 - i) ip.toUInt32.toNat := by
  have hbits : 32 - (siblingBlock server i).length = 31 - i.val := by
    simp only [siblingBlock]
    omega
  rw [Cidr.Contains, hbits, splits_iff, siblingBlock, siblingNetwork_toNat server (by omega),
    Nat.mul_div_cancel _ (Nat.two_pow_pos _)]

theorem siblingBlock_disjoint (server : UInt32) {i j : Fin 32} (hne : i ≠ j) :
    (siblingBlock server i).Disjoint (siblingBlock server j) := by
  intro ip hboth
  rw [siblingBlock_contains_iff, siblingBlock_contains_iff] at hboth
  have hbits := splits_unique hboth.1 hboth.2
  apply hne
  apply Fin.ext
  omega

theorem blockedIpv4Prefixes_eq (serverIp : Ipv4Addr) :
    blockedIpv4Prefixes serverIp =
      ((List.finRange 32).map (siblingBlock serverIp.toUInt32)).map Cidr.text := by
  rw [blockedIpv4Prefixes, blockedRounds_eq _ le_rfl, List.map_map,
    ← List.map_coe_finRange_eq_range,
    List.map_map]
  rfl

/-- The texts are 32 CIDR blocks, no two of which share an address, and together they hold
every address but the server's. -/
theorem blockedIpv4Prefixes_partition (serverIp : Ipv4Addr) :
    ∃ blocks : List Cidr,
      (blockedIpv4Prefixes serverIp).map Cidr.parse = blocks.map some ∧
      blocks.length = 32 ∧
      blocks.Pairwise Cidr.Disjoint ∧
      ∀ ip : Ipv4Addr, (∃ block ∈ blocks, block.Contains ip) ↔ ip ≠ serverIp := by
  refine ⟨(List.finRange 32).map (siblingBlock serverIp.toUInt32), ?_, ?_, ?_, ?_⟩
  · rw [blockedIpv4Prefixes_eq, List.map_map]
    apply List.map_congr_left
    intro block _
    rw [Function.comp_apply, Cidr.parse_text]
  · rw [List.length_map, List.length_finRange]
  · rw [List.pairwise_map]
    exact (List.nodup_finRange 32).imp (siblingBlock_disjoint _)
  · intro ip
    have hsplits := exists_splits_iff ip.toUInt32.toNat_lt serverIp.toUInt32.toNat_lt
    constructor
    · rintro ⟨block, hmem, hcontains⟩ rfl
      obtain ⟨i, _, rfl⟩ := List.mem_map.mp hmem
      rw [siblingBlock_contains_iff] at hcontains
      exact hcontains.2 rfl
    · intro hne
      have hne' : ip.toUInt32.toNat ≠ serverIp.toUInt32.toNat := by
        intro heq
        exact hne (Ipv4Addr.toUInt32_injective (UInt32.toNat_inj.mp heq))
      obtain ⟨j, hj, hs⟩ := hsplits.mpr hne'
      refine ⟨siblingBlock serverIp.toUInt32 ⟨31 - j, by omega⟩,
        List.mem_map_of_mem (List.mem_finRange _), ?_⟩
      rw [siblingBlock_contains_iff]
      have hbits : 31 - (31 - j) = j := by omega
      rw [hbits]
      exact hs

end MouseVpn.Windows
