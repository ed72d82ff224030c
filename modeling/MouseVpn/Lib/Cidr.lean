import MouseVpn.Lib.AddressText

/-!
# Blocks of IPv4 addresses

A block in CIDR notation, its text form, and the binary tree of blocks: the addresses other
than `n` fall into one block for every bit of `n`, the sibling of the block of `n` at that
level.
-/

namespace MouseVpn.Lib

namespace Siblings

/-- Above bit `j` the numbers agree, and at bit `j` they differ. -/
def Splits (n j x : ℕ) : Prop := x / 2 ^ (j + 1) = n / 2 ^ (j + 1) ∧ x / 2 ^ j ≠ n / 2 ^ j

/-- The other child of the parent of `b`. -/
def sibling (b : ℕ) : ℕ := if b % 2 = 0 then b + 1 else b - 1

variable {n x : ℕ}

theorem div_two_pow_succ (x j : ℕ) : x / 2 ^ (j + 1) = x / 2 ^ j / 2 := by
  rw [Nat.pow_succ, Nat.div_div_eq_div_mul]

theorem splits_iff {j : ℕ} : Splits n j x ↔ x / 2 ^ j = sibling (n / 2 ^ j) := by
  rw [Splits, div_two_pow_succ, div_two_pow_succ, sibling]
  generalize x / 2 ^ j = a
  generalize n / 2 ^ j = b
  split_ifs <;> omega

theorem agree_of_le {i j : ℕ} (hij : i ≤ j) (h : x / 2 ^ i = n / 2 ^ i) :
    x / 2 ^ j = n / 2 ^ j := by
  induction j, hij using Nat.le_induction with
  | base => exact h
  | succ j _ ih => rw [div_two_pow_succ, div_two_pow_succ, ih]

theorem splits_unique {i j : ℕ} (hi : Splits n i x) (hj : Splits n j x) : i = j := by
  rcases Nat.lt_trichotomy i j with hlt | heq | hgt
  · exact absurd (agree_of_le hlt hi.1) hj.2
  · exact heq
  · exact absurd (agree_of_le hgt hj.1) hi.2

theorem exists_splits {w : ℕ} (h : x / 2 ^ w = n / 2 ^ w) (hne : x ≠ n) :
    ∃ j < w, Splits n j x := by
  induction w with
  | zero => exact absurd (by simpa using h) hne
  | succ w ih =>
    by_cases hw : x / 2 ^ w = n / 2 ^ w
    · obtain ⟨j, hj, hs⟩ := ih hw
      exact ⟨j, Nat.lt_succ_of_lt hj, hs⟩
    · exact ⟨w, Nat.lt_succ_self w, h, hw⟩

theorem exists_splits_iff {w : ℕ} (hx : x < 2 ^ w) (hn : n < 2 ^ w) :
    (∃ j < w, Splits n j x) ↔ x ≠ n := by
  constructor
  · rintro ⟨j, _, hs⟩ rfl
    exact hs.2 rfl
  · apply exists_splits
    rw [Nat.div_eq_of_lt hx, Nat.div_eq_of_lt hn]

theorem sibling_mul_lt {j w : ℕ} (hj : j < w) (hn : n < 2 ^ w) :
    sibling (n / 2 ^ j) * 2 ^ j < 2 ^ w := by
  have hsplit : 2 ^ w = 2 ^ (w - j - 1) * 2 * 2 ^ j := by
    rw [← Nat.pow_succ, ← Nat.pow_add]
    congr 1
    omega
  have hq : n / 2 ^ j < 2 ^ (w - j - 1) * 2 := by
    rw [Nat.div_lt_iff_lt_mul (Nat.two_pow_pos j), ← hsplit]
    exact hn
  rw [hsplit]
  apply Nat.mul_lt_mul_of_pos_right _ (Nat.two_pow_pos j)
  generalize n / 2 ^ j = b at hq ⊢
  rw [sibling]
  split_ifs <;> omega

end Siblings

structure Cidr where
  network : UInt32
  length : ℕ
  short : length ≤ 32
  aligned : network.toNat % 2 ^ (32 - length) = 0
  deriving DecidableEq

namespace Cidr

def Contains (block : Cidr) (ip : Ipv4Addr) : Prop :=
  ip.toUInt32.toNat / 2 ^ (32 - block.length) = block.network.toNat / 2 ^ (32 - block.length)

def Disjoint (left right : Cidr) : Prop := ∀ ip, ¬ (left.Contains ip ∧ right.Contains ip)

def blockText (network : UInt32) (length : ℕ) : String :=
  (Ipv4Addr.ofUInt32 network).text ++ "/" ++ length.repr

def text (block : Cidr) : String := blockText block.network block.length

def readNat (digits : List Char) : Option ℕ :=
  if digits ≠ [] ∧ digits.all Char.isDigit then some (Nat.ofDigitChars 10 digits 0) else none

def readOctet (digits : List Char) : Option UInt8 :=
  (readNat digits).bind fun n => if n < 256 then some (UInt8.ofNat n) else none

def readIpv4 (chars : List Char) : Option Ipv4Addr :=
  match chars.splitOn '.' with
  | [a, b, c, d] => do some ⟨← readOctet a, ← readOctet b, ← readOctet c, ← readOctet d⟩
  | _ => none

def ofParts (network : UInt32) (length : ℕ) : Option Cidr :=
  if h : length ≤ 32 ∧ network.toNat % 2 ^ (32 - length) = 0 then
    some ⟨network, length, h.1, h.2⟩
  else none

def parse (s : String) : Option Cidr :=
  match s.toList.splitOn '/' with
  | [address, length] => do ofParts (← readIpv4 address).toUInt32 (← readNat length)
  | _ => none

theorem readNat_repr (n : ℕ) : readNat n.repr.toList = some n := by
  have hdigits : (Nat.toDigits 10 n).all Char.isDigit := by
    rw [List.all_eq_true]
    intro c hmem
    exact Nat.isDigit_of_mem_toDigits (by decide) (by decide) hmem
  rw [Nat.repr_eq_ofList_toDigits, String.toList_ofList, readNat,
    if_pos ⟨Nat.toDigits_ne_nil, hdigits⟩, Nat.ofDigitChars_ten_toDigits]

theorem readOctet_repr (octet : UInt8) : readOctet octet.toNat.repr.toList = some octet := by
  rw [readOctet, readNat_repr, Option.bind_some, if_pos octet.toNat_lt, UInt8.ofNat_toNat]

theorem not_mem_repr {c : Char} (hc : c.isDigit = false) (n : ℕ) : c ∉ n.repr.toList := by
  intro hmem
  rw [Nat.repr_eq_ofList_toDigits, String.toList_ofList] at hmem
  rw [Nat.isDigit_of_mem_toDigits (by decide) (by decide) hmem] at hc
  exact Bool.noConfusion hc

theorem ipv4_text_toList (ip : Ipv4Addr) : ip.text.toList =
    ['.'].intercalate (ip.octets.map fun octet => octet.toNat.repr.toList) := by
  rw [Ipv4Addr.text, String.toList_intercalate, List.map_map]
  rfl

theorem readIpv4_text (ip : Ipv4Addr) : readIpv4 ip.text.toList = some ip := by
  have hsplit : ip.text.toList.splitOn '.' =
      ip.octets.map fun octet => octet.toNat.repr.toList := by
    rw [ipv4_text_toList]
    apply List.splitOn_intercalate
    · intro digits hmem
      obtain ⟨octet, _, rfl⟩ := List.mem_map.mp hmem
      exact not_mem_repr (by decide) _
    · simp [Ipv4Addr.octets]
  rw [readIpv4, hsplit]
  simp only [Ipv4Addr.octets, List.map_cons, List.map_nil, readOctet_repr, Option.bind_eq_bind,
    Option.bind_some]

theorem slash_not_mem_text (ip : Ipv4Addr) : '/' ∉ ip.text.toList := by
  rw [ipv4_text_toList]
  simp only [Ipv4Addr.octets, List.map_cons, List.map_nil]
  have hdigit : ∀ octet : UInt8, '/' ∉ octet.toNat.repr.toList := by
    intro octet
    exact not_mem_repr (by decide) _
  simp only [List.intercalate, List.intersperse_cons_cons, List.intersperse_singleton,
    List.flatten_cons, List.flatten_nil, List.mem_append, hdigit, false_or]
  decide

theorem parse_text (block : Cidr) : parse block.text = some block := by
  have hlist : block.text.toList = ['/'].intercalate
      [(Ipv4Addr.ofUInt32 block.network).text.toList, block.length.repr.toList] := by
    rw [text, blockText, String.toList_append, String.toList_append]
    simp [List.intercalate]
  have hsplit : block.text.toList.splitOn '/' =
      [(Ipv4Addr.ofUInt32 block.network).text.toList, block.length.repr.toList] := by
    rw [hlist]
    apply List.splitOn_intercalate
    · intro part hmem
      rcases List.mem_cons.mp hmem with rfl | hlength
      · exact slash_not_mem_text _
      · rw [List.mem_singleton] at hlength
        rw [hlength]
        exact not_mem_repr (by decide) _
    · simp
  rw [parse, hsplit]
  simp only [readIpv4_text, readNat_repr, Option.bind_eq_bind, Option.bind_some,
    Ipv4Addr.toUInt32_ofUInt32]
  rw [ofParts, dif_pos ⟨block.short, block.aligned⟩]

end Cidr

end MouseVpn.Lib
