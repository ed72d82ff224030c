import MouseVpn.Lib.BigEndian

/-!
# The parts of the Rust standard library that the code is written in

Checked addition, error propagation, the byte-vector operations on reused buffers, and the
address types of `std::net`.
-/

namespace MouseVpn.Lib

def checkedAdd (a b : UInt64) : Option UInt64 :=
  if a.toNat + b.toNat < 2 ^ 64 then some (a + b) else none

theorem checkedAdd_one_eq_none {a : UInt64} (h : checkedAdd a 1 = none) : a.toNat = 2 ^ 64 - 1 := by
  have ha : a.toNat < 2 ^ 64 := a.toNat_lt
  unfold checkedAdd at h
  split_ifs at h with hlt
  have h1 : (1 : UInt64).toNat = 1 := rfl
  omega

theorem checkedAdd_one_eq_some {a b : UInt64} (h : checkedAdd a 1 = some b) :
    b.toNat = a.toNat + 1 ∧ a.toNat + 1 < 2 ^ 64 := by
  unfold checkedAdd at h
  split_ifs at h with hlt
  have h1 : (1 : UInt64).toNat = 1 := rfl
  rw [h1] at hlt
  cases h
  refine ⟨?_, hlt⟩
  rw [UInt64.toNat_add, h1, Nat.mod_eq_of_lt hlt]

theorem bind_eq_ok {ε α β : Type} {x : Except ε α} {f : α → Except ε β} {b : β} :
    x >>= f = .ok b ↔ ∃ a, x = .ok a ∧ f a = .ok b := by
  cases x with
  | error e => simp [bind, Except.bind]
  | ok a => simp [bind, Except.bind]

def isOkAnd {ε α : Type} (x : Except ε α) (p : α → Bool) : Bool :=
  match x with
  | .ok a => p a
  | .error _ => false

theorem isOkAnd_iff {ε α : Type} {x : Except ε α} {p : α → Bool} :
    isOkAnd x p = true ↔ ∃ a, x = .ok a ∧ p a = true := by
  cases x <;> simp [isOkAnd]

def saturatingSub (a b : UInt64) : UInt64 := if a < b then 0 else a - b

def saturatingAdd (a b : UInt64) : UInt64 :=
  if a.toNat + b.toNat < 2 ^ 64 then a + b else UInt64.ofNat (2 ^ 64 - 1)

def Adjacent (a b : UInt64) : Prop := a.toNat ≤ b.toNat + 1 ∧ b.toNat ≤ a.toNat + 1

instance (a b : UInt64) : Decidable (Adjacent a b) :=
  inferInstanceAs (Decidable (a.toNat ≤ b.toNat + 1 ∧ b.toNat ≤ a.toNat + 1))

theorem saturatingSub_toNat (a b : UInt64) : (saturatingSub a b).toNat = a.toNat - b.toNat := by
  unfold saturatingSub
  split_ifs with h
  · rw [UInt64.lt_iff_toNat_lt] at h
    rw [UInt64.toNat_zero]
    omega
  · rw [UInt64.not_lt] at h
    exact UInt64.toNat_sub_of_le _ _ h

theorem saturatingSub_one_toNat (a : UInt64) : (saturatingSub a 1).toNat = a.toNat - 1 :=
  saturatingSub_toNat a 1

theorem saturatingAdd_one_toNat (a : UInt64) :
    (saturatingAdd a 1).toNat = min (a.toNat + 1) (2 ^ 64 - 1) := by
  have h1 : (1 : UInt64).toNat = 1 := rfl
  have ha := a.toNat_lt
  unfold saturatingAdd
  split_ifs with h
  · rw [h1] at h
    rw [UInt64.toNat_add, h1, Nat.mod_eq_of_lt h]
    omega
  · rw [h1] at h
    rw [UInt64.toNat_ofNat', Nat.mod_eq_of_lt (by decide)]
    omega

theorem adjacent_iff {a b : UInt64} :
    Adjacent a b ↔ a = saturatingSub b 1 ∨ a = b ∨ a = saturatingAdd b 1 := by
  have ha := a.toNat_lt
  have hb := b.toNat_lt
  simp only [Adjacent, ← UInt64.toNat_inj, saturatingSub_one_toNat, saturatingAdd_one_toNat]
  omega

abbrev ClockReading := Option UInt64

namespace Vec

def clear (_ : Bytes) : Bytes := []

/-- `copy_within(start..start + len, 0)`. -/
def copyToFront (v : Bytes) (start len : ℕ) : Bytes := (v.drop start).take len ++ v.drop len

/-- `Vec::resize(len, 0)`. -/
def resize (v : Bytes) (len : ℕ) : Bytes := v.take len ++ List.replicate (len - v.length) 0

/-- `written` overwrites the bytes of `v` from `start` on. -/
def overwrite (v : Bytes) (start : ℕ) (written : Bytes) : Bytes :=
  v.take start ++ written ++ v.drop (start + written.length)

@[simp] theorem resize_length (v : Bytes) (len : ℕ) : (resize v len).length = len := by
  simp only [resize, List.length_append, List.length_take, List.length_replicate]
  omega

theorem overwrite_length {v : Bytes} {start : ℕ} {written : Bytes}
    (h : start + written.length ≤ v.length) : (overwrite v start written).length = v.length := by
  simp only [overwrite, List.length_append, List.length_take, List.length_drop]
  omega

theorem take_overwrite (v : Bytes) {start : ℕ} (written : Bytes) (h : start ≤ v.length) :
    (overwrite v start written).take (start + written.length) = v.take start ++ written := by
  have hl : (v.take start ++ written).length = start + written.length := by
    simp [h]
  rw [overwrite, ← hl, List.take_left]

theorem take_copyToFront {v : Bytes} {start len : ℕ} (h : start + len ≤ v.length) :
    (copyToFront v start len).take len = (v.drop start).take len := by
  have hl : ((v.drop start).take len).length = len := by
    simp only [List.length_take, List.length_drop]
    omega
  rw [copyToFront, List.take_append_of_le_length hl.ge, List.take_take, Nat.min_self]

theorem drop_eq_cons_iff {v rest : Bytes} {i : ℕ} {b : UInt8} :
    v.drop i = b :: rest ↔ v[i]? = some b ∧ v.drop (i + 1) = rest := by
  constructor
  · intro h
    have hb := congrArg (·[0]?) h
    have hrest := congrArg List.tail h
    simp only [List.getElem?_drop, List.tail_drop, List.tail_cons] at hb hrest
    exact ⟨hb, hrest⟩
  · intro ⟨hb, hrest⟩
    obtain ⟨hlt, rfl⟩ := List.getElem?_eq_some_iff.mp hb
    rw [← hrest, List.getElem_cons_drop]

theorem drop_eq_append_iff {v a rest : Bytes} {i : ℕ} :
    v.drop i = a ++ rest ↔ a <+: v.drop i ∧ v.drop (i + a.length) = rest := by
  constructor
  · intro h
    rw [← List.drop_drop, h, List.drop_left]
    exact ⟨List.prefix_append a rest, rfl⟩
  · intro ⟨⟨tail, htail⟩, hrest⟩
    rw [← List.drop_drop, ← htail, List.drop_left] at hrest
    rw [← htail, hrest]

theorem getElem?_overwrite {v written : Bytes} {start : ℕ}
    (h : start + written.length ≤ v.length) (i : ℕ) :
    (overwrite v start written)[i]? =
      if start ≤ i ∧ i < start + written.length then written[i - start]? else v[i]? := by
  have hlen : (v.take start).length = start := by
    rw [List.length_take]
    omega
  rw [overwrite, List.append_assoc]
  rcases lt_or_ge i start with hi | hi
  · rw [List.getElem?_append_left (by omega), List.getElem?_take_of_lt hi, if_neg (by omega)]
  · rw [List.getElem?_append_right (by omega), hlen]
    rcases lt_or_ge i (start + written.length) with hw | hw
    · rw [List.getElem?_append_left (by omega), if_pos ⟨hi, hw⟩]
    · rw [List.getElem?_append_right (by omega), List.getElem?_drop, if_neg (by omega)]
      congr 1
      omega

theorem slice_overwrite {v written : Bytes} {start : ℕ}
    (h : start + written.length ≤ v.length) :
    ((overwrite v start written).drop start).take written.length = written := by
  have hlen : (v.take start).length = start := by
    rw [List.length_take]
    omega
  rw [overwrite, List.append_assoc, List.drop_append_of_le_length hlen.ge,
    List.drop_eq_nil_of_le hlen.le, List.nil_append, List.take_left]

theorem slice_overwrite_of_disjoint {v written : Bytes} {start offset n : ℕ}
    (h : start + written.length ≤ v.length)
    (hd : offset + n ≤ start ∨ start + written.length ≤ offset) :
    ((overwrite v start written).drop offset).take n = (v.drop offset).take n := by
  refine List.ext_getElem? fun i => ?_
  rcases lt_or_ge i n with hi | hi
  · rw [List.getElem?_take_of_lt hi, List.getElem?_take_of_lt hi, List.getElem?_drop,
      List.getElem?_drop, getElem?_overwrite h, if_neg (by omega)]
  · rw [List.getElem?_eq_none (by simp; omega), List.getElem?_eq_none (by simp; omega)]

end Vec

structure Ipv4Addr where
  a : UInt8
  b : UInt8
  c : UInt8
  d : UInt8
  deriving DecidableEq, Repr

namespace Ipv4Addr

def octets (ip : Ipv4Addr) : Bytes := [ip.a, ip.b, ip.c, ip.d]

/-- `u32::from` and `Ipv4Addr::from`: the octets in network order. -/
def toUInt32 (ip : Ipv4Addr) : UInt32 :=
  UInt32.ofNat (((ip.a.toNat * 256 + ip.b.toNat) * 256 + ip.c.toNat) * 256 + ip.d.toNat)

def ofUInt32 (x : UInt32) : Ipv4Addr :=
  ⟨UInt8.ofNat (x.toNat / 2 ^ 24), UInt8.ofNat (x.toNat / 2 ^ 16), UInt8.ofNat (x.toNat / 2 ^ 8),
    UInt8.ofNat x.toNat⟩

theorem toUInt32_ofUInt32 (x : UInt32) : (ofUInt32 x).toUInt32 = x := by
  have hx := x.toNat_lt
  rw [← UInt32.toNat_inj, toUInt32, ofUInt32]
  simp only [UInt8.toNat_ofNat', UInt32.toNat_ofNat']
  omega

theorem toUInt32_injective : Function.Injective toUInt32 := by
  intro ip ip' h
  have ha := ip.a.toNat_lt
  have hb := ip.b.toNat_lt
  have hc := ip.c.toNat_lt
  have hd := ip.d.toNat_lt
  have ha' := ip'.a.toNat_lt
  have hb' := ip'.b.toNat_lt
  have hc' := ip'.c.toNat_lt
  have hd' := ip'.d.toNat_lt
  rw [← UInt32.toNat_inj, toUInt32, toUInt32, UInt32.toNat_ofNat', UInt32.toNat_ofNat'] at h
  rw [mk.injEq, ← UInt8.toNat_inj, ← UInt8.toNat_inj, ← UInt8.toNat_inj, ← UInt8.toNat_inj]
  omega

end Ipv4Addr

structure Ipv6Addr where
  octets : Bytes
  size : octets.length = 16
  deriving DecidableEq, Repr

inductive IpAddr
  | v4 (ip : Ipv4Addr)
  | v6 (ip : Ipv6Addr)
  deriving DecidableEq, Repr

inductive SocketAddr
  | v4 (ip : Ipv4Addr) (port : UInt16)
  | v6 (ip : BitVec 128) (port : UInt16) (flowinfo scopeId : UInt32)
  deriving DecidableEq, Repr

end MouseVpn.Lib
