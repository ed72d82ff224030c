import Mathlib.Algebra.GroupWithZero.Nat
import Mathlib.Data.List.AList

/-!
# Finite maps with the operations of a hash map

An association list without repeated keys, read by lookup, written by
insertion and thinned by a predicate on its entries. Iteration order is
never observed by the lookups, which are all that the proofs use.
-/

namespace MouseVpn.Lib

universe u v
variable {κ : Type u} {ν : Type v}

abbrev HashMap (κ : Type u) (ν : Type v) := AList (fun _ : κ => ν)

namespace HashMap

def retain (p : κ → ν → Bool) (m : HashMap κ ν) : HashMap κ ν :=
  ⟨m.entries.filter (fun e => p e.1 e.2),
    List.NodupKeys.sublist List.filter_sublist m.nodupKeys⟩

theorem mem_retain_entries (p : κ → ν → Bool) (m : HashMap κ ν) (e : Σ _ : κ, ν) :
    e ∈ (retain p m).entries ↔ e ∈ m.entries ∧ p e.1 e.2 = true := by
  simp [retain]

variable [DecidableEq κ]

theorem lookup_eq_some_iff {m : HashMap κ ν} {k : κ} {x : ν} :
    m.lookup k = some x ↔ (⟨k, x⟩ : Σ _ : κ, ν) ∈ m.entries := by
  rw [← AList.mem_lookup_iff]
  rfl

theorem lookup_insert_ite (m : HashMap κ ν) (k k' : κ) (x : ν) :
    AList.lookup k' (AList.insert k x m) = if k' = k then some x else AList.lookup k' m := by
  by_cases h : k' = k
  · subst h
    simp
  · simp [AList.lookup_insert_ne h, h]

theorem lookup_erase_ite (m : HashMap κ ν) (k k' : κ) :
    AList.lookup k' (AList.erase k m) = if k' = k then none else AList.lookup k' m := by
  split_ifs with h
  · rw [h, AList.lookup_erase]
  · exact AList.lookup_erase_ne h

theorem lookup_retain (p : κ → ν → Bool) (m : HashMap κ ν) (k : κ) :
    AList.lookup k (retain p m) = (AList.lookup k m).filter (p k) := by
  ext x
  rw [lookup_eq_some_iff, mem_retain_entries, ← lookup_eq_some_iff]
  cases hk : AList.lookup k m with
  | none => simp
  | some y =>
    by_cases hy : p k y = true
    · simp only [Option.some.injEq, Option.filter_some, hy, if_true]
      constructor
      · exact fun h => h.1
      · rintro rfl
        exact ⟨rfl, hy⟩
    · simp only [Option.some.injEq, Option.filter_some, hy]
      constructor
      · rintro ⟨rfl, h⟩
        exact absurd h hy
      · simp

theorem entries_perm {m m' : HashMap κ ν} (h : ∀ k, m.lookup k = m'.lookup k) :
    m.entries.Perm m'.entries := by
  apply List.lookup_ext m.nodupKeys m'.nodupKeys
  intro k x
  exact iff_of_eq (congrArg (x ∈ ·) (h k))

def values (m : HashMap κ ν) : List ν := m.entries.map (fun e => e.2)

theorem mem_values {m : HashMap κ ν} {x : ν} : x ∈ m.values ↔ ∃ k, m.lookup k = some x := by
  simp only [values, List.mem_map, lookup_eq_some_iff]
  constructor
  · rintro ⟨e, he, rfl⟩
    exact ⟨e.1, he⟩
  · rintro ⟨k, hk⟩
    exact ⟨_, hk, rfl⟩

def Injective (m : HashMap κ ν) : Prop :=
  ∀ k k' x, m.lookup k = some x → m.lookup k' = some x → k = k'

theorem values_nodup {m : HashMap κ ν} (h : m.Injective) : m.values.Nodup := by
  rw [values, List.nodup_map_iff_inj_on (List.NodupKeys.nodup m.nodupKeys)]
  rintro ⟨k, x⟩ hk ⟨k', x'⟩ hk' rfl
  have hkk : k = k' := h k k' x (lookup_eq_some_iff.mpr hk) (lookup_eq_some_iff.mpr hk')
  rw [hkk]

theorem keys_length_eq {κ' : Type*} [DecidableEq κ'] {m : HashMap κ ν} {m' : HashMap κ' ν}
    (h : m.Injective) (h' : m'.Injective) (hv : ∀ x, x ∈ m.values ↔ x ∈ m'.values) :
    m.keys.length = m'.keys.length := by
  have hperm : m.values.Perm m'.values :=
    (List.perm_ext_iff_of_nodup (values_nodup h) (values_nodup h')).mpr hv
  simpa [values, AList.keys, List.keys] using hperm.length_eq

def sum (f : κ → ν → ℕ) (m : HashMap κ ν) : ℕ := (m.entries.map fun e => f e.1 e.2).sum

def found (f : κ → ν → ℕ) (m : HashMap κ ν) (k : κ) : ℕ := (m.lookup k).elim 0 (f k)

theorem sum_kerase (f : κ → ν → ℕ) (k : κ) (entries : List (Σ _ : κ, ν)) :
    ((entries.kerase k).map fun e => f e.1 e.2).sum + (entries.dlookup k).elim 0 (f k) =
      (entries.map fun e => f e.1 e.2).sum := by
  induction entries with
  | nil => rfl
  | cons e entries ih =>
    obtain ⟨k', x⟩ := e
    by_cases h : k = k'
    · subst h
      have hrest : List.kerase k (⟨k, x⟩ :: entries) = entries := List.kerase_cons_eq rfl
      rw [hrest, List.dlookup_cons_eq, List.map_cons, List.sum_cons, Nat.add_comm]
      rfl
    · rw [List.kerase_cons_ne h, List.dlookup_cons_ne _ _ h, List.map_cons, List.map_cons,
        List.sum_cons, List.sum_cons, ← ih, Nat.add_assoc]

theorem sum_erase (f : κ → ν → ℕ) (m : HashMap κ ν) (k : κ) :
    sum f (AList.erase k m) + found f m k = sum f m :=
  sum_kerase f k m.entries

theorem sum_insert (f : κ → ν → ℕ) (m : HashMap κ ν) (k : κ) (x : ν) :
    sum f (AList.insert k x m) + found f m k = sum f m + f k x := by
  have hinsert : sum f (AList.insert k x m) = f k x + sum f (AList.erase k m) := by
    rw [sum, AList.entries_insert]
    rfl
  have herase := sum_erase f m k
  omega

theorem found_le_sum (f : κ → ν → ℕ) (m : HashMap κ ν) (k : κ) : found f m k ≤ sum f m :=
  sum_erase f m k ▸ Nat.le_add_left _ _

omit [DecidableEq κ] in
theorem sum_retain (f : κ → ν → ℕ) (p : κ → ν → Bool) (m : HashMap κ ν) :
    sum f (retain p m) = sum (fun k x => if p k x = true then f k x else 0) m := by
  change ((m.entries.filter _).map _).sum = (m.entries.map _).sum
  induction m.entries with
  | nil => rfl
  | cons e entries ih =>
    rw [List.map_cons, List.sum_cons, ← ih]
    by_cases h : p e.1 e.2 = true
    · simp [h]
    · simp [h]

theorem sum_eq_zero {f : κ → ν → ℕ} {m : HashMap κ ν}
    (h : ∀ k x, m.lookup k = some x → f k x = 0) : sum f m = 0 := by
  apply List.sum_eq_zero_iff_forall_eq_nat.2
  intro n hn
  obtain ⟨e, he, rfl⟩ := List.mem_map.1 hn
  exact h e.1 e.2 (lookup_eq_some_iff.2 he)

omit [DecidableEq κ] in
theorem sum_mono {f g : κ → ν → ℕ} (h : ∀ k x, f k x ≤ g k x) (m : HashMap κ ν) :
    sum f m ≤ sum g m := by
  rw [sum, sum]
  induction m.entries with
  | nil => exact Nat.le_refl 0
  | cons e entries ih =>
    rw [List.map_cons, List.map_cons, List.sum_cons, List.sum_cons]
    exact Nat.add_le_add (h e.1 e.2) ih

theorem sum_single (g : ν → ℕ) (m : HashMap κ ν) (k : κ) :
    sum (fun k' x => if k' = k then g x else 0) m = (m.lookup k).elim 0 g := by
  have herase : sum (fun k' x => if k' = k then g x else 0) (AList.erase k m) = 0 := by
    apply sum_eq_zero
    intro k' x found
    rw [lookup_erase_ite] at found
    split_ifs at found with h
    exact if_neg h
  have hsplit := sum_erase (fun k' x => if k' = k then g x else 0) m k
  rw [herase, Nat.zero_add, found] at hsplit
  rw [← hsplit]
  congr 1
  funext x
  exact if_pos rfl

def count (p : ν → Bool) (m : HashMap κ ν) : ℕ := (m.values.filter p).length

omit [DecidableEq κ] in
theorem count_eq_sum (p : ν → Bool) (m : HashMap κ ν) :
    m.count p = sum (fun _ x => if p x = true then 1 else 0) m := by
  rw [count, values, sum]
  induction m.entries with
  | nil => rfl
  | cons e entries ih =>
    rw [List.map_cons, List.map_cons, List.sum_cons, ← ih]
    by_cases h : p e.2 = true
    · simp [h, Nat.add_comm]
    · simp [h]

theorem count_insert (p : ν → Bool) (m : HashMap κ ν) (k : κ) (x : ν) :
    count p (AList.insert k x m) + (m.lookup k).elim 0 (fun y => if p y = true then 1 else 0) =
      m.count p + (if p x = true then 1 else 0) := by
  rw [count_eq_sum, count_eq_sum]
  exact sum_insert _ m k x

theorem count_eq_zero_iff {p : ν → Bool} {m : HashMap κ ν} :
    m.count p = 0 ↔ ∀ k x, m.lookup k = some x → p x = false := by
  rw [count, List.length_eq_zero_iff, List.filter_eq_nil_iff]
  constructor
  · intro h k x hx
    exact Bool.eq_false_iff.mpr (h x (mem_values.mpr ⟨k, hx⟩))
  · intro h x hx
    obtain ⟨k, hk⟩ := mem_values.mp hx
    rw [h k x hk]
    exact Bool.false_ne_true

omit [DecidableEq κ] in
theorem count_retain_le (p : ν → Bool) (q : κ → ν → Bool) (m : HashMap κ ν) :
    count p (retain q m) ≤ m.count p := by
  have hsub : (retain q m).values.Sublist m.values := List.filter_sublist.map _
  exact (hsub.filter p).length_le

omit [DecidableEq κ] in
theorem length_retain_add (q : ν → Bool) (m : HashMap κ ν) :
    (retain (fun _ => q) m).keys.length + m.count (fun x => !q x) = m.keys.length := by
  simp only [AList.keys, List.keys, List.length_map, retain, count, values]
  rw [List.filter_map, List.length_map]
  exact (List.length_eq_length_filter_add (fun e : Σ _ : κ, ν => q e.2)).symm

theorem length_insert_of_none {m : HashMap κ ν} {k : κ} (x : ν) (h : m.lookup k = none) :
    (AList.insert k x m).keys.length = m.keys.length + 1 := by
  have hk : k ∉ m.keys := by
    rw [← AList.mem_keys]
    exact AList.lookup_eq_none.mp h
  rw [AList.keys_insert, List.length_cons, List.erase_of_not_mem hk]

theorem length_insert_of_some {m : HashMap κ ν} {k : κ} (x : ν) (h : (m.lookup k).isSome = true) :
    (AList.insert k x m).keys.length = m.keys.length := by
  have hk : k ∈ m.keys := by
    rw [← AList.mem_keys]
    exact AList.lookup_isSome.mp h
  have hpos := List.length_pos_of_mem hk
  rw [AList.keys_insert, List.length_cons, List.length_erase_of_mem hk]
  omega

end HashMap

end MouseVpn.Lib
