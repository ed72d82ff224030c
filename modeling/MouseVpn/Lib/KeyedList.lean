import Mathlib.Algebra.BigOperators.Group.List.Basic
import Mathlib.Algebra.GroupWithZero.Nat
import Mathlib.Data.List.Nodup
import Mathlib.Data.List.Sort

/-!
# Lists as tables

A list whose items have distinct keys is a table. It is read by `find`, and two such lists with
the same readings are permutations of each other. Writes of single keys that are folded over a
table of changes act on each key by its own change, and sums over a table split by key.
-/

namespace MouseVpn.Lib.KeyedList

variable {α κ : Type*} [DecidableEq κ] (key : α → κ)

def find (l : List α) (k : κ) : Option α := l.find? fun a => decide (key a = k)

def Distinct (l : List α) : Prop := (l.map key).Nodup

variable {key}

theorem find_cons (a : α) (l : List α) (k : κ) :
    find key (a :: l) k = if key a = k then some a else find key l k := by
  rw [find, List.find?_cons]
  by_cases h : key a = k
  · simp [h]
  · simp [h, find]

theorem find_append (l l' : List α) (k : κ) :
    find key (l ++ l') k = (find key l k).or (find key l' k) :=
  List.find?_append

theorem find_eq_none {l : List α} {k : κ} : find key l k = none ↔ ∀ a ∈ l, key a ≠ k := by
  simp [find]

theorem key_of_find {l : List α} {k : κ} {a : α} (h : find key l k = some a) :
    a ∈ l ∧ key a = k :=
  ⟨List.mem_of_find?_eq_some h, by simpa using List.find?_some h⟩

theorem find_eq_some {l : List α} (distinct : Distinct key l) {k : κ} {a : α} :
    find key l k = some a ↔ a ∈ l ∧ key a = k := by
  constructor
  · exact key_of_find
  · intro h
    cases hfound : find key l k with
    | none => exact absurd h.2 (find_eq_none.mp hfound a h.1)
    | some b =>
      obtain ⟨hb, hkey⟩ := key_of_find hfound
      rw [List.inj_on_of_nodup_map distinct hb h.1 (hkey.trans h.2.symm)]

theorem mem_iff_find {l : List α} (distinct : Distinct key l) {a : α} :
    a ∈ l ↔ find key l (key a) = some a := by
  rw [find_eq_some distinct]
  simp

theorem perm_of_find {l l' : List α} (distinct : Distinct key l) (distinct' : Distinct key l')
    (h : ∀ k, find key l k = find key l' k) : l.Perm l' := by
  rw [List.perm_ext_iff_of_nodup (distinct.of_map key) (distinct'.of_map key)]
  intro a
  rw [mem_iff_find distinct, mem_iff_find distinct', h]

theorem find_perm {l l' : List α} (distinct : Distinct key l) (h : l.Perm l') (k : κ) :
    find key l k = find key l' k := by
  have distinct' : Distinct key l' := (h.map key).nodup_iff.mp distinct
  ext a
  rw [find_eq_some distinct, find_eq_some distinct', h.mem_iff]

theorem foldl_find {σ ν : Type*} (read : σ → κ → Option ν) (update : σ → α → σ)
    (change : α → Option ν → Option ν)
    (h : ∀ s a k, read (update s a) k = if key a = k then change a (read s k) else read s k)
    {changes : List α} (distinct : Distinct key changes) (s : σ) (k : κ) :
    read (changes.foldl update s) k =
      (find key changes k).elim (read s k) fun a => change a (read s k) := by
  induction changes generalizing s with
  | nil => rfl
  | cons a changes ih =>
    obtain ⟨hnew, hrest⟩ := List.nodup_cons.mp distinct
    rw [List.foldl_cons, ih hrest, find_cons, h]
    by_cases hk : key a = k
    · have hnone : find key changes k = none := by
        apply find_eq_none.mpr
        intro b hb hkey
        exact hnew (List.mem_map.mpr ⟨b, hb, hkey.trans hk.symm⟩)
      rw [if_pos hk, if_pos hk, hnone]
      rfl
    · rw [if_neg hk, if_neg hk]

omit [DecidableEq κ] in
theorem foldl_view {σ β : Type*} (view : σ → β) (update : σ → α → σ) (change : β → α → β)
    (p : α → Bool)
    (h : ∀ s a, view (update s a) = if p a = true then change (view s) a else view s)
    (l : List α) (s : σ) :
    view (l.foldl update s) = (l.filter p).foldl change (view s) := by
  induction l generalizing s with
  | nil => rfl
  | cons a l ih =>
    rw [List.foldl_cons, ih, h, List.filter_cons]
    split_ifs with hp
    · rw [List.foldl_cons]
    · rfl

theorem filter_eq_of_perm {rank : α → ℕ} {p : α → Bool} {l l' : List α} (h : l.Perm l')
    (sorted : l.Pairwise fun a b => rank a ≤ rank b)
    (sorted' : l'.Pairwise fun a b => rank a ≤ rank b)
    (apart : ∀ a ∈ l, ∀ b ∈ l, p a = true → p b = true → rank a = rank b → a = b) :
    l.filter p = l'.filter p := by
  apply List.Perm.eq_of_pairwise _ (sorted.filter p) (sorted'.filter p) (h.filter p)
  intro a b ha hb hab hba
  rw [List.mem_filter] at ha hb
  exact apart a ha.1 b (h.mem_iff.mpr hb.1) ha.2 hb.2 (Nat.le_antisymm hab hba)

theorem sum_single_key {ks : List κ} (nodup : ks.Nodup) (k : κ) (n : ℕ) :
    (ks.map fun k' => if k = k' then n else 0).sum = if k ∈ ks then n else 0 := by
  induction ks with
  | nil => rfl
  | cons k' ks ih =>
    obtain ⟨hnew, hrest⟩ := List.nodup_cons.mp nodup
    rw [List.map_cons, List.sum_cons, ih hrest]
    by_cases hk : k = k'
    · subst hk
      simp [hnew]
    · simp [hk]

theorem sum_by_key (key : α → κ) {ks : List κ} (nodup : ks.Nodup) (f : α → ℕ) (l : List α) :
    (ks.map fun k => ((l.filter fun a => decide (key a = k)).map f).sum).sum =
      ((l.filter fun a => decide (key a ∈ ks)).map f).sum := by
  induction l with
  | nil =>
    simp
  | cons a l ih =>
    have hsplit : ∀ k, (((a :: l).filter fun b => decide (key b = k)).map f).sum =
        (if key a = k then f a else 0) + ((l.filter fun b => decide (key b = k)).map f).sum := by
      intro k
      rw [List.filter_cons]
      by_cases hk : key a = k
      · simp [hk]
      · simp [hk]
    simp only [hsplit, List.sum_map_add, sum_single_key nodup, ih]
    rw [List.filter_cons]
    by_cases hmem : key a ∈ ks
    · simp [hmem]
    · simp [hmem]

end MouseVpn.Lib.KeyedList
