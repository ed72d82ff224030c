import Mathlib.Data.List.GetD
import Mathlib.Data.Nat.Notation
import Mathlib.Tactic.SplitIfs

/-!
# Fixed slots that are filled from the front

A loop that keeps a fixed array of slots and a number of entries writes each new entry to
the first free slot. What the slots behind the entries hold is left over and never matters.
-/

namespace MouseVpn.Lib.Slots

variable {α β : Type*} {n : ℕ}

def Holds (R : α → β → Prop) (slots : Vector α n) (xs : List β) : Prop :=
  ∀ (j : ℕ) (x : β), xs[j]? = some x → ∃ a, slots[j]? = some a ∧ R a x

variable {R : α → β → Prop} {slots : Vector α n} {xs : List β}

theorem holds_nil (R : α → β → Prop) (slots : Vector α n) : Holds R slots [] := by
  intro j x h
  simp at h

theorem lt_length_of_getElem? {j : ℕ} {x : β} (h : xs[j]? = some x) : j < xs.length :=
  (List.getElem?_eq_some_iff.mp h).1

theorem Holds.rewrite (h : Holds R slots xs) {i : ℕ} (hi : xs.length ≤ i) (a : α) :
    Holds R (slots.setIfInBounds i a) xs := by
  intro j x hx
  have hj := lt_length_of_getElem? hx
  rw [Vector.getElem?_setIfInBounds, if_neg (by omega)]
  exact h j x hx

theorem Holds.push (h : Holds R slots xs) (hlt : xs.length < n) {a : α} {x : β} (hr : R a x) :
    Holds R (slots.setIfInBounds xs.length a) (xs ++ [x]) := by
  intro j y hy
  rw [Vector.getElem?_setIfInBounds]
  by_cases hj : xs.length = j
  · rw [if_pos hj, if_pos hlt]
    rw [← hj, List.getElem?_concat_length, Option.some.injEq] at hy
    rw [← hy]
    exact ⟨a, rfl, hr⟩
  · have hlength := lt_length_of_getElem? hy
    rw [List.length_append, List.length_singleton] at hlength
    rw [List.getElem?_append_left (by omega)] at hy
    rw [if_neg hj]
    exact h j y hy

def fill (buffer : Vector α n) (xs : List α) : Vector α n :=
  Vector.ofFn fun i => xs.getD i (buffer.get i)

theorem take_fill (buffer : Vector α n) {xs : List α} (h : xs.length ≤ n) :
    (fill buffer xs).toList.take xs.length = xs := by
  apply List.ext_getElem?
  intro j
  by_cases hj : j < xs.length
  · have hn : j < n := by omega
    rw [List.getElem?_take_of_lt hj, fill, Vector.toList_ofFn, List.getElem?_ofFn, dif_pos hn,
      List.getD_eq_getElem _ _ hj, List.getElem?_eq_getElem hj]
  · rw [List.getElem?_eq_none (by rw [List.length_take]; omega), List.getElem?_eq_none (by omega)]

end MouseVpn.Lib.Slots
