import Mathlib.Logic.Function.Basic

/-!
# A token in at most one place

`held p` is what the place `p` holds. The three ways in which a token travels, from one place
to another, out of the system, and into another token at the same place, all keep it in at
most one place.
-/

namespace MouseVpn.Lib.Tokens

open Function

variable {π τ : Type} [DecidableEq π]

def Sole (held : π → Option τ) : Prop := ∀ p q, held p ≠ none → held q ≠ none → p = q

def moved (held : π → Option τ) (p q : π) : π → Option τ := update (update held p none) q (held p)

variable {held : π → Option τ}

omit [DecidableEq π] in
theorem Sole.eq_none (h : Sole held) {p q : π} (hp : held p ≠ none) (hq : q ≠ p) :
    held q = none := by
  by_contra hne
  exact hq (h q p hne hp)

theorem Sole.dropped (h : Sole held) (p : π) : Sole (update held p none) := by
  intro q r hq hr
  have hne : ∀ x, update held p none x ≠ none → held x ≠ none := by
    intro x hx hnone
    apply hx
    by_cases hxp : x = p
    · rw [hxp, update_self]
    · rw [update_of_ne hxp, hnone]
  exact h q r (hne q hq) (hne r hr)

theorem Sole.replaced (h : Sole held) {p : π} (hp : held p ≠ none) (t : Option τ) :
    Sole (update held p t) := by
  have hplace : ∀ x, update held p t x ≠ none → x = p := by
    intro x hx
    by_contra hxp
    rw [update_of_ne hxp] at hx
    exact hxp (h x p hx hp)
  intro q r hq hr
  rw [hplace q hq, hplace r hr]

theorem Sole.moved (h : Sole held) {p : π} (q : π) (hp : held p ≠ none) :
    Sole (moved held p q) := by
  have hplace : ∀ x, Tokens.moved held p q x ≠ none → x = q := by
    intro x hx
    by_contra hxq
    rw [Tokens.moved, update_of_ne hxq] at hx
    by_cases hxp : x = p
    · rw [hxp, update_self] at hx
      exact hx rfl
    · rw [update_of_ne hxp] at hx
      exact hxp (h x p hx hp)
  intro a b ha hb
  rw [hplace a ha, hplace b hb]

theorem mem_dropped {p x : π} {t : τ} (h : update held p none x = some t) :
    x ≠ p ∧ held x = some t := by
  by_cases hxp : x = p
  · rw [hxp, update_self] at h
    cases h
  · rw [update_of_ne hxp] at h
    exact ⟨hxp, h⟩

theorem Sole.dropped_eq_none (h : Sole held) {p : π} (hp : held p ≠ none) (x : π) :
    update held p none x = none := by
  by_cases hxp : x = p
  · rw [hxp, update_self]
  · rw [update_of_ne hxp, h.eq_none hp hxp]

theorem moved_self (p q : π) : moved held p q q = held p := update_self ..

theorem mem_moved {p q x : π} {t : τ} (h : moved held p q x = some t) : ∃ y, held y = some t := by
  rw [moved] at h
  by_cases hxq : x = q
  · rw [hxq, update_self] at h
    exact ⟨p, h⟩
  · rw [update_of_ne hxq] at h
    exact ⟨x, (mem_dropped h).2⟩

end MouseVpn.Lib.Tokens
