import Mathlib.Data.List.Induction
import Mathlib.Data.List.Perm.Basic

/-!
# Keys that belong to their only bidder

Bids for keys arrive one after another. The first bid for a key takes it, a second
one makes it contested, and a contested key stays contested. After all bids a key
is held exactly when one bid was made for it, in whatever order they came.
-/

namespace MouseVpn.Lib

universe u v w
variable {κ : Type u} {ω : Type v} {ε : Type w}

inductive Holding (ω : Type v)
  | free
  | held (owner : ω)
  | contested

def Holding.bid : Holding ω → ω → Holding ω
  | .free, owner => .held owner
  | .held _, _ => .contested
  | .contested, _ => .contested

namespace Bids

def Describes (bid : ε → Option (κ × ω)) (entries : List ε) (k : κ) : Holding ω → Prop
  | .free => ∀ e ∈ entries, ∀ o, bid e ≠ some (k, o)
  | .held o => ∃ e ∈ entries, bid e = some (k, o) ∧
      ∀ e' ∈ entries, ∀ o', bid e' = some (k, o') → e' = e
  | .contested => ∃ e ∈ entries, ∃ e' ∈ entries, e ≠ e' ∧
      (∃ o, bid e = some (k, o)) ∧ ∃ o', bid e' = some (k, o')

variable {bid : ε → Option (κ × ω)} {entries : List ε} {k : κ}

theorem Describes.unique {h h' : Holding ω} (hd : Describes bid entries k h)
    (hd' : Describes bid entries k h') : h = h' := by
  cases h with
  | free =>
    cases h' with
    | free => rfl
    | held o =>
      obtain ⟨e, he, hb, -⟩ := hd'
      exact absurd hb (hd e he o)
    | contested =>
      obtain ⟨e, he, -, -, -, ⟨o, hb⟩, -⟩ := hd'
      exact absurd hb (hd e he o)
  | held o =>
    obtain ⟨e, he, hb, honly⟩ := hd
    cases h' with
    | free => exact absurd hb (hd' e he o)
    | held o' =>
      obtain ⟨e', he', hb', -⟩ := hd'
      obtain rfl := honly e' he' o' hb'
      rw [hb] at hb'
      cases hb'
      rfl
    | contested =>
      obtain ⟨e₁, h₁, e₂, h₂, hne, ⟨o₁, hb₁⟩, o₂, hb₂⟩ := hd'
      exact absurd ((honly e₁ h₁ o₁ hb₁).trans (honly e₂ h₂ o₂ hb₂).symm) hne
  | contested =>
    obtain ⟨e₁, h₁, e₂, h₂, hne, ⟨o₁, hb₁⟩, o₂, hb₂⟩ := hd
    cases h' with
    | free => exact absurd hb₁ (hd' e₁ h₁ o₁)
    | held o =>
      obtain ⟨e, -, -, honly⟩ := hd'
      exact absurd ((honly e₁ h₁ o₁ hb₁).trans (honly e₂ h₂ o₂ hb₂).symm) hne
    | contested => rfl

theorem Describes.concat_other {h : Holding ω} {e : ε} (hd : Describes bid entries k h)
    (hb : ∀ o, bid e ≠ some (k, o)) : Describes bid (entries ++ [e]) k h := by
  cases h with
  | free =>
    intro e' he' o
    rcases List.mem_append.mp he' with hold | hnew
    · exact hd e' hold o
    · rw [List.mem_singleton.mp hnew]
      exact hb o
  | held o =>
    obtain ⟨e₀, he₀, hb₀, honly⟩ := hd
    refine ⟨e₀, List.mem_append_left _ he₀, hb₀, fun e' he' o' hb' => ?_⟩
    rcases List.mem_append.mp he' with hold | hnew
    · exact honly e' hold o' hb'
    · rw [List.mem_singleton.mp hnew] at hb'
      exact absurd hb' (hb o')
  | contested =>
    obtain ⟨e₁, h₁, e₂, h₂, hrest⟩ := hd
    exact ⟨e₁, List.mem_append_left _ h₁, e₂, List.mem_append_left _ h₂, hrest⟩

theorem Describes.concat_bid {h : Holding ω} {e : ε} {o : ω} (hd : Describes bid entries k h)
    (hb : bid e = some (k, o)) (hnew : e ∉ entries) :
    Describes bid (entries ++ [e]) k (h.bid o) := by
  cases h with
  | free =>
    refine ⟨e, by simp, hb, fun e' he' o' hb' => ?_⟩
    rcases List.mem_append.mp he' with hold | hlast
    · exact absurd hb' (hd e' hold o')
    · exact List.mem_singleton.mp hlast
  | held o₀ =>
    obtain ⟨e₀, he₀, hb₀, -⟩ := hd
    exact ⟨e₀, List.mem_append_left _ he₀, e, by simp, fun heq => hnew (heq ▸ he₀), ⟨o₀, hb₀⟩,
      o, hb⟩
  | contested =>
    obtain ⟨e₁, h₁, e₂, h₂, hrest⟩ := hd
    exact ⟨e₁, List.mem_append_left _ h₁, e₂, List.mem_append_left _ h₂, hrest⟩

theorem Describes.congr {entries' : List ε} (hm : ∀ e, e ∈ entries ↔ e ∈ entries')
    {h : Holding ω} (hd : Describes bid entries k h) : Describes bid entries' k h := by
  cases h <;> simpa only [Describes, hm] using hd

variable [DecidableEq κ]

def holding (bids : List (κ × ω)) (k : κ) : Holding ω :=
  bids.foldl (fun h b => if b.1 = k then h.bid b.2 else h) .free

theorem holding_concat (bids : List (κ × ω)) (b : κ × ω) (k : κ) :
    holding (bids ++ [b]) k = if b.1 = k then (holding bids k).bid b.2 else holding bids k := by
  simp [holding]

theorem mem_of_holding {bids : List (κ × ω)} {o : ω} (h : holding bids k = .held o) :
    (k, o) ∈ bids := by
  induction bids using List.reverseRecOn with
  | nil => cases h
  | append_singleton bids b ih =>
    rw [holding_concat] at h
    split_ifs at h with hk
    · cases hold : holding bids k with
      | free =>
        rw [hold, Holding.bid, Holding.held.injEq] at h
        simp [← h, ← hk]
      | held _ => simp [hold, Holding.bid] at h
      | contested => simp [hold, Holding.bid] at h
    · exact List.mem_append_left _ (ih h)

theorem describes_holding (hn : entries.Nodup) :
    Describes bid entries k (holding (entries.filterMap bid) k) := by
  induction entries using List.reverseRecOn with
  | nil => simp [Describes, holding]
  | append_singleton entries e ih =>
    rw [List.nodup_append] at hn
    have hnew : e ∉ entries := fun he => hn.2.2 e he e (by simp) rfl
    have ih := ih hn.1
    rw [List.filterMap_append]
    cases hb : bid e with
    | none =>
      simp only [List.filterMap_cons, hb, List.filterMap_nil, List.append_nil]
      exact ih.concat_other (by simp [hb])
    | some b =>
      simp only [List.filterMap_cons, hb, List.filterMap_nil, holding_concat]
      split_ifs with hk
      · exact ih.concat_bid (by rw [hb, ← hk]) hnew
      · refine ih.concat_other fun o ho => hk ?_
        rw [hb] at ho
        cases ho
        rfl

theorem holding_iff (hn : entries.Nodup) {h : Holding ω} :
    holding (entries.filterMap bid) k = h ↔ Describes bid entries k h := by
  refine ⟨?_, fun hd => (describes_holding hn).unique hd⟩
  rintro rfl
  exact describes_holding hn

theorem holding_congr {entries' : List ε} (hn : entries.Nodup) (hn' : entries'.Nodup)
    (hm : ∀ e, e ∈ entries ↔ e ∈ entries') (k : κ) :
    holding (entries.filterMap bid) k = holding (entries'.filterMap bid) k :=
  ((holding_iff hn').mpr ((describes_holding hn).congr hm)).symm

end Bids

end MouseVpn.Lib
