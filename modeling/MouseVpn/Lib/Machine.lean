import Mathlib.Data.List.Induction
import Mathlib.Data.List.ReduceOption

/-!
# Deterministic machines with outputs

`step` consumes one input, changes the state and answers. A run consumes a
list of inputs from the left. Invariants are proved by one rule that keeps
the inputs consumed so far in view, so that an invariant may speak of history.
-/

namespace MouseVpn.Lib.Machine

variable {σ ι ο α : Type*} (step : σ → ι → σ × ο)

def run (s : σ) (is : List ι) : σ := is.foldl (fun s i => (step s i).1) s

/-- What `f` reads from the state and the input before each step. -/
def observe (f : σ → ι → α) : σ → List ι → List α
  | _, [] => []
  | s, i :: is => f s i :: observe f (step s i).1 is

def collect (f : σ → ι → Option α) (s : σ) (is : List ι) : List α :=
  (observe step f s is).reduceOption

def outputs (s : σ) (is : List ι) : List ο := observe step (fun s i => (step s i).2) s is

@[simp] theorem run_nil (s : σ) : run step s [] = s := rfl

@[simp] theorem run_cons (s : σ) (i : ι) (is : List ι) :
    run step s (i :: is) = run step (step s i).1 is := rfl

theorem run_append (s : σ) (is js : List ι) :
    run step s (is ++ js) = run step (run step s is) js := List.foldl_append

@[simp] theorem run_concat (s : σ) (is : List ι) (i : ι) :
    run step s (is ++ [i]) = (step (run step s is) i).1 := by
  simp [run_append]

@[simp] theorem observe_length (f : σ → ι → α) (s : σ) (is : List ι) :
    (observe step f s is).length = is.length := by
  induction is generalizing s with
  | nil => rfl
  | cons i is ih => simp [observe, ih]

theorem observe_append (f : σ → ι → α) (s : σ) (is js : List ι) :
    observe step f s (is ++ js) = observe step f s is ++ observe step f (run step s is) js := by
  induction is generalizing s with
  | nil => rfl
  | cons i is ih => simp [observe, ih]

@[simp] theorem observe_concat (f : σ → ι → α) (s : σ) (is : List ι) (i : ι) :
    observe step f s (is ++ [i]) = observe step f s is ++ [f (run step s is) i] := by
  simp [observe_append, observe]

@[simp] theorem collect_nil (f : σ → ι → Option α) (s : σ) : collect step f s [] = [] := rfl

theorem collect_cons (f : σ → ι → Option α) (s : σ) (i : ι) (is : List ι) :
    collect step f s (i :: is) = (f s i).toList ++ collect step f (step s i).1 is := by
  simp only [collect, observe]
  cases f s i <;> rfl

@[simp] theorem collect_concat (f : σ → ι → Option α) (s : σ) (is : List ι) (i : ι) :
    collect step f s (is ++ [i]) = collect step f s is ++ (f (run step s is) i).toList := by
  simp only [collect, observe_concat, List.reduceOption_append]
  cases f (run step s is) i <;> rfl

theorem mem_observe {f : σ → ι → α} {s : σ} {is : List ι} {a : α} :
    a ∈ observe step f s is ↔ ∃ pre i post, is = pre ++ i :: post ∧ f (run step s pre) i = a := by
  induction is generalizing s with
  | nil => simp [observe]
  | cons i is ih =>
    simp only [observe, List.mem_cons, ih]
    constructor
    · rintro (rfl | ⟨pre, j, post, rfl, rfl⟩)
      · exact ⟨[], i, is, rfl, rfl⟩
      · exact ⟨i :: pre, j, post, rfl, rfl⟩
    · rintro ⟨pre, j, post, he, rfl⟩
      cases pre with
      | nil =>
        obtain ⟨rfl, -⟩ := List.cons.inj he
        exact Or.inl rfl
      | cons k pre =>
        obtain ⟨rfl, rfl⟩ := List.cons.inj he
        exact Or.inr ⟨pre, j, post, rfl, rfl⟩

theorem split_concat {is pre post : List ι} {i j : ι} (h : is ++ [i] = pre ++ j :: post) :
    (is = pre ∧ i = j ∧ post = []) ∨ ∃ post', post = post' ++ [i] ∧ is = pre ++ j :: post' := by
  induction post using List.reverseRecOn with
  | nil =>
    obtain ⟨h₁, h₂⟩ := List.append_inj' h rfl
    exact Or.inl ⟨h₁, (List.cons.inj h₂).1, rfl⟩
  | append_singleton post k =>
    rw [← List.cons_append, ← List.append_assoc] at h
    obtain ⟨h₁, h₂⟩ := List.append_inj' h rfl
    obtain rfl := (List.cons.inj h₂).1
    exact Or.inr ⟨post, rfl, h₁⟩

/-- An input at which `P` holds of what came before it, and after which `Q` holds of every input
and what came before that. -/
def Since (P Q : List ι → ι → Prop) (is : List ι) : Prop :=
  ∃ before i after, is = before ++ i :: after ∧ P before i ∧
    ∀ first j second, after = first ++ j :: second → Q (before ++ i :: first) j

theorem not_since_nil {P Q : List ι → ι → Prop} : ¬ Since P Q [] := by
  rintro ⟨before, i, after, h, -⟩
  simp at h

theorem since_concat {P Q : List ι → ι → Prop} {is : List ι} {i : ι} :
    Since P Q (is ++ [i]) ↔ P is i ∨ Since P Q is ∧ Q is i := by
  constructor
  · rintro ⟨before, j, after, hsplit, hP, hQ⟩
    rcases split_concat hsplit with ⟨rfl, rfl, rfl⟩ | ⟨after, rfl, rfl⟩
    · exact Or.inl hP
    · refine Or.inr ⟨⟨before, j, after, rfl, hP, ?_⟩, hQ after i [] rfl⟩
      intro first k second h
      exact hQ first k (second ++ [i]) (by rw [h]; simp)
  · rintro (hP | ⟨⟨before, j, after, rfl, hP, hQ⟩, hlast⟩)
    · exact ⟨is, i, [], rfl, hP, fun first k second h => by simp at h⟩
    · refine ⟨before, j, after ++ [i], by simp, hP, ?_⟩
      intro first k second h
      rcases split_concat h with ⟨rfl, rfl, -⟩ | ⟨second, -, h⟩
      · exact hlast
      · exact hQ first k second h

theorem run_induction {s₀ : σ} (Inv : List ι → σ → Prop) (init : Inv [] s₀)
    (next : ∀ is i, Inv is (run step s₀ is) →
      Inv (is ++ [i]) (step (run step s₀ is) i).1)
    (is : List ι) : Inv is (run step s₀ is) := by
  induction is using List.reverseRecOn with
  | nil => exact init
  | append_singleton is i ih =>
    rw [run_concat]
    exact next is i ih

theorem run_invariant (Inv : σ → Prop) (next : ∀ s i, Inv s → Inv (step s i).1)
    {s : σ} (hs : Inv s) (is : List ι) : Inv (run step s is) :=
  run_induction step (fun _ s => Inv s) hs (fun _ _ h => next _ _ h) is

/-- Every input of the run satisfies `P` in the state that it meets. -/
def Obeys (P : σ → ι → Prop) : σ → List ι → Prop
  | _, [] => True
  | s, i :: is => P s i ∧ Obeys P (step s i).1 is

theorem obeys_forall_iff {P : ι → Prop} {is : List ι} (s : σ) :
    Obeys step (fun _ i => P i) s is ↔ ∀ i ∈ is, P i := by
  induction is generalizing s with
  | nil => simp [Obeys]
  | cons i is ih => rw [Obeys, ih, List.forall_mem_cons]

theorem obeys_and_iff {P Q : σ → ι → Prop} {s : σ} {is : List ι} :
    Obeys step (fun s i => P s i ∧ Q s i) s is ↔ Obeys step P s is ∧ Obeys step Q s is := by
  induction is generalizing s with
  | nil => simp [Obeys]
  | cons i is ih =>
    rw [Obeys, Obeys, Obeys, ih]
    exact and_and_and_comm

theorem obeys_congr {P Q : σ → ι → Prop} {is : List ι} (h : ∀ s, ∀ i ∈ is, P s i ↔ Q s i) (s : σ) :
    Obeys step P s is ↔ Obeys step Q s is := by
  induction is generalizing s with
  | nil => exact Iff.rfl
  | cons i is ih =>
    rw [Obeys, Obeys, h s i List.mem_cons_self,
      ih (fun t j hj => h t j (List.mem_cons_of_mem i hj))]

theorem obeys_append {P : σ → ι → Prop} {s : σ} {is js : List ι} :
    Obeys step P s (is ++ js) ↔ Obeys step P s is ∧ Obeys step P (run step s is) js := by
  induction is generalizing s with
  | nil => exact ⟨fun h => ⟨trivial, h⟩, fun h => h.2⟩
  | cons i is ih => rw [List.cons_append, Obeys, Obeys, ih, and_assoc, run_cons]

/-- If `P` says exactly which steps keep an invariant, among those that satisfy `Q`, a run of such
steps obeys it exactly if the invariant holds all along. -/
theorem obeys_iff_invariant_of_obeys {P Q : σ → ι → Prop} (Inv : σ → Prop)
    (next : ∀ s i, Inv s → Q s i → (Inv (step s i).1 ↔ P s i)) {s : σ} (hs : Inv s) {is : List ι}
    (hq : Obeys step Q s is) :
    Obeys step P s is ↔ ∀ pre post, is = pre ++ post → Inv (run step s pre) := by
  induction is generalizing s with
  | nil =>
    refine ⟨fun _ pre post h => ?_, fun _ => trivial⟩
    rw [(List.append_eq_nil_iff.mp h.symm).1]
    exact hs
  | cons i is ih =>
    constructor
    · intro h pre post hsplit
      cases pre with
      | nil => exact hs
      | cons j pre =>
        obtain ⟨rfl, hrest⟩ := List.cons.inj hsplit
        exact (ih ((next s _ hs hq.1).mpr h.1) hq.2).mp h.2 pre post hrest
    · intro h
      have hnext : Inv (step s i).1 := h [i] is rfl
      refine ⟨(next s i hs hq.1).mp hnext, (ih hnext hq.2).mpr ?_⟩
      intro pre post hsplit
      exact h (i :: pre) post (congrArg (i :: ·) hsplit)

theorem obeys_iff_invariant {P : σ → ι → Prop} (Inv : σ → Prop)
    (next : ∀ s i, Inv s → (Inv (step s i).1 ↔ P s i)) {s : σ} (hs : Inv s) {is : List ι} :
    Obeys step P s is ↔ ∀ pre post, is = pre ++ post → Inv (run step s pre) :=
  obeys_iff_invariant_of_obeys step Inv (fun s i h _ => next s i h) hs
    ((obeys_forall_iff step s).mpr fun _ _ => trivial)

theorem obeys_congr_of_invariant {P Q : σ → ι → Prop} (Inv : σ → Prop)
    (same : ∀ s i, Inv s → (P s i ↔ Q s i)) (next : ∀ s i, Inv s → Q s i → Inv (step s i).1)
    {s : σ} (hs : Inv s) {is : List ι} : Obeys step P s is ↔ Obeys step Q s is := by
  induction is generalizing s with
  | nil => exact Iff.rfl
  | cons i is ih =>
    rw [Obeys, Obeys, same s i hs]
    exact and_congr_right fun hq => ih (next s i hs hq)

theorem run_invariant_of_obeys {P : σ → ι → Prop} (Inv : σ → Prop)
    (next : ∀ s i, Inv s → P s i → Inv (step s i).1) {s : σ} (hs : Inv s) {is : List ι}
    (h : Obeys step P s is) : Inv (run step s is) := by
  induction is generalizing s with
  | nil => exact hs
  | cons i is ih => exact ih (next s i hs h.1) h.2

theorem run_origin {s₀ : σ} (Has : σ → α → Prop) (Born : σ → ι → α → Prop)
    (init : ∀ a, ¬ Has s₀ a) (next : ∀ s i a, Has (step s i).1 a → Has s a ∨ Born s i a)
    {is : List ι} {a : α} (h : Has (run step s₀ is) a) :
    ∃ pre i post, is = pre ++ i :: post ∧ Born (run step s₀ pre) i a := by
  induction is using List.reverseRecOn with
  | nil => exact absurd h (init a)
  | append_singleton is i ih =>
    rw [run_concat] at h
    rcases next _ i a h with hold | hnew
    · obtain ⟨pre, j, post, rfl, hb⟩ := ih hold
      exact ⟨pre, j, post ++ [i], by simp, hb⟩
    · exact ⟨is, i, [], rfl, hnew⟩

theorem run_rel (R : σ → σ → Prop) (refl : ∀ s, R s s) (trans : ∀ a b c, R a b → R b c → R a c)
    (next : ∀ s i, R s (step s i).1) (s : σ) (is : List ι) : R s (run step s is) :=
  run_invariant step (R s) (fun t i h => trans s t _ h (next t i)) (refl s) is

section Simulation

variable {τ : Type*} (step' : τ → ι → τ × ο) (R : σ → τ → Prop)

def Simulates : Prop :=
  ∀ s t i, R s t → (step s i).2 = (step' t i).2 ∧ R (step s i).1 (step' t i).1

variable {step step' R}

theorem Simulates.run (h : Simulates step step' R) {s : σ} {t : τ} (hst : R s t) (is : List ι) :
    R (Machine.run step s is) (Machine.run step' t is) := by
  induction is generalizing s t with
  | nil => exact hst
  | cons i is ih => exact ih (h s t i hst).2

theorem Simulates.outputs (h : Simulates step step' R) {s : σ} {t : τ} (hst : R s t)
    (is : List ι) : Machine.outputs step s is = Machine.outputs step' t is := by
  induction is generalizing s t with
  | nil => rfl
  | cons i is ih =>
    obtain ⟨answer, next⟩ := h s t i hst
    exact List.cons_eq_cons.mpr ⟨answer, ih next⟩

end Simulation

section Loop

variable (pass : σ → ι → σ × Option α)

def returned (s : σ) (is : List ι) : Option α := (outputs pass s is).findSome? id

theorem returned_append (s : σ) (is js : List ι) :
    returned pass s (is ++ js) = (returned pass s is).or (returned pass (run pass s is) js) := by
  rw [returned, outputs, observe_append, List.findSome?_append]
  rfl

theorem returned_cons (s : σ) (i : ι) (is : List ι) :
    returned pass s (i :: is) = (pass s i).2.or (returned pass (pass s i).1 is) := by
  rw [returned, outputs, observe, List.findSome?_cons]
  cases h : (pass s i).2 <;> rfl

theorem exists_of_returned {s : σ} {is : List ι} {a : α} (h : returned pass s is = some a) :
    ∃ t, ∃ i ∈ is, (pass t i).2 = some a := by
  obtain ⟨answer, hmem, ha⟩ := List.exists_of_findSome?_eq_some h
  obtain ⟨pre, i, post, rfl, hi⟩ := (mem_observe pass).mp hmem
  exact ⟨run pass s pre, i, by simp, hi.trans ha⟩

theorem returned_eq_none_iff {s : σ} {is : List ι} :
    returned pass s is = none ↔ Obeys pass (fun s i => (pass s i).2 = none) s is := by
  induction is generalizing s with
  | nil => exact ⟨fun _ => trivial, fun _ => rfl⟩
  | cons i is ih => rw [returned_cons, Obeys, Option.or_eq_none_iff, ih]

end Loop

section Refinement

variable {τ κ ο' : Type*} (step : σ → ι → σ × ο) (step' : τ → κ → τ × ο') (view : σ → τ)
  (act : σ → ι → κ) (answer : ο → ο')

def Refines : Prop :=
  ∀ s i, view (step s i).1 = (step' (view s) (act s i)).1 ∧
    answer (step s i).2 = (step' (view s) (act s i)).2

variable {step step' view act answer}

theorem Refines.outputs (h : Refines step step' view act answer) (s : σ) (is : List ι) :
    (Machine.outputs step s is).map answer =
      Machine.outputs step' (view s) (observe step act s is) := by
  induction is generalizing s with
  | nil => rfl
  | cons i is ih =>
    have hrest := ih (step s i).1
    rw [(h s i).1] at hrest
    exact List.cons_eq_cons.mpr ⟨(h s i).2, hrest⟩

theorem Refines.obeys (h : Refines step step' view act answer) {P : τ → κ → Prop} (Inv : σ → Prop)
    (next : ∀ s i, Inv s → Inv (step s i).1) (allowed : ∀ s i, Inv s → P (view s) (act s i))
    {s : σ} (hs : Inv s) (is : List ι) : Obeys step' P (view s) (observe step act s is) := by
  induction is generalizing s with
  | nil => trivial
  | cons i is ih =>
    refine ⟨allowed s i hs, ?_⟩
    rw [← (h s i).1]
    exact ih (next s i hs)

end Refinement

end MouseVpn.Lib.Machine
