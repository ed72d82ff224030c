import Mathlib.Data.Nat.Notation

/-!
# Programs whose steps can fail or be the last

A program asks for operations on a state one at a time and learns of each only whether it
succeeded. A run is given the outcomes in advance and stops where they end, as if the
process had been killed there. `Guarantees` is the weakest precondition with two conditions:
one for every state in which the process can be killed and one for the state and the result
at the end.
-/

namespace MouseVpn.Lib

variable {ω σ α β : Type}

inductive Program (ω σ α : Type)
  | done (result : α)
  | attempt (op : ω) (next : Bool → Program ω σ α)
  | inspect (next : σ → Program ω σ α)

namespace Program

def bind : Program ω σ α → (α → Program ω σ β) → Program ω σ β
  | done a, f => f a
  | attempt op next, f => attempt op fun ok => (next ok).bind f
  | inspect next, f => inspect fun s => (next s).bind f

def attempted (op : ω) : Program ω σ Bool := attempt op done

/-- The `?` operator: the second part runs if the first succeeded. -/
def andThen (p q : Program ω σ Bool) : Program ω σ Bool :=
  p.bind fun ok => if ok then q else done false

def both (p q : Program ω σ Bool) : Program ω σ Bool :=
  p.bind fun left => q.bind fun right => done (left && right)

variable (apply : ω → Bool → σ → σ)

def run : Program ω σ α → List Bool → σ → σ × Option α
  | done a, _, s => (s, some a)
  | attempt _ _, [], s => (s, none)
  | attempt op next, ok :: outcomes, s => (next ok).run outcomes (apply op ok s)
  | inspect next, outcomes, s => (next s).run outcomes s

def runOk : Program ω σ α → σ → σ × α
  | done a, s => (s, a)
  | attempt op next, s => (next true).runOk (apply op true s)
  | inspect next, s => (next s).runOk s

def Guarantees (C : σ → Prop) (Q : α → σ → Prop) : Program ω σ α → σ → Prop
  | done a, s => C s ∧ Q a s
  | attempt op next, s => C s ∧ ∀ ok, (next ok).Guarantees C Q (apply op ok s)
  | inspect next, s => (next s).Guarantees C Q s

variable {apply} {C C' : σ → Prop} {Q Q' : α → σ → Prop} {p : Program ω σ α} {s : σ}

theorem Guarantees.start (h : p.Guarantees apply C Q s) : C s := by
  induction p with
  | done a => exact h.1
  | attempt op next ih => exact h.1
  | inspect next ih => exact ih s h

theorem Guarantees.run_spec (h : p.Guarantees apply C Q s) (outcomes : List Bool) :
    C (p.run apply outcomes s).1 ∧
      ∀ a, (p.run apply outcomes s).2 = some a → Q a (p.run apply outcomes s).1 := by
  induction p generalizing s outcomes with
  | done a =>
    refine ⟨h.1, ?_⟩
    intro b hb
    cases hb
    exact h.2
  | attempt op next ih =>
    cases outcomes with
    | nil =>
      refine ⟨h.1, ?_⟩
      intro a ha
      cases ha
    | cons ok outcomes => exact ih ok (h.2 ok) outcomes
  | inspect next ih => exact ih s h outcomes

theorem Guarantees.runOk_spec (h : p.Guarantees apply C Q s) :
    Q (p.runOk apply s).2 (p.runOk apply s).1 := by
  induction p generalizing s with
  | done a => exact h.2
  | attempt op next ih => exact ih true (h.2 true)
  | inspect next ih => exact ih s h

theorem Guarantees.mono (h : p.Guarantees apply C Q s) (hC : ∀ t, C t → C' t)
    (hQ : ∀ a t, Q a t → Q' a t) : p.Guarantees apply C' Q' s := by
  induction p generalizing s with
  | done a => exact ⟨hC s h.1, hQ a s h.2⟩
  | attempt op next ih => exact ⟨hC s h.1, fun ok => ih ok (h.2 ok)⟩
  | inspect next ih => exact ih s h

theorem Guarantees.with_crash (h : p.Guarantees apply C Q s) :
    p.Guarantees apply C (fun a t => C t ∧ Q a t) s := by
  induction p generalizing s with
  | done a => exact ⟨h.1, h⟩
  | attempt op next ih => exact ⟨h.1, fun ok => ih ok (h.2 ok)⟩
  | inspect next ih => exact ih s h

theorem Guarantees.inspect {next : σ → Program ω σ α} (h : (next s).Guarantees apply C Q s) :
    (Program.inspect next).Guarantees apply C Q s := h

theorem Guarantees.bind {R : β → σ → Prop} {f : α → Program ω σ β}
    (h : p.Guarantees apply C (fun a t => (f a).Guarantees apply C R t) s) :
    (p.bind f).Guarantees apply C R s := by
  induction p generalizing s with
  | done a => exact h.2
  | attempt op next ih => exact ⟨h.1, fun ok => ih ok (h.2 ok)⟩
  | inspect next ih => exact ih s h

theorem Guarantees.andThen {Q : Bool → σ → Prop} {p q : Program ω σ Bool}
    (h : p.Guarantees apply C (fun ok t => if ok then q.Guarantees apply C Q t else Q false t) s) :
    (p.andThen q).Guarantees apply C Q s := by
  apply Guarantees.bind
  refine h.with_crash.mono (fun _ ht => ht) ?_
  intro ok t ht
  cases ok with
  | true => exact ht.2
  | false => exact ht

theorem Guarantees.attempted_andThen {op : ω} {Q : Bool → σ → Prop} {q : Program ω σ Bool}
    (hstart : C s) (hfail : C (apply op false s) ∧ Q false (apply op false s))
    (hok : q.Guarantees apply C Q (apply op true s)) :
    ((attempted op).andThen q).Guarantees apply C Q s := by
  apply Guarantees.andThen
  refine ⟨hstart, fun ok => ?_⟩
  cases ok with
  | false => exact hfail
  | true => exact ⟨hok.start, hok⟩

theorem Guarantees.both {Q : Bool → σ → Prop} {p q : Program ω σ Bool}
    (h : p.Guarantees apply C
      (fun left t => q.Guarantees apply C (fun right u => Q (left && right) u) t) s) :
    (p.both q).Guarantees apply C Q s := by
  apply Guarantees.bind
  refine h.mono (fun _ ht => ht) ?_
  intro left t ht
  apply Guarantees.bind
  exact ht.with_crash

def Only (P : ω → Prop) : Program ω σ α → Prop
  | done _ => True
  | attempt op next => P op ∧ ∀ ok, (next ok).Only P
  | inspect next => ∀ s, (next s).Only P

theorem Only.bind {P : ω → Prop} {f : α → Program ω σ β} (h : p.Only P) (hf : ∀ a, (f a).Only P) :
    (p.bind f).Only P := by
  induction p with
  | done a => exact hf a
  | attempt op next ih => exact ⟨h.1, fun ok => ih ok (h.2 ok)⟩
  | inspect next ih => exact fun s => ih s (h s)

theorem Only.attempted {P : ω → Prop} {op : ω} (h : P op) :
    (attempted op : Program ω σ Bool).Only P :=
  ⟨h, fun _ => trivial⟩

theorem Only.andThen {P : ω → Prop} {p q : Program ω σ Bool} (hp : p.Only P) (hq : q.Only P) :
    (p.andThen q).Only P := by
  apply hp.bind
  intro ok
  cases ok with
  | false => exact trivial
  | true => exact hq

theorem Only.both {P : ω → Prop} {p q : Program ω σ Bool} (hp : p.Only P) (hq : q.Only P) :
    (p.both q).Only P :=
  hp.bind fun _ => hq.bind fun _ => trivial

theorem Only.guarantees {P : ω → Prop} (h : p.Only P)
    (keeps : ∀ op ok s, P op → C s → C (apply op ok s)) (hs : C s) :
    p.Guarantees apply C (fun _ t => C t) s := by
  induction p generalizing s with
  | done a => exact ⟨hs, hs⟩
  | attempt op next ih => exact ⟨hs, fun ok => ih ok (h.2 ok) (keeps op ok s h.1 hs)⟩
  | inspect next ih => exact ih s (h s) hs

theorem runOk_bind (f : α → Program ω σ β) (p : Program ω σ α) (s : σ) :
    (p.bind f).runOk apply s = (f (p.runOk apply s).2).runOk apply (p.runOk apply s).1 := by
  induction p generalizing s with
  | done a => rfl
  | attempt op next ih => exact ih true _
  | inspect next ih => exact ih s s

theorem runOk_andThen {p q : Program ω σ Bool} (hp : ∀ s, (p.runOk apply s).2 = true)
    (hq : ∀ s, (q.runOk apply s).2 = true) (s : σ) : ((p.andThen q).runOk apply s).2 = true := by
  rw [Program.andThen, runOk_bind, hp]
  exact hq _

theorem runOk_both {p q : Program ω σ Bool} (hp : ∀ s, (p.runOk apply s).2 = true)
    (hq : ∀ s, (q.runOk apply s).2 = true) (s : σ) : ((p.both q).runOk apply s).2 = true := by
  rw [Program.both, runOk_bind, runOk_bind, hp, hq]
  rfl

end Program

end MouseVpn.Lib
