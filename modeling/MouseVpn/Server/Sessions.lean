import MouseVpn.Lib.HashMap
import MouseVpn.Lib.Machine
import MouseVpn.Lib.RustStd

/-!
# The session index

Sessions are shared by pointer and found by session ID or by tunnel address.
`π` is the pointer, compared as `Arc::ptr_eq` compares, and `clientAddress` reads
the one field that the index needs; it never changes while the session lives.
-/

namespace MouseVpn.Server

open MouseVpn.Lib

structure Sessions (π : Type*) where
  byId : HashMap UInt64 π
  byAddress : HashMap Ipv4Addr π

namespace Sessions

variable {π : Type*} (clientAddress : π → Ipv4Addr)

def empty : Sessions π := ⟨∅, ∅⟩

def collides (t : Sessions π) (sessionId : UInt64) (address : Ipv4Addr) : Bool :=
  (t.byId.lookup sessionId).any fun existing => clientAddress existing ≠ address

structure Bijective (t : Sessions π) : Prop where
  own_address : ∀ a s, t.byAddress.lookup a = some s → clientAddress s = a
  one_id : t.byId.Injective
  same : ∀ s, (∃ i, t.byId.lookup i = some s) ↔ t.byAddress.lookup (clientAddress s) = some s

variable {clientAddress}

theorem empty_bijective : Bijective clientAddress (empty : Sessions π) := by
  refine ⟨?_, ?_, ?_⟩
  · intro a s h
    simp [empty] at h
  · intro i i' s h
    simp [empty] at h
  · intro s
    simp [empty]

theorem collides_eq_false {t : Sessions π} {i : UInt64} {a : Ipv4Addr} :
    t.collides clientAddress i a = false ↔
      ∀ x, t.byId.lookup i = some x → clientAddress x = a := by
  unfold collides
  cases t.byId.lookup i <;> simp

theorem Bijective.mem_values {t : Sessions π} (hb : Bijective clientAddress t) (x : π) :
    x ∈ t.byId.values ↔ x ∈ t.byAddress.values := by
  rw [HashMap.mem_values, HashMap.mem_values, hb.same]
  constructor
  · exact fun h => ⟨_, h⟩
  · rintro ⟨a, ha⟩
    rw [hb.own_address a x ha]
    exact ha

theorem Bijective.byAddress_injective {t : Sessions π} (hb : Bijective clientAddress t) :
    t.byAddress.Injective := by
  intro a a' x ha ha'
  rw [← hb.own_address a x ha, ← hb.own_address a' x ha']

variable [DecidableEq π]

def replaceClient (clientAddress : π → Ipv4Addr) (t : Sessions π) (sessionId : UInt64)
    (session : π) : Sessions π × Bool :=
  let address := clientAddress session
  if t.collides clientAddress sessionId address then (t, false)
  else
    let byId :=
      match t.byAddress.lookup address with
      | some previous => t.byId.retain fun _ existing => existing ≠ previous
      | none => t.byId
    (⟨byId.insert sessionId session, t.byAddress.insert address session⟩, true)

theorem replaceClient_collides {t : Sessions π} {i : UInt64} {s : π}
    (h : t.collides clientAddress i (clientAddress s) = true) :
    t.replaceClient clientAddress i s = (t, false) := by
  simp [replaceClient, h]

theorem replaceClient_snd (t : Sessions π) (i : UInt64) (s : π) :
    (t.replaceClient clientAddress i s).2 = !t.collides clientAddress i (clientAddress s) := by
  cases h : t.collides clientAddress i (clientAddress s) <;> simp [replaceClient, h]

theorem replaceClient_byAddress {t : Sessions π} {i : UInt64} {s : π}
    (h : t.collides clientAddress i (clientAddress s) = false) (a : Ipv4Addr) :
    (t.replaceClient clientAddress i s).1.byAddress.lookup a =
      if a = clientAddress s then some s else t.byAddress.lookup a := by
  simp only [replaceClient, h, Bool.false_eq_true, if_false]
  exact HashMap.lookup_insert_ite _ _ _ _

theorem replaceClient_byId {t : Sessions π} {i : UInt64} {s : π}
    (h : t.collides clientAddress i (clientAddress s) = false) (j : UInt64) (x : π) :
    (t.replaceClient clientAddress i s).1.byId.lookup j = some x ↔
      (j = i ∧ x = s) ∨ (j ≠ i ∧ t.byId.lookup j = some x ∧
        t.byAddress.lookup (clientAddress s) ≠ some x) := by
  simp only [replaceClient, h, Bool.false_eq_true, if_false]
  rw [HashMap.lookup_insert_ite]
  by_cases hj : j = i
  · simp [hj, eq_comm]
  · simp only [hj, if_false, false_and, false_or, ne_eq, not_false_eq_true, true_and]
    cases ht : t.byAddress.lookup (clientAddress s) with
    | none => simp
    | some previous =>
      simp only [HashMap.lookup_retain, Option.filter_eq_some_iff, decide_not, Bool.not_eq_true',
        decide_eq_false_iff_not, Option.some.injEq]
      exact and_congr_right fun _ => not_congr eq_comm

theorem replaceClient_byId_of_bijective {t : Sessions π} (hb : Bijective clientAddress t)
    {i : UInt64} {s : π} (h : t.collides clientAddress i (clientAddress s) = false)
    (j : UInt64) (x : π) :
    (t.replaceClient clientAddress i s).1.byId.lookup j = some x ↔
      (j = i ∧ x = s) ∨ (t.byId.lookup j = some x ∧ clientAddress x ≠ clientAddress s) := by
  rw [replaceClient_byId h]
  have hfree := collides_eq_false.mp h
  constructor
  · rintro (hs | ⟨-, hx, hne⟩)
    · exact Or.inl hs
    · refine Or.inr ⟨hx, fun ha => hne ?_⟩
      rw [← ha]
      exact (hb.same x).mp ⟨j, hx⟩
  · rintro (hs | ⟨hx, ha⟩)
    · exact Or.inl hs
    · refine Or.inr ⟨?_, hx, fun hl => ha (hb.own_address _ _ hl)⟩
      rintro rfl
      exact ha (hfree x hx)

theorem replaceClient_bijective {t : Sessions π} (hb : Bijective clientAddress t) (i : UInt64)
    (s : π) : Bijective clientAddress (t.replaceClient clientAddress i s).1 := by
  cases h : t.collides clientAddress i (clientAddress s) with
  | true =>
    rw [replaceClient_collides h]
    exact hb
  | false =>
    have hid := replaceClient_byId_of_bijective hb h
    have haddr := replaceClient_byAddress h
    refine ⟨fun a x hx => ?_, fun j j' x hj hj' => ?_, fun x => ?_⟩
    · rw [haddr] at hx
      split_ifs at hx with ha
      · cases hx
        exact ha.symm
      · exact hb.own_address a x hx
    · rcases (hid j x).mp hj with ⟨rfl, rfl⟩ | ⟨hl, ha⟩
      · rcases (hid j' x).mp hj' with ⟨rfl, -⟩ | ⟨-, ha'⟩
        · rfl
        · exact absurd rfl ha'
      · rcases (hid j' x).mp hj' with ⟨-, rfl⟩ | ⟨hl', -⟩
        · exact absurd rfl ha
        · exact hb.one_id j j' x hl hl'
    · rw [haddr]
      by_cases ha : clientAddress x = clientAddress s
      · simp only [ha, if_true, hid, ne_eq, not_true_eq_false, and_false, or_false,
          exists_eq_left, Option.some.injEq]
        exact eq_comm
      · have hne : x ≠ s := fun hx => ha (congrArg clientAddress hx)
        simp only [ha, if_false, hid, hne, and_false, false_or, ne_eq, not_false_eq_true, and_true,
          hb.same]

def call (clientAddress : π → Ipv4Addr) (t : Sessions π) (c : UInt64 × π) : Sessions π × Bool :=
  t.replaceClient clientAddress c.1 c.2

theorem run_bijective (clientAddress : π → Ipv4Addr) (cs : List (UInt64 × π)) :
    Bijective clientAddress (Machine.run (call clientAddress) empty cs) :=
  Machine.run_invariant (call clientAddress) (Bijective clientAddress)
    (fun _ c h => replaceClient_bijective h c.1 c.2) empty_bijective cs

def after (clientAddress : π → Ipv4Addr) (cs : List (UInt64 × π)) : Sessions π :=
  Machine.run (call clientAddress) empty cs

/-- What a call does to an index: refused for an ID of another address, and then
without effect; otherwise the session is found under both keys and sessions of
other addresses are found as before. -/
structure CallSound (clientAddress : π → Ipv4Addr) (t : Sessions π) (i : UInt64) (s : π) :
    Prop where
  refused_iff : (t.replaceClient clientAddress i s).2 = false ↔
    ∃ x, t.byId.lookup i = some x ∧ clientAddress x ≠ clientAddress s
  refused_unchanged : (t.replaceClient clientAddress i s).2 = false →
    (t.replaceClient clientAddress i s).1 = t
  reachable : (t.replaceClient clientAddress i s).2 = true →
    (t.replaceClient clientAddress i s).1.byId.lookup i = some s ∧
    (t.replaceClient clientAddress i s).1.byAddress.lookup (clientAddress s) = some s
  others_byId : ∀ j x, clientAddress x ≠ clientAddress s →
    ((t.replaceClient clientAddress i s).1.byId.lookup j = some x ↔ t.byId.lookup j = some x)
  others_byAddress : ∀ a, a ≠ clientAddress s →
    (t.replaceClient clientAddress i s).1.byAddress.lookup a = t.byAddress.lookup a

theorem Bijective.callSound {t : Sessions π} (hb : Bijective clientAddress t) (i : UInt64)
    (s : π) : CallSound clientAddress t i s := by
  cases h : t.collides clientAddress i (clientAddress s) with
  | true =>
    have heq := replaceClient_collides h
    have hx : ∃ x, t.byId.lookup i = some x ∧ clientAddress x ≠ clientAddress s := by
      by_contra hn
      have hfree := collides_eq_false.mpr fun x hx => by_contra fun ha => hn ⟨x, hx, ha⟩
      rw [hfree] at h
      cases h
    constructor <;> simp [heq, hx]
  | false =>
    have hid := replaceClient_byId_of_bijective hb h
    have haddr := replaceClient_byAddress h
    have hsnd : (t.replaceClient clientAddress i s).2 = true := by simp [replaceClient_snd, h]
    refine ⟨?_, ?_, fun _ => ⟨(hid i s).mpr (Or.inl ⟨rfl, rfl⟩), by simp [haddr]⟩,
      fun j x hx => ?_, fun a ha => by simp [haddr, ha]⟩
    · simpa [hsnd] using collides_eq_false.mp h
    · simp [hsnd]
    · have hne : x ≠ s := fun he => hx (congrArg clientAddress he)
      simp [hid, hne, hx]

/-- After any calls both maps index the same sessions, one ID and one address each. -/
theorem index_bijection (clientAddress : π → Ipv4Addr) (cs : List (UInt64 × π)) :
    (∀ s, s ∈ (after clientAddress cs).byId.values ↔
      s ∈ (after clientAddress cs).byAddress.values) ∧
    (∀ s ∈ (after clientAddress cs).byId.values,
      (∃! i, (after clientAddress cs).byId.lookup i = some s) ∧
      ∀ a, (after clientAddress cs).byAddress.lookup a = some s ↔ a = clientAddress s) ∧
    (after clientAddress cs).byId.keys.length = (after clientAddress cs).byAddress.keys.length ∧
    ∀ i s, CallSound clientAddress (after clientAddress cs) i s := by
  have hb : Bijective clientAddress (after clientAddress cs) := run_bijective clientAddress cs
  refine ⟨hb.mem_values, fun s hs => ?_, ?_, hb.callSound⟩
  · obtain ⟨i, hi⟩ := HashMap.mem_values.mp hs
    refine ⟨⟨i, hi, fun j hj => hb.one_id j i s hj hi⟩, fun a => ?_⟩
    constructor
    · intro ha
      exact (hb.own_address a s ha).symm
    · rintro rfl
      exact (hb.same s).mp ⟨i, hi⟩
  · exact HashMap.keys_length_eq hb.one_id hb.byAddress_injective hb.mem_values

end Sessions

end MouseVpn.Server
