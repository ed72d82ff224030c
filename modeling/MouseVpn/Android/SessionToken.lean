import MouseVpn.Android.Registry
import MouseVpn.Lib.Tokens

/-!
# The session of a handle as a token

The session is in the map or with one of the calls. A step leaves it where it is, moves it,
drops it, or makes a running session of a pending one.
-/

namespace MouseVpn.Android.State

open MouseVpn.Lib Function Tokens

variable {Pending : Type} {st st' : State Pending} {handle handle' : Handle} {i : ℕ}
  {call call' : Call Pending}

def callHeld : Call Pending → Option (Entry Pending)
  | .taken session => some (.pending session)
  | .spawned session => some (.running session)
  | .takenRunning session => some (.running session)
  | .joining session => some (.running session)
  | .starting => none
  | .started _ => none
  | .stopping => none
  | .stopped => none

/-- What the map (`none`) or a call holds for the handle. -/
def held (st : State Pending) (handle : Handle) : Option ℕ → Option (Entry Pending)
  | none => st.registry.lookup handle
  | some i => st.calls[i]?.bind fun entry => if entry.1 = handle then callHeld entry.2 else none

theorem held_call (at_i : st.calls[i]? = some (handle, call)) :
    st.held handle (some i) = callHeld call := by
  rw [held, at_i, Option.bind_some, if_pos rfl]

theorem held_registry (st : State Pending) (registry : HashMap Handle (Entry Pending)) :
    held { st with registry := registry } handle =
      update (st.held handle) none (registry.lookup handle) := by
  funext place
  cases place with
  | none => rw [update_self]; rfl
  | some j => rw [update_of_ne (Option.some_ne_none j)]; rfl

theorem held_setCall (st : State Pending) (at_i : st.calls[i]? = some (handle', call))
    (call' : Call Pending) :
    (st.setCall i handle' call').held handle =
      update (st.held handle) (some i) (if handle' = handle then callHeld call' else none) := by
  obtain ⟨hlt, -⟩ := List.getElem?_eq_some_iff.1 at_i
  funext place
  cases place with
  | none => rw [update_of_ne (Option.some_ne_none i).symm]; rfl
  | some j =>
    by_cases hji : j = i
    · rw [hji, update_self, held, setCall, List.getElem?_set_self hlt, Option.bind_some]
    · have hne : some j ≠ some i := fun h => hji (Option.some.inj h)
      rw [update_of_ne hne, held, held, setCall, List.getElem?_set_ne (Ne.symm hji)]

structure Keeps (handle : Handle) (st st' : State Pending) : Prop where
  alive : ∀ w : ℕ, st'.workers[w]? = some ⟨handle, true⟩ → st.workers[w]? = some ⟨handle, true⟩
  known : ∀ (w : ℕ) alive, st.workers[w]? = some ⟨handle, alive⟩ →
    ∃ alive', st'.workers[w]? = some ⟨handle, alive'⟩

theorem Keeps.of_eq (h : st'.workers = st.workers) : Keeps handle st st' := by
  constructor
  · intro w hw
    rwa [h] at hw
  · intro w alive hw
    exact ⟨alive, by rwa [h]⟩

inductive Moves (handle : Handle) (st st' : State Pending) : Prop
  | stay (held_eq : st'.held handle = st.held handle) (keeps : Keeps handle st st')
  | move (p q : Option ℕ) (some_p : st.held handle p ≠ none)
      (held_eq : st'.held handle = moved (st.held handle) p q) (keeps : Keeps handle st st')
  | drop (p : Option ℕ)
      (idle : ∀ session, st.held handle p = some (.running session) →
        st.isAlive session.worker = false)
      (held_eq : st'.held handle = update (st.held handle) p none) (keeps : Keeps handle st st')
  | spawn (p : Option ℕ) (session : Pending) (pending : st.held handle p = some (.pending session))
      (held_eq : st'.held handle =
        update (st.held handle) p (some (.running ⟨st.workers.length⟩)))
      (workers_eq : st'.workers = st.workers ++ [⟨handle, true⟩])

theorem Keeps.spawn_other (hne : handle' ≠ handle)
    (h : st'.workers = st.workers ++ [⟨handle', true⟩]) : Keeps handle st st' := by
  constructor
  · intro w hw
    rw [h, List.getElem?_append] at hw
    split_ifs at hw with hlt
    · exact hw
    · rw [List.getElem?_singleton] at hw
      split_ifs at hw
      exact absurd (congrArg Worker.handle (Option.some.inj hw)) hne
  · intro w alive hw
    obtain ⟨hlt, -⟩ := List.getElem?_eq_some_iff.1 hw
    refine ⟨alive, ?_⟩
    rw [h, List.getElem?_append_left hlt, hw]

theorem Keeps.workerExits (st : State Pending) (w : ℕ) : Keeps handle st (st.workerExits w) := by
  constructor
  · intro v hv
    rw [State.workerExits, List.getElem?_modify] at hv
    obtain ⟨worker, hworker, heq⟩ := Option.map_eq_some_iff.1 hv
    rw [hworker]
    split_ifs at heq with hwv
    · exact Bool.noConfusion (congrArg Worker.alive heq)
    · exact congrArg some heq
  · intro v alive hv
    rw [State.workerExits, List.getElem?_modify, hv]
    by_cases hwv : w = v
    · refine ⟨false, ?_⟩
      simp [hwv]
    · refine ⟨alive, ?_⟩
      simp [hwv]

theorem setCall_stays {registry : HashMap Handle (Entry Pending)}
    (at_i : st.calls[i]? = some (handle', call))
    (entry : registry.lookup handle = st.registry.lookup handle)
    (before : handle' = handle → callHeld call = none)
    (after : handle' = handle → callHeld call' = none) :
    (setCall { st with registry := registry } i handle' call').held handle = st.held handle := by
  have hi : st.held handle (some i) = none := by
    rw [held, at_i, Option.bind_some]
    split_ifs with h
    · exact before h
    · rfl
  have hafter : (if handle' = handle then callHeld call' else none) = none := by
    split_ifs with h
    · exact after h
    · rfl
  have hentry : update (st.held handle) none (registry.lookup handle) = st.held handle := by
    rw [entry]
    exact update_eq_self none _
  rw [held_setCall { st with registry := registry } at_i, held_registry, hentry, hafter, ← hi,
    update_eq_self]

theorem lookup_erase_other (hne : handle' ≠ handle) :
    (st.registry.erase handle').lookup handle = st.registry.lookup handle := by
  rw [HashMap.lookup_erase_ite, if_neg hne.symm]

theorem lookup_insert_other (st : State Pending) (hne : handle' ≠ handle) (entry : Entry Pending) :
    (st.registry.insert handle' entry).lookup handle = st.registry.lookup handle := by
  rw [HashMap.lookup_insert_ite, if_neg hne.symm]

theorem advance_other (at_i : st.calls[i]? = some (handle', call)) (hne : handle' ≠ handle)
    (spawns : Bool) : Moves handle st (st.advance i spawns) := by
  have hno : ∀ call', handle' = handle → callHeld call' = none :=
    fun (call' : Call Pending) h => absurd h hne
  cases call with
  | starting =>
    simp only [advance, at_i, takePending]
    split
    · exact .stay (setCall_stays at_i rfl (hno _) (hno _)) (.of_eq rfl)
    · exact .stay (setCall_stays at_i (lookup_erase_other hne) (hno _) (hno _)) (.of_eq rfl)
    · exact .stay (setCall_stays at_i (lookup_erase_other hne) (hno _) (hno _)) (.of_eq rfl)
  | taken session =>
    simp only [advance, at_i]
    split
    · exact .stay (setCall_stays at_i rfl (hno _) (hno _)) (.spawn_other hne rfl)
    · exact .stay (setCall_stays at_i rfl (hno _) (hno _)) (.of_eq rfl)
  | spawned session =>
    simp only [advance, at_i]
    exact .stay (setCall_stays at_i (lookup_insert_other st hne _) (hno _) (hno _)) (.of_eq rfl)
  | takenRunning session =>
    simp only [advance, at_i]
    exact .stay (setCall_stays at_i (lookup_insert_other st hne _) (hno _) (hno _)) (.of_eq rfl)
  | stopping =>
    simp only [advance, at_i, removeEntry]
    split
    · exact .stay (setCall_stays at_i rfl (hno _) (hno _)) (.of_eq rfl)
    · exact .stay (setCall_stays at_i (lookup_erase_other hne) (hno _) (hno _)) (.of_eq rfl)
    · exact .stay (setCall_stays at_i (lookup_erase_other hne) (hno _) (hno _)) (.of_eq rfl)
  | joining session =>
    simp only [advance, at_i, join]
    split
    · exact .stay rfl (.of_eq rfl)
    · exact .stay (setCall_stays at_i rfl (hno _) (hno _)) (.of_eq rfl)
  | started ok =>
    simp only [advance, at_i]
    exact .stay rfl (.of_eq rfl)
  | stopped =>
    simp only [advance, at_i]
    exact .stay rfl (.of_eq rfl)

theorem held_erase (at_i : st.calls[i]? = some (handle, call)) (call' : Call Pending)
    (same : callHeld call' = st.registry.lookup handle) :
    (setCall { st with registry := st.registry.erase handle } i handle call').held handle =
      moved (st.held handle) none (some i) := by
  rw [held_setCall { st with registry := st.registry.erase handle } at_i, held_registry, if_pos rfl,
    AList.lookup_erase, same]
  rfl

theorem held_insertRunning (at_i : st.calls[i]? = some (handle, call)) {session : SpawnedSession}
    (holds : callHeld call = some (.running session)) (ok : Bool) :
    (st.insertRunning i handle session ok).held handle = moved (st.held handle) (some i) none := by
  rw [insertRunning,
    held_setCall { st with registry := st.registry.insert handle (.running session) } at_i,
    held_registry, if_pos rfl, AList.lookup_insert, moved, held_call at_i, holds]
  exact update_comm (Option.some_ne_none i).symm _ _ _

theorem held_setCall_none (st : State Pending) (at_i : st.calls[i]? = some (handle, call))
    (call' : Call Pending)
    (nothing : callHeld call' = none) :
    (st.setCall i handle call').held handle = update (st.held handle) (some i) none := by
  rw [held_setCall st at_i, if_pos rfl, nothing]

theorem held_removePending (at_i : st.calls[i]? = some (handle, .stopping)) :
    (setCall { st with registry := st.registry.erase handle } i handle .stopped).held handle =
      update (st.held handle) none none := by
  have hi : update (st.held handle) (some i) none = st.held handle := by
    rw [← show st.held handle (some i) = none from held_call at_i, update_eq_self]
  rw [held_setCall_none { st with registry := st.registry.erase handle } at_i _ rfl, held_registry,
    AList.lookup_erase, update_comm (Option.some_ne_none i).symm, hi]

theorem advance_own (at_i : st.calls[i]? = some (handle, call)) (spawns : Bool) :
    Moves handle st (st.advance i spawns) := by
  have hcall := held_call at_i
  cases call with
  | starting =>
    simp only [advance, at_i, takePending]
    split
    case h_1 hentry =>
      exact .stay (setCall_stays at_i rfl (fun _ => rfl) (fun _ => rfl)) (.of_eq rfl)
    case h_2 session hentry =>
      refine .move none (some i) ?_ (held_erase at_i _ hentry.symm) (.of_eq rfl)
      rw [held, hentry]
      exact Option.some_ne_none _
    case h_3 session hentry =>
      refine .move none (some i) ?_ (held_erase at_i _ hentry.symm) (.of_eq rfl)
      rw [held, hentry]
      exact Option.some_ne_none _
  | taken session =>
    simp only [advance, at_i]
    split
    · refine .spawn (some i) session hcall ?_ rfl
      exact (held_setCall { st with workers := st.workers ++ [⟨handle, true⟩] } at_i _).trans
        (by rw [if_pos rfl]; rfl)
    · refine .drop (some i) ?_ (held_setCall_none st at_i _ rfl) (.of_eq rfl)
      intro running hrunning
      rw [hcall] at hrunning
      cases hrunning
  | spawned session =>
    simp only [advance, at_i]
    refine .move (some i) none ?_ (held_insertRunning at_i rfl true) (.of_eq rfl)
    rw [hcall]
    exact Option.some_ne_none _
  | takenRunning session =>
    simp only [advance, at_i]
    refine .move (some i) none ?_ (held_insertRunning at_i rfl false) (.of_eq rfl)
    rw [hcall]
    exact Option.some_ne_none _
  | stopping =>
    simp only [advance, at_i, removeEntry]
    split
    case h_1 hentry =>
      exact .stay (setCall_stays at_i rfl (fun _ => rfl) (fun _ => rfl)) (.of_eq rfl)
    case h_2 session hentry =>
      refine .drop none ?_ ?_ (.of_eq rfl)
      · intro running hrunning
        rw [held, hentry] at hrunning
        cases hrunning
      · exact held_removePending at_i
    case h_3 session hentry =>
      refine .move none (some i) ?_ (held_erase at_i _ hentry.symm) (.of_eq rfl)
      rw [held, hentry]
      exact Option.some_ne_none _
  | joining session =>
    simp only [advance, at_i, join]
    split
    case isTrue => exact .stay rfl (.of_eq rfl)
    case isFalse hdead =>
      refine .drop (some i) ?_ (held_setCall_none st at_i _ rfl) (.of_eq rfl)
      intro running hrunning
      rw [hcall] at hrunning
      cases hrunning
      exact Bool.eq_false_iff.2 hdead
  | started ok =>
    simp only [advance, at_i]
    exact .stay rfl (.of_eq rfl)
  | stopped =>
    simp only [advance, at_i]
    exact .stay rfl (.of_eq rfl)

theorem held_newCall (st : State Pending) (handle' : Handle) (nothing : callHeld call = none) :
    held { st with calls := st.calls ++ [(handle', call)] } handle = st.held handle := by
  funext place
  cases place with
  | none => rfl
  | some j =>
    rw [held, held]
    by_cases hj : j < st.calls.length
    · rw [List.getElem?_append_left hj]
    · have hnone : st.calls[j]? = none := List.getElem?_eq_none (Nat.le_of_not_lt hj)
      rw [hnone, List.getElem?_append_right (Nat.le_of_not_lt hj), List.getElem?_singleton]
      split_ifs
      · simp [nothing]
      · rfl

theorem step_moves (issued : handle < st.nextHandle) (event : Event Pending) :
    Moves handle st (st.step event).1 := by
  cases event with
  | prepare session =>
    refine .stay ?_ (.of_eq rfl)
    have hother := lookup_insert_other st (UInt64.ne_of_lt issued).symm (.pending session)
    funext place
    cases place with
    | none => exact hother
    | some j => rfl
  | callStart handle' => exact .stay (held_newCall st handle' rfl) (.of_eq rfl)
  | callStop handle' => exact .stay (held_newCall st handle' rfl) (.of_eq rfl)
  | advance i spawns =>
    cases at_i : st.calls[i]? with
    | none =>
      simp only [step, advance, at_i]
      exact .stay rfl (.of_eq rfl)
    | some entry =>
      obtain ⟨handle', call⟩ := entry
      by_cases hne : handle' = handle
      · subst hne
        exact advance_own at_i spawns
      · exact advance_other at_i hne spawns
  | workerExits w => exact .stay rfl (.workerExits st w)

end MouseVpn.Android.State
