import Mathlib.Data.List.Basic
import MouseVpn.Windows.Network

/-!
# What a killed helper leaves behind

`write_state` replaces the journal by removing it and renaming a new file into its place. A
run that ends between the two leaves the policy installed without a journal. At every other
point the journal covers the firewall rules and the routes, so that the next start removes
them.
-/

namespace MouseVpn.Windows

open MouseVpn.Lib MouseVpn.Lib.Program

/-- The journal has been removed to be replaced, and the new one is not in its place. The
removal of `write_state` comes right after the new file has been written out. -/
def displaced : List (Op × Bool) → Bool
  | [] => false
  | (op, ok) :: log =>
    if ok && op = .renameTemporary then false
    else if ok && op = .removeJournal && log.head? = some (.syncTemporary, true) then true
    else displaced log

namespace Host

def RulesCovered (host : Host) : Prop :=
  host.rules ≠ [] → ∃ contents, host.journal = some contents ∧
    ∀ serverIp, contents ≠ .state ⟨serverIp, false⟩

def RoutesCovered (host : Host) : Prop := host.routes ≠ [] → host.journal ≠ none

structure Shrinks (before after : Host) : Prop where
  journal : after.journal = before.journal
  log : displaced after.log = displaced before.log
  last : after.log = before.log ∨ after.log.head? ≠ some (.syncTemporary, true)
  rules : after.rules ⊆ before.rules
  routes : after.routes ⊆ before.routes

theorem Shrinks.refl (host : Host) : host.Shrinks host :=
  ⟨rfl, rfl, Or.inl rfl, List.Subset.refl _, List.Subset.refl _⟩

theorem Shrinks.trans {a b c : Host} (h : a.Shrinks b) (h' : b.Shrinks c) : a.Shrinks c := by
  refine ⟨h'.journal.trans h.journal, h'.log.trans h.log, ?_, List.Subset.trans h'.rules h.rules,
    List.Subset.trans h'.routes h.routes⟩
  rcases h'.last with heq | hne
  · rw [heq]
    exact h.last
  · exact Or.inr hne

theorem Shrinks.last_ne {before after : Host} (h : before.Shrinks after)
    (hne : before.log.head? ≠ some (.syncTemporary, true)) :
    after.log.head? ≠ some (.syncTemporary, true) := by
  rcases h.last with heq | hne'
  · rw [heq]
    exact hne
  · exact hne'

theorem Shrinks.rulesCovered {before after : Host} (h : before.Shrinks after)
    (hcovered : before.RulesCovered) : after.RulesCovered := by
  intro hrules
  rw [h.journal]
  apply hcovered
  intro hnil
  apply hrules
  apply List.eq_nil_of_subset_nil
  rw [← hnil]
  exact h.rules

theorem Shrinks.routesCovered {before after : Host} (h : before.Shrinks after)
    (hcovered : before.RoutesCovered) : after.RoutesCovered := by
  intro hroutes
  rw [h.journal]
  apply hcovered
  intro hnil
  apply hroutes
  apply List.eq_nil_of_subset_nil
  rw [← hnil]
  exact h.routes

end Host

open Host

theorem displaced_cons {op : Op} {ok : Bool} {log : List (Op × Bool)}
    (hrename : op ≠ .renameTemporary) (hremove : op ≠ .removeJournal) :
    displaced ((op, ok) :: log) = displaced log := by
  simp [displaced, hrename, hremove]

theorem apply_journal {op : Op} {host : Host} (ok : Bool) (hrename : op ≠ .renameTemporary)
    (hremove : op ≠ .removeJournal) : (host.apply op ok).journal = host.journal := by
  cases op <;> cases ok <;> first | rfl | contradiction

def Op.isLocal : Op → Bool
  | .openTemporary | .writeTemporary _ | .syncTemporary | .removeTemporary | .call _ => true
  | _ => false

structure Kept (before after : Host) : Prop where
  journal : after.journal = before.journal
  log : displaced after.log = displaced before.log
  rules : after.rules = before.rules
  routes : after.routes = before.routes

theorem kept_of_isLocal {op : Op} (h : op.isLocal = true) (ok : Bool) (host : Host) :
    Kept host (host.apply op ok) := by
  have hlog : displaced (host.apply op ok).log = displaced host.log := by
    apply displaced_cons <;> rintro rfl <;> exact Bool.noConfusion h
  cases op <;> first | exact Bool.noConfusion h | cases ok <;> exact ⟨rfl, hlog, rfl, rfl⟩

theorem shrinks_call (call : Call) (ok : Bool) (host : Host) :
    host.Shrinks (host.apply (.call call) ok) :=
  ⟨rfl, displaced_cons (by simp) (by simp), Or.inr (by simp [Host.apply]), List.Subset.refl _,
    List.Subset.refl _⟩

theorem shrinks_removeRoute (route : OwnedRoute) (ok : Bool) (host : Host) :
    host.Shrinks (host.apply (.removeRoute route) ok) := by
  refine ⟨apply_journal ok (by simp) (by simp), displaced_cons (by simp) (by simp),
    Or.inr (by simp [Host.apply]), ?_, ?_⟩
  · cases ok <;> exact List.Subset.refl _
  · cases ok with
    | false => exact List.Subset.refl _
    | true => exact List.erase_subset

theorem shrinks_removeRule (name : String) (ok : Bool) (host : Host) :
    host.Shrinks (host.apply (.removeRule name) ok) := by
  refine ⟨apply_journal ok (by simp) (by simp), displaced_cons (by simp) (by simp),
    Or.inr (by simp [Host.apply]), ?_, ?_⟩
  · cases ok with
    | false => exact List.Subset.refl _
    | true => exact List.erase_subset
  · cases ok <;> exact List.Subset.refl _

section Cleanup

variable {before host : Host}

theorem call_shrinks (hstart : before.Shrinks host) (c : Call) :
    (call c).Guarantees Host.apply before.Shrinks (fun _ after => host.Shrinks after) host := by
  refine ⟨hstart, fun ok => ⟨?_, ?_⟩⟩
  · exact hstart.trans (shrinks_call c ok host)
  · exact shrinks_call c ok host

theorem foldl_erase_self {α : Type} [DecidableEq α] (l : List α) : l.foldl List.erase l = [] := by
  induction l with
  | nil => rfl
  | cons a l ih => rw [List.foldl_cons, List.erase_cons_head, ih]

theorem removeRoutes_spec (routes : List OwnedRoute) (hstart : before.Shrinks host) :
    (removeRoutes routes).Guarantees Host.apply before.Shrinks
      (fun ok after => after.rules = host.rules ∧
        (ok = true → after.routes = routes.foldl List.erase host.routes)) host := by
  induction routes generalizing host with
  | nil => exact ⟨hstart, rfl, fun _ => rfl⟩
  | cons route routes ih =>
    apply Guarantees.both
    refine ⟨hstart, fun ok => ?_⟩
    have hnext := hstart.trans (shrinks_removeRoute route ok host)
    refine ⟨hnext, (ih hnext).mono (fun _ h => h) ?_⟩
    intro right after hafter
    cases ok with
    | false => exact ⟨hafter.1, fun h => Bool.noConfusion h⟩
    | true => exact hafter

theorem removeRules_spec (names : List String) (hstart : before.Shrinks host) :
    (removeRules names).Guarantees Host.apply before.Shrinks
      (fun ok after => after.routes = host.routes ∧
        (ok = true → after.rules = names.foldl List.erase host.rules)) host := by
  induction names generalizing host with
  | nil => exact ⟨hstart, rfl, fun _ => rfl⟩
  | cons name names ih =>
    apply Guarantees.andThen
    refine ⟨hstart, fun ok => ?_⟩
    have hnext := hstart.trans (shrinks_removeRule name ok host)
    refine ⟨hnext, ?_⟩
    cases ok with
    | false => exact ⟨rfl, fun h => Bool.noConfusion h⟩
    | true => exact ih hnext

theorem removeOwnedRoutes_spec (selected : OwnedRoute → Bool) (hstart : before.Shrinks host) :
    (removeOwnedRoutes selected).Guarantees Host.apply before.Shrinks
      (fun ok after => after.rules = host.rules ∧
        after.log.head? ≠ some (.syncTemporary, true) ∧ (ok = true →
        after.routes = (host.routes.filter selected).foldl List.erase host.routes)) host := by
  have hhead : ∀ ok, (host.apply (.call .readRouteTable) ok).log.head? ≠
      some (.syncTemporary, true) := by
    intro ok
    simp [Host.apply]
  have hcall := shrinks_call .readRouteTable true host
  apply Guarantees.attempted_andThen hstart
    ⟨hstart.trans (shrinks_call _ false host), rfl, hhead false, fun h => Bool.noConfusion h⟩
  apply Guarantees.inspect
  refine (removeRoutes_spec _ (Shrinks.refl _)).with_crash.mono
    (fun _ h => (hstart.trans hcall).trans h) ?_
  intro ok after hafter
  exact ⟨hafter.2.1, hafter.1.last_ne (hhead true), hafter.2.2⟩

theorem resetTunnel_spec (adapter : Adapter) (hstart : before.Shrinks host) :
    (resetTunnel adapter).Guarantees Host.apply before.Shrinks (fun _ _ => True) host := by
  cases adapter with
  | absent => exact ⟨hstart, trivial⟩
  | unbound => exact ⟨hstart, trivial⟩
  | bound =>
    apply Guarantees.both
    refine (call_shrinks hstart _).with_crash.mono (fun _ h => h) ?_
    intro _ host₁ h₁
    apply Guarantees.both
    refine (call_shrinks h₁.1 _).with_crash.mono (fun _ h => h) ?_
    intro _ host₂ h₂
    exact (call_shrinks h₂.1 _).mono (fun _ h => h) (fun _ _ _ => trivial)

theorem cleanup_spec (firewallRules : Bool) (adapter : Adapter) (host : Host) :
    (cleanup firewallRules adapter).Guarantees Host.apply host.Shrinks
      (fun ok after => after.log.head? ≠ some (.syncTemporary, true) ∧ (ok = true →
        after.routes = [] ∧ (firewallRules = true → after.rules = []))) host := by
  apply Guarantees.both
  refine (resetTunnel_spec adapter (Shrinks.refl host)).with_crash.mono (fun _ h => h) ?_
  intro reset host₁ h₁
  apply Guarantees.both
  refine (removeOwnedRoutes_spec _ h₁.1).with_crash.mono (fun _ h => h) ?_
  intro removed host₂ h₂
  have hroutes : removed = true → host₂.routes = [] := by
    intro hremoved
    rw [h₂.2.2.2 hremoved, List.filter_true, foldl_erase_self]
  cases firewallRules with
  | false =>
    refine ⟨h₂.1, h₂.2.2.1, ?_⟩
    intro hok
    simp only [Bool.and_true, Bool.and_eq_true] at hok
    exact ⟨hroutes hok.2, fun h => Bool.noConfusion h⟩
  | true =>
    apply Guarantees.inspect
    refine (removeRules_spec host₂.rules (Shrinks.refl host₂)).with_crash.mono
      (fun _ h => h₂.1.trans h) ?_
    intro cleared host₃ h₃
    refine ⟨h₃.1.last_ne h₂.2.2.1, ?_⟩
    intro hok
    simp only [Bool.and_eq_true] at hok
    rw [h₃.2.1, h₃.2.2 hok.2.2, foldl_erase_self]
    exact ⟨hroutes hok.2.1, fun _ => rfl⟩

end Cleanup

/-- Where `write_state` can be: the journal is the old one, the new one, or, between the
removal and the renaming, missing. -/
structure Rewritten (before : Host) (state : RecoveryState) (after : Host) : Prop where
  rules : after.rules = before.rules
  routes : after.routes = before.routes
  journal : (displaced after.log = false ∧
      (after.journal = before.journal ∨ after.journal = some (.state state))) ∨
    (displaced after.log = true ∧ after.journal = none ∧ before.journal ≠ none)

theorem Rewritten.kept {before after after' : Host} {state : RecoveryState}
    (h : Rewritten before state after) (hkept : Kept after after') :
    Rewritten before state after' := by
  refine ⟨hkept.rules.trans h.rules, hkept.routes.trans h.routes, ?_⟩
  rw [hkept.log, hkept.journal]
  exact h.journal

section Write

variable {before host : Host} {state : RecoveryState}

theorem renameTemporary_spec (hstart : Rewritten before state host)
    (htemporary : host.temporary = some (.state state)) :
    (attempted .renameTemporary).Guarantees Host.apply (Rewritten before state)
      (fun ok after => ok = true →
        displaced after.log = false ∧ after.journal = some (.state state)) host := by
  refine ⟨hstart, fun ok => ?_⟩
  cases ok with
  | false =>
    refine ⟨⟨hstart.rules, hstart.routes, ?_⟩, fun h => Bool.noConfusion h⟩
    have hlog : displaced (host.apply .renameTemporary false).log = displaced host.log := by
      simp [Host.apply, displaced]
    rw [hlog]
    exact hstart.journal
  | true =>
    have hlog : displaced (host.apply .renameTemporary true).log = false := by
      simp [Host.apply, displaced]
    have hjournal : (host.apply .renameTemporary true).journal = some (.state state) := htemporary
    exact ⟨⟨hstart.rules, hstart.routes, Or.inl ⟨hlog, Or.inr hjournal⟩⟩, fun _ => ⟨hlog, hjournal⟩⟩

theorem writeTemporaryAndRename_spec (hlog : displaced before.log = false) :
    (writeTemporaryAndRename state).Guarantees Host.apply (Rewritten before state)
      (fun ok after => ok = true →
        displaced after.log = false ∧ after.journal = some (.state state)) before := by
  have h₀ : Rewritten before state before := ⟨rfl, rfl, Or.inl ⟨hlog, Or.inl rfl⟩⟩
  have step : ∀ (op : Op) (ok : Bool) {host : Host}, op.isLocal = true →
      Rewritten before state host → Rewritten before state (host.apply op ok) := by
    intro op ok host hop h
    exact h.kept (kept_of_isLocal hop ok host)
  have h₁ := step .openTemporary true rfl h₀
  have h₂ := step (.writeTemporary state) true rfl h₁
  have h₃ := step .syncTemporary true rfl h₂
  apply Guarantees.attempted_andThen h₀ ⟨step _ _ rfl h₀, fun h => Bool.noConfusion h⟩
  apply Guarantees.attempted_andThen h₁ ⟨step _ _ rfl h₁, fun h => Bool.noConfusion h⟩
  apply Guarantees.attempted_andThen h₂ ⟨step _ _ rfl h₂, fun h => Bool.noConfusion h⟩
  have hkept : Kept before (((before.apply .openTemporary true).apply (.writeTemporary state)
      true).apply .syncTemporary true) :=
    ⟨rfl, (displaced_cons (by simp) (by simp)).trans ((displaced_cons (by simp) (by simp)).trans
      (displaced_cons (by simp) (by simp))), rfl, rfl⟩
  -- the log ends with the write-out, so a removal now opens the gap
  generalize hcurrent : ((before.apply .openTemporary true).apply (.writeTemporary state)
      true).apply .syncTemporary true = host at h₃ hkept ⊢
  have htemporary : host.temporary = some (.state state) := by rw [← hcurrent]; rfl
  have hhead : host.log.head? = some (.syncTemporary, true) := by rw [← hcurrent]; rfl
  apply Guarantees.inspect
  split
  · rename_i hsome
    have hne : before.journal ≠ none := by
      rw [← hkept.journal]
      exact Option.isSome_iff_ne_none.mp hsome
    have hfail : Rewritten before state (host.apply .removeJournal false) := by
      refine ⟨h₃.rules, h₃.routes, ?_⟩
      have hlog' : displaced (host.apply .removeJournal false).log = displaced host.log := by
        simp [Host.apply, displaced]
      rw [hlog']
      exact h₃.journal
    have hgap : Rewritten before state (host.apply .removeJournal true) := by
      refine ⟨h₃.rules, h₃.routes, Or.inr ⟨?_, rfl, hne⟩⟩
      simp [Host.apply, displaced, hhead]
    apply Guarantees.attempted_andThen h₃ ⟨hfail, fun h => Bool.noConfusion h⟩
    exact renameTemporary_spec hgap htemporary
  · exact renameTemporary_spec h₃ htemporary

theorem writeState_spec (hlog : displaced before.log = false) :
    (writeState state).Guarantees Host.apply (Rewritten before state)
      (fun ok after => ok = true →
        displaced after.log = false ∧ after.journal = some (.state state)) before := by
  apply Guarantees.bind
  refine (writeTemporaryAndRename_spec hlog).with_crash.mono (fun _ h => h) ?_
  intro ok after h
  cases ok with
  | true => exact ⟨h.1, fun _ => h.2 rfl⟩
  | false =>
    refine ⟨h.1, fun removed => ?_⟩
    exact ⟨h.1.kept (kept_of_isLocal rfl removed after), fun h => Bool.noConfusion h⟩

end Write

end MouseVpn.Windows
