import MouseVpn.Windows.Installation

/-!
# One run of the helper

A run recovers what an earlier one has left, installs the policy, refreshes it and removes it
again. Wherever it is killed and whatever fails, the journal covers what is installed, unless
the run ends while the journal is being replaced.
-/

namespace MouseVpn.Windows

open MouseVpn.Lib MouseVpn.Lib.Program Host

/-- A host at any point of a run. While the journal is displaced there is a route that no
journal records. Otherwise the journal covers the rules, and the routes too if it covered
them before the run. -/
structure Accounted (routesToo : Prop) (host : Host) : Prop where
  gap : displaced host.log = true →
    host.journal = none ∧ ∃ route ∈ host.routes, route.interface ≠ .tunnel
  rules : displaced host.log = false → host.RulesCovered
  routes : displaced host.log = false → routesToo → host.RoutesCovered

section Run

variable {routesToo : Prop} {before host : Host}

theorem accounted_of_covered (hlog : displaced host.log = false) (hrules : host.RulesCovered)
    (hroutes : routesToo → host.RoutesCovered) : Accounted routesToo host := by
  refine ⟨?_, fun _ => hrules, fun _ => hroutes⟩
  intro h
  rw [hlog] at h
  exact Bool.noConfusion h

theorem accounted_of_gap {route : OwnedRoute} (hgap : displaced host.log = true)
    (hjournal : host.journal = none) (hmem : route ∈ host.routes)
    (hphysical : route.interface ≠ .tunnel) : Accounted routesToo host := by
  have hno : displaced host.log ≠ false := by
    rw [hgap]
    exact Bool.noConfusion
  exact ⟨fun _ => ⟨hjournal, route, hmem, hphysical⟩, fun h => absurd h hno, fun h => absurd h hno⟩

theorem accounted_of_journal {contents : Contents} (hlog : displaced host.log = false)
    (hjournal : host.journal = some contents)
    (hwritten : ∀ serverIp, contents = .state ⟨serverIp, false⟩ → host.rules = []) :
    Accounted routesToo host := by
  apply accounted_of_covered hlog
  · intro hrules
    exact ⟨contents, hjournal, fun serverIp heq => hrules (hwritten serverIp heq)⟩
  · intro _ _
    rw [hjournal]
    exact Option.some_ne_none _

theorem accounted_of_empty (hlog : displaced host.log = false) (hrules : host.rules = [])
    (hroutes : routesToo → host.routes = []) : Accounted routesToo host :=
  accounted_of_covered hlog (fun h => absurd hrules h) (fun h h' => absurd (hroutes h) h')

theorem Accounted.shrinks (h : Accounted routesToo before) (hlog : displaced before.log = false)
    (hshrinks : before.Shrinks host) : Accounted routesToo host :=
  accounted_of_covered (hshrinks.log.trans hlog) (hshrinks.rulesCovered (h.rules hlog))
    fun hk => hshrinks.routesCovered (h.routes hlog hk)

structure Cleared (host : Host) : Prop where
  log : displaced host.log = false
  rules : host.rules = []
  routes : host.routes = []

theorem Cleared.accounted (h : Cleared host) : Accounted routesToo host :=
  accounted_of_empty h.log h.rules fun _ => h.routes

theorem eq_nil_of_shrinks (h : before.Shrinks host) (hrules : before.rules = []) :
    host.rules = [] := by
  apply List.eq_nil_of_subset_nil
  rw [← hrules]
  exact h.rules

theorem removeJournal_spec (h : Cleared host)
    (hlast : host.log.head? ≠ some (.syncTemporary, true)) :
    (attempted .removeJournal).Guarantees Host.apply (Accounted routesToo)
      (fun ok after => Cleared after ∧ (ok = true → after.journal = none)) host := by
  refine ⟨h.accounted, fun ok => ?_⟩
  have hcleared : Cleared (host.apply .removeJournal ok) := by
    refine ⟨?_, ?_, ?_⟩
    · simp [Host.apply, displaced, hlast, h.log]
    · cases ok <;> exact h.rules
    · cases ok <;> exact h.routes
  refine ⟨hcleared.accounted, hcleared, ?_⟩
  rintro rfl
  rfl

theorem cleanup_accounted {firewallRules : Bool} (adapter : Adapter)
    (hstart : Accounted routesToo host) (hlog : displaced host.log = false)
    (hrules : firewallRules = false → host.rules = []) :
    (cleanup firewallRules adapter).Guarantees Host.apply (Accounted routesToo)
      (fun ok after => host.Shrinks after ∧ after.log.head? ≠ some (.syncTemporary, true) ∧
        (ok = true → Cleared after)) host := by
  refine (cleanup_spec firewallRules adapter host).with_crash.mono
    (fun _ h => hstart.shrinks hlog h) ?_
  intro ok after hafter
  refine ⟨hafter.1, hafter.2.1, fun hok => ⟨hafter.1.log.trans hlog, ?_, (hafter.2.2 hok).1⟩⟩
  cases firewallRules with
  | true => exact (hafter.2.2 hok).2 rfl
  | false => exact eq_nil_of_shrinks hafter.1 (hrules rfl)

theorem cleanup_then_remove {α : Type} {firewallRules : Bool} (adapter : Adapter) (result : α)
    {Q : α → Host → Prop} (hstart : Accounted routesToo host) (hlog : displaced host.log = false)
    (hrules : firewallRules = false → host.rules = []) (hQ : ∀ after, Q result after) :
    ((cleanup firewallRules adapter).bind fun clean =>
      if clean then (attempted .removeJournal).bind fun _ => Program.done result
      else .done result).Guarantees Host.apply (Accounted routesToo) Q host := by
  apply Guarantees.bind
  refine (cleanup_accounted adapter hstart hlog hrules).with_crash.mono (fun _ h => h) ?_
  intro clean after hafter
  cases clean with
  | false => exact ⟨hafter.1, hQ _⟩
  | true =>
    apply Guarantees.bind
    refine (removeJournal_spec (hafter.2.2.2 rfl) hafter.2.2.1).with_crash.mono (fun _ h => h) ?_
    intro _ final hfinal
    exact ⟨hfinal.1, hQ _⟩

theorem dropGuard_spec {state : RecoveryState} (adapter : Adapter)
    (hstart : Accounted routesToo host) (hlog : displaced host.log = false)
    (hrules : state.firewallRules = false → host.rules = []) :
    (dropGuard state adapter).Guarantees Host.apply (Accounted routesToo) (fun _ _ => True) host :=
  cleanup_then_remove adapter () hstart hlog hrules fun _ => trivial

theorem recoverStaleState_spec (adapter : Adapter) (hlog : displaced host.log = false)
    (hcovered : host.RulesCovered) (hroutes : routesToo → host.RoutesCovered) :
    (recoverStaleState adapter).Guarantees Host.apply (Accounted routesToo)
      (fun ok after => ok = true → displaced after.log = false ∧ after.journal = none ∧
        after.rules = [] ∧ (routesToo → after.routes = [])) host := by
  have hstart : Accounted routesToo host := accounted_of_covered hlog hcovered hroutes
  -- the two branches that find a journal
  have recorded : ∀ firewallRules : Bool, (firewallRules = false → host.rules = []) →
      ((cleanup firewallRules adapter).andThen (attempted .removeJournal)).Guarantees Host.apply
        (Accounted routesToo) (fun ok after => ok = true → displaced after.log = false ∧
          after.journal = none ∧ after.rules = [] ∧ (routesToo → after.routes = [])) host := by
    intro firewallRules hrules
    apply Guarantees.andThen
    refine (cleanup_accounted adapter hstart hlog hrules).mono (fun _ h => h) ?_
    intro clean after hafter
    cases clean with
    | false => exact fun h => Bool.noConfusion h
    | true =>
      refine (removeJournal_spec (hafter.2.2 rfl) hafter.2.1).mono (fun _ h => h) ?_
      intro ok final hfinal hok
      exact ⟨hfinal.1.log, hfinal.2 hok, hfinal.1.rules, fun _ => hfinal.1.routes⟩
  apply Guarantees.inspect
  cases hjournal : host.journal with
  | none =>
    have hrules : host.rules = [] := by
      by_contra hne
      obtain ⟨contents, hsome, _⟩ := hcovered hne
      rw [hjournal] at hsome
      cases hsome
    have hnoRoutes : routesToo → host.routes = [] := by
      intro hk
      by_contra hne
      exact hroutes hk hne hjournal
    by_cases habsent : adapter = .absent
    · simp only [habsent, if_true]
      exact ⟨hstart, fun _ => ⟨hlog, hjournal, hrules, hnoRoutes⟩⟩
    · simp only [habsent, if_false]
      refine (cleanup_accounted adapter hstart hlog fun _ => hrules).mono (fun _ h => h) ?_
      intro ok after hafter hok
      have hcleared := hafter.2.2 hok
      exact ⟨hcleared.log, hafter.1.journal.trans hjournal, hcleared.rules,
        fun _ => hcleared.routes⟩
  | some contents =>
    cases contents with
    | unreadable => exact recorded true fun h => Bool.noConfusion h
    | state state =>
      apply recorded
      intro hwritten
      by_contra hne
      obtain ⟨contents, hsome, hnot⟩ := hcovered hne
      rw [hjournal] at hsome
      cases hsome
      apply hnot state.serverIp
      rw [← hwritten]

theorem install_spec (session : Session) (hlog : displaced host.log = false)
    (hjournal : host.journal = none) (hrules : host.rules = [])
    (hroutes : routesToo → host.routes = []) :
    (install session).Guarantees Host.apply (Accounted routesToo)
      (fun result after => ∀ state, result = some state → displaced after.log = false ∧
        after.journal = some (.state state) ∧ (state.firewallRules = false → after.rules = []))
      host := by
  have failed : ∀ after : Host, ∀ state : RecoveryState,
      (none : Option RecoveryState) = some state →
      displaced after.log = false ∧ after.journal = some (.state state) ∧
        (state.firewallRules = false → after.rules = []) := by
    intro after state h
    cases h
  -- there is no journal yet, so the first one is renamed into a free place
  have first : ∀ after : Host, Rewritten host ⟨session.serverIp, true⟩ after →
      Accounted routesToo after := by
    intro after hafter
    apply accounted_of_empty _ (hafter.rules.trans hrules)
      fun hk => hafter.routes.trans (hroutes hk)
    rcases hafter.journal with ⟨h, _⟩ | ⟨_, _, hne⟩
    · exact h
    · exact absurd hjournal hne
  apply Guarantees.bind
  refine (writeState_spec hlog).with_crash.mono first ?_
  intro ok host₁ h₁
  cases ok with
  | false => exact ⟨first _ h₁.1, failed _⟩
  | true =>
    obtain ⟨hlog₁, hjournal₁⟩ := h₁.2 rfl
    have hrules₁ : host₁.rules = [] := h₁.1.rules.trans hrules
    have pessimistic : ∀ after : Host, SameJournal host₁ after → Accounted routesToo after := by
      intro after hafter
      apply accounted_of_journal (hafter.log.trans hlog₁) (hafter.journal.trans hjournal₁)
      intro serverIp heq
      cases heq
    simp only [if_true]
    apply Guarantees.bind
    refine (installPolicy_spec session.serverIp session.policy session.underlay
      ⟨rfl, rfl⟩).with_crash.mono pessimistic ?_
    intro result host₂ h₂
    have hlog₂ := h₂.1.log.trans hlog₁
    cases result with
    | none =>
      exact cleanup_then_remove _ none (pessimistic _ h₂.1) hlog₂ (fun h => Bool.noConfusion h)
        failed
    | some killSwitch =>
      obtain ⟨hroute, hnoRules⟩ := h₂.2 killSwitch rfl
      have hwritten : (!killSwitch) = false → host₂.rules = [] := by
        intro h
        rw [hnoRules (by simpa using h), hrules₁]
      -- now there is one, and replacing it opens the gap
      have second : ∀ after : Host, Rewritten host₂ ⟨session.serverIp, !killSwitch⟩ after →
          Accounted routesToo after := by
        intro after hafter
        rcases hafter.journal with ⟨hno, hold | hnew⟩ | ⟨hgap, hnone, _⟩
        · exact pessimistic after ⟨hold.trans h₂.1.journal, hno.trans hlog₁.symm⟩
        · apply accounted_of_journal hno hnew
          intro serverIp heq
          rw [hafter.rules]
          exact hwritten (RecoveryState.mk.inj (Contents.state.inj heq)).2
        · have hmem : serverRoute session.serverIp session.underlay ∈ after.routes := by
            rw [hafter.routes]
            exact hroute
          exact accounted_of_gap hgap hnone hmem Interface.noConfusion
      apply Guarantees.bind
      refine (writeState_spec hlog₂).with_crash.mono second ?_
      intro ok host₃ h₃
      refine ⟨second _ h₃.1, ?_⟩
      cases ok with
      | false => exact failed _
      | true =>
        intro state hstate
        cases hstate
        obtain ⟨hlog₃, hjournal₃⟩ := h₃.2 rfl
        exact ⟨hlog₃, hjournal₃, fun h => h₃.1.rules.trans (hwritten h)⟩

def Op.isRefresh (firewallRules : Bool) : Op → Prop
  | .call _ | .addRoute _ | .removeRoute _ => True
  | .addRule _ => firewallRules = true
  | _ => False

theorem addRoutes_refresh (firewallRules : Bool) (routes : List OwnedRoute) :
    (addRoutes routes).Only (Op.isRefresh firewallRules) := by
  induction routes with
  | nil => exact trivial
  | cons route routes ih => exact Only.andThen (Only.attempted trivial) ih

theorem removeRoutes_refresh (firewallRules : Bool) (routes : List OwnedRoute) :
    (removeRoutes routes).Only (Op.isRefresh firewallRules) := by
  induction routes with
  | nil => exact trivial
  | cons route routes ih => exact Only.both (Only.attempted trivial) ih

theorem addRules_refresh (names : List String) : (addRules names).Only (Op.isRefresh true) := by
  induction names with
  | nil => exact trivial
  | cons name names ih => exact Only.andThen (Only.attempted rfl) ih

theorem call_refresh (firewallRules : Bool) (c : Call) :
    (call c).Only (Op.isRefresh firewallRules) :=
  Only.attempted trivial

theorem repairRoutes_refresh (firewallRules : Bool) (serverIp : Ipv4Addr) (underlay : Underlay) :
    (repairRoutes serverIp underlay).Only (Op.isRefresh firewallRules) := by
  apply Only.andThen (call_refresh _ _)
  apply Only.andThen (call_refresh _ _)
  apply Only.andThen (call_refresh _ _)
  intro host
  apply Only.andThen _ (addRoutes_refresh _ _)
  split
  · apply Only.andThen _ (Only.attempted trivial)
    exact Only.andThen (call_refresh _ _) fun _ => removeRoutes_refresh _ _
  · exact trivial

theorem refresh_refresh (session : Session) (state : RecoveryState) (underlay : Underlay) :
    (refresh session state underlay).Only (Op.isRefresh state.firewallRules) := by
  apply Only.andThen (call_refresh _ _)
  apply Only.andThen (repairRoutes_refresh _ _ _)
  split
  · rename_i hrules
    rw [hrules]
    exact Only.andThen (call_refresh _ _) fun _ => addRules_refresh _
  · exact trivial

theorem refreshAll_refresh (session : Session) (state : RecoveryState) (rest : List Underlay) :
    (refreshAll session state rest).Only (Op.isRefresh state.firewallRules) := by
  induction rest with
  | nil => exact trivial
  | cons underlay rest ih => exact (refresh_refresh session state underlay).bind fun _ => ih

structure Guarded (state : RecoveryState) (host : Host) : Prop where
  log : displaced host.log = false
  journal : host.journal = some (.state state)
  rules : state.firewallRules = false → host.rules = []

theorem Guarded.accounted {state : RecoveryState} (h : Guarded state host) :
    Accounted routesToo host := by
  apply accounted_of_journal h.log h.journal
  intro serverIp heq
  apply h.rules
  rw [Contents.state.inj heq]

theorem Guarded.refresh {state : RecoveryState} {op : Op} (ok : Bool)
    (hop : op.isRefresh state.firewallRules) (h : Guarded state host) :
    Guarded state (host.apply op ok) := by
  have hrename : op ≠ .renameTemporary := by
    rintro rfl
    exact hop
  have hremove : op ≠ .removeJournal := by
    rintro rfl
    exact hop
  refine ⟨(displaced_cons hrename hremove).trans h.log,
    (apply_journal ok hrename hremove).trans h.journal, ?_⟩
  intro hfalse
  have hrules := h.rules hfalse
  cases op with
  | call c => cases ok <;> exact hrules
  | addRoute route => cases ok <;> exact hrules
  | removeRoute route => cases ok <;> exact hrules
  | addRule name => exact absurd (hop.symm.trans hfalse) Bool.noConfusion
  | openTemporary => exact hop.elim
  | writeTemporary state => exact hop.elim
  | syncTemporary => exact hop.elim
  | removeTemporary => exact hop.elim
  | removeJournal => exact hop.elim
  | renameTemporary => exact hop.elim
  | removeRule name => exact hop.elim

theorem runWithStop_spec (adapter : Adapter) (session : Session)
    (hlog : displaced host.log = false) (hcovered : host.RulesCovered)
    (hroutes : routesToo → host.RoutesCovered) :
    (runWithStop adapter session).Guarantees Host.apply (Accounted routesToo) (fun _ _ => True)
      host := by
  apply Guarantees.bind
  refine (recoverStaleState_spec adapter hlog hcovered hroutes).with_crash.mono (fun _ h => h) ?_
  intro recovered host₁ h₁
  cases recovered with
  | false => exact ⟨h₁.1, trivial⟩
  | true =>
    obtain ⟨hlog₁, hjournal₁, hrules₁, hroutes₁⟩ := h₁.2 rfl
    apply Guarantees.bind
    refine (install_spec session hlog₁ hjournal₁ hrules₁ hroutes₁).with_crash.mono
      (fun _ h => h) ?_
    intro result host₂ h₂
    cases result with
    | none => exact ⟨h₂.1, trivial⟩
    | some state =>
      obtain ⟨hlog₂, hjournal₂, hrules₂⟩ := h₂.2 state rfl
      have hguarded : Guarded state host₂ := ⟨hlog₂, hjournal₂, hrules₂⟩
      apply Guarantees.bind
      refine ((refreshAll_refresh session state session.refreshes).guarantees
        (fun op ok host hop h => Guarded.refresh ok hop h) hguarded).mono
        (fun _ h => h.accounted) ?_
      intro _ host₃ h₃
      exact dropGuard_spec _ h₃.accounted h₃.log h₃.rules

theorem repair_spec (adapter : Adapter) (hlog : displaced host.log = false)
    (hcovered : host.RulesCovered) (hroutes : routesToo → host.RoutesCovered) :
    (repair adapter).Guarantees Host.apply (Accounted routesToo) (fun _ _ => True) host := by
  apply Guarantees.andThen
  refine (cleanup_accounted adapter (accounted_of_covered hlog hcovered hroutes) hlog
    (fun h => Bool.noConfusion h)).with_crash.mono (fun _ h => h) ?_
  intro clean after hafter
  cases clean with
  | false => exact trivial
  | true =>
    simp only [if_true]
    apply Guarantees.inspect
    split
    · exact (removeJournal_spec (hafter.2.2.2 rfl) hafter.2.2.1).mono (fun _ h => h)
        (fun _ _ _ => trivial)
    · exact ⟨hafter.1, trivial⟩

end Run

end MouseVpn.Windows
