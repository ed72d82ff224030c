import MouseVpn.Windows.Journal

/-!
# Installing the policy

The calls of `install_policy` leave the journal alone. A policy that is installed has a route
to the server, and it has created no firewall rule if WFP holds the kill switch.
-/

namespace MouseVpn.Windows

open MouseVpn.Lib MouseVpn.Lib.Program Host

structure SameJournal (before after : Host) : Prop where
  journal : after.journal = before.journal
  log : displaced after.log = displaced before.log

section Policy

variable {before host : Host}

theorem SameJournal.apply (h : SameJournal before host) {op : Op} (ok : Bool)
    (hrename : op ≠ .renameTemporary) (hremove : op ≠ .removeJournal) :
    SameJournal before (host.apply op ok) :=
  ⟨(apply_journal ok hrename hremove).trans h.journal,
    (displaced_cons hrename hremove).trans h.log⟩

theorem SameJournal.call (h : SameJournal before host) (c : Call) (ok : Bool) :
    SameJournal before (host.apply (.call c) ok) :=
  h.apply ok (by simp) (by simp)

theorem call_andThen {Q : Bool → Host → Prop} {q : Procedure Bool} {c : Call}
    (hstart : SameJournal before host) (hfail : Q false (host.apply (.call c) false))
    (hok : q.Guarantees Host.apply (SameJournal before) Q (host.apply (.call c) true)) :
    ((call c).andThen q).Guarantees Host.apply (SameJournal before) Q host :=
  Guarantees.attempted_andThen hstart ⟨hstart.call c false, hfail⟩ hok

theorem addRules_spec (names : List String) (hstart : SameJournal before host) :
    (addRules names).Guarantees Host.apply (SameJournal before)
      (fun _ after => after.routes = host.routes) host := by
  induction names generalizing host with
  | nil => exact ⟨hstart, rfl⟩
  | cons name names ih =>
    have hnext : ∀ ok, SameJournal before (host.apply (.addRule name) ok) :=
      fun ok => hstart.apply ok (by simp) (by simp)
    apply Guarantees.attempted_andThen hstart ⟨hnext false, rfl⟩
    exact ih (hnext true)

theorem installScript_spec (policy : AppRoutingPolicy) (physical : List ℕ)
    (hstart : SameJournal before host) :
    (installScript policy physical).Guarantees Host.apply (SameJournal before)
      (fun _ _ => True) host := by
  apply call_andThen hstart trivial
  exact (addRules_spec _ (hstart.call _ true)).mono (fun _ h => h) (fun _ _ _ => trivial)

theorem mem_apply_addRoute {route other : OwnedRoute} (host : Host)
    (h : other ∈ host.routes ∨ other = route) :
    other ∈ (host.apply (.addRoute route) true).routes := by
  have hroutes : (host.apply (.addRoute route) true).routes = route :: host.routes.erase route :=
    rfl
  rw [hroutes, List.mem_cons]
  by_cases heq : other = route
  · exact Or.inl heq
  · refine Or.inr ((List.mem_erase_of_ne heq).mpr ?_)
    exact h.resolve_right heq

theorem addRoutes_spec (routes : List OwnedRoute) (hstart : SameJournal before host) :
    (addRoutes routes).Guarantees Host.apply (SameJournal before)
      (fun ok after => after.rules = host.rules ∧ (ok = true →
        ∀ route, route ∈ host.routes ∨ route ∈ routes → route ∈ after.routes)) host := by
  induction routes generalizing host with
  | nil =>
    refine ⟨hstart, rfl, ?_⟩
    intro _ route h
    simpa using h
  | cons route routes ih =>
    have hnext : ∀ ok, SameJournal before (host.apply (.addRoute route) ok) :=
      fun ok => hstart.apply ok (by simp) (by simp)
    apply Guarantees.attempted_andThen hstart ⟨hnext false, rfl, fun h => Bool.noConfusion h⟩
    refine (ih (hnext true)).mono (fun _ h => h) ?_
    intro ok after hafter
    refine ⟨hafter.1, fun hok other hother => hafter.2 hok other ?_⟩
    rw [List.mem_cons] at hother
    rcases hother with hold | hhead | htail
    · exact Or.inl (mem_apply_addRoute host (Or.inl hold))
    · exact Or.inl (mem_apply_addRoute host (Or.inr hhead))
    · exact Or.inr htail

theorem installRoutes_spec (serverIp : Ipv4Addr) (underlay : Underlay)
    (hstart : SameJournal before host) :
    (installRoutes serverIp underlay).Guarantees Host.apply (SameJournal before)
      (fun ok after => after.rules = host.rules ∧
        (ok = true → serverRoute serverIp underlay ∈ after.routes)) host := by
  have fail : ∀ {a : Host}, a.rules = host.rules →
      a.rules = host.rules ∧ (false = true → serverRoute serverIp underlay ∈ a.routes) :=
    fun h => ⟨h, fun h => Bool.noConfusion h⟩
  apply call_andThen hstart (fail rfl)
  have h₁ := hstart.call .defaultIpv4Route true
  apply Guarantees.andThen
  apply call_andThen h₁ (fail rfl)
  have h₂ := h₁.call .setTunnelAddress true
  refine ⟨h₂, fun ok => ⟨h₂.call _ ok, ?_⟩⟩
  cases ok with
  | false => exact fail rfl
  | true =>
    have h₃ := h₂.call .setTunnelDns true
    apply call_andThen h₃ (fail rfl)
    refine (addRoutes_spec _ (h₃.call _ true)).mono (fun _ h => h) ?_
    intro ok after hafter
    exact ⟨hafter.1, fun hok => hafter.2 hok _ (Or.inr List.mem_cons_self)⟩

def PolicyResult (route : OwnedRoute) (rules : List String) (result : Option Bool) (after : Host) :
    Prop :=
  ∀ killSwitch, result = some killSwitch →
    route ∈ after.routes ∧ (killSwitch = true → after.rules = rules)

theorem policyResult_none (route : OwnedRoute) (rules : List String) (after : Host) :
    PolicyResult route rules none after := by
  intro killSwitch h
  cases h

variable (serverIp : Ipv4Addr) (policy : AppRoutingPolicy) (underlay : Underlay)

theorem finishPolicy_spec {rules : List String} {killSwitch : Bool}
    (hstart : SameJournal before host) (hrules : killSwitch = true → host.rules = rules) :
    (finishPolicy serverIp underlay killSwitch).Guarantees Host.apply (SameJournal before)
      (PolicyResult (serverRoute serverIp underlay) rules) host := by
  apply Guarantees.bind
  refine (installRoutes_spec serverIp underlay hstart).with_crash.mono (fun _ h => h) ?_
  intro ok after hafter
  refine ⟨hafter.1, ?_⟩
  cases ok with
  | false => exact policyResult_none _ _ _
  | true =>
    intro killSwitch' hresult
    cases hresult
    exact ⟨hafter.2.2 rfl, fun h => hafter.2.1.trans (hrules h)⟩

theorem scriptedPolicy_spec (rules : List String) (hstart : SameJournal before host) :
    (scriptedPolicy serverIp policy underlay).Guarantees Host.apply (SameJournal before)
      (PolicyResult (serverRoute serverIp underlay) rules) host := by
  apply Guarantees.bind
  refine (installScript_spec policy underlay.physical hstart).with_crash.mono (fun _ h => h) ?_
  intro ok after hafter
  cases ok with
  | false => exact ⟨hafter.1, policyResult_none _ _ _⟩
  | true => exact finishPolicy_spec serverIp underlay hafter.1 (fun h => Bool.noConfusion h)

theorem installPolicy_spec (hstart : SameJournal before host) :
    (installPolicy serverIp policy underlay).Guarantees Host.apply (SameJournal before)
      (PolicyResult (serverRoute serverIp underlay) host.rules) host := by
  apply Guarantees.bind
  have hready : ((call .interfaceLuid).andThen (call .waitForIpv4Interface)).Guarantees
      Host.apply (SameJournal before) (fun _ after => after.rules = host.rules) host := by
    apply call_andThen hstart rfl
    exact ⟨hstart.call _ true, fun ok => ⟨(hstart.call _ true).call _ ok, rfl⟩⟩
  refine hready.with_crash.mono (fun _ h => h) ?_
  intro ok current hcurrent
  cases ok with
  | false => exact ⟨hcurrent.1, policyResult_none _ _ _⟩
  | true =>
    simp only [if_true]
    cases policy.mode with
    | includeOnly => exact scriptedPolicy_spec serverIp policy underlay _ hcurrent.1
    | exclude =>
      apply Guarantees.bind
      refine ⟨hcurrent.1, fun wfp => ⟨hcurrent.1.call _ wfp, ?_⟩⟩
      cases wfp with
      | false => exact scriptedPolicy_spec serverIp policy underlay _ (hcurrent.1.call _ false)
      | true =>
        exact finishPolicy_spec serverIp underlay (hcurrent.1.call _ true) (fun _ => hcurrent.2)

end Policy

end MouseVpn.Windows
