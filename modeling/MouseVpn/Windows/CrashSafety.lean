import MouseVpn.Lib.Machine
import MouseVpn.Windows.HelperRun

/-!
# Runs of the helper, one after the other

A history is a list of runs of the helper on one machine, each with the outcomes of its
operations. Whatever fails and wherever a run is killed, the journal covers what is
installed, unless the run ends while the journal is being replaced.
-/

namespace MouseVpn.Windows

open MouseVpn.Lib MouseVpn.Lib.Program Host

inductive Task
  | session (session : Session)
  | repair

structure HelperRun where
  adapter : Adapter
  rebooted : Bool
  task : Task
  outcomes : List Bool

def Host.settle (host : Host) (adapter : Adapter) (rebooted : Bool) : Host :=
  { host with
    routes :=
      if rebooted then []
      else if adapter = .absent then host.routes.filter fun route => route.interface ≠ .tunnel
      else host.routes
    log := [] }

def HelperRun.procedure (run : HelperRun) : Procedure Unit :=
  match run.task with
  | .session session => runWithStop run.adapter session
  | .repair => (repair run.adapter).bind fun _ => .done ()

def helperStep (host : Host) (run : HelperRun) : Host × Option Unit :=
  run.procedure.run Host.apply run.outcomes (host.settle run.adapter run.rebooted)

def hostAfter (history : List HelperRun) : Host := Machine.run helperStep Host.clean history

def recovered (adapter : Adapter) (host : Host) : Host :=
  ((recoverStaleState adapter).runOk Host.apply (host.settle adapter false)).1

section History

variable {routesToo : Prop} {host : Host}

theorem settle_rulesCovered (h : host.RulesCovered) (adapter : Adapter) (rebooted : Bool) :
    (host.settle adapter rebooted).RulesCovered := h

theorem settle_routesCovered (h : host.RoutesCovered) (adapter : Adapter) (rebooted : Bool) :
    (host.settle adapter rebooted).RoutesCovered := by
  intro hroutes
  apply h
  intro hnil
  apply hroutes
  simp [Host.settle, hnil]

theorem helperStep_accounted (run : HelperRun) (hcovered : host.RulesCovered)
    (hroutes : routesToo → host.RoutesCovered) : Accounted routesToo (helperStep host run).1 := by
  have hcovered' := settle_rulesCovered hcovered run.adapter run.rebooted
  have hroutes' := fun hk => settle_routesCovered (hroutes hk) run.adapter run.rebooted
  have hspec : run.procedure.Guarantees Host.apply (Accounted routesToo) (fun _ _ => True)
      (host.settle run.adapter run.rebooted) := by
    unfold HelperRun.procedure
    cases run.task with
    | session session => exact runWithStop_spec run.adapter session rfl hcovered' hroutes'
    | repair =>
      apply Guarantees.bind
      exact (repair_spec run.adapter rfl hcovered' hroutes').with_crash
  exact (hspec.run_spec run.outcomes).1

theorem hostAfter_concat (history : List HelperRun) (run : HelperRun) :
    hostAfter (history ++ [run]) = (helperStep (hostAfter history) run).1 :=
  Machine.run_concat helperStep _ _ _

theorem hostAfter_rulesCovered (history : List HelperRun)
    (h : ∀ past, past <+: history → displaced (hostAfter past).log = true →
      (hostAfter past).rules = []) : (hostAfter history).RulesCovered := by
  induction history using List.reverseRecOn with
  | nil => exact fun hne => absurd rfl hne
  | append_singleton history run ih =>
    have hpast := ih fun past hp => h past (hp.trans (List.prefix_append _ _))
    have haccounted : Accounted False (hostAfter (history ++ [run])) := by
      rw [hostAfter_concat]
      exact helperStep_accounted run hpast False.elim
    cases hgap : displaced (hostAfter (history ++ [run])).log with
    | false => exact haccounted.rules hgap
    | true => exact fun hne => absurd (h _ (List.prefix_refl _) hgap) hne

theorem hostAfter_covered (history : List HelperRun)
    (h : ∀ past, past <+: history → displaced (hostAfter past).log = false) :
    (hostAfter history).RulesCovered ∧ (hostAfter history).RoutesCovered := by
  induction history using List.reverseRecOn with
  | nil => exact ⟨fun hne => absurd rfl hne, fun hne => absurd rfl hne⟩
  | append_singleton history run ih =>
    have hpast := ih fun past hp => h past (hp.trans (List.prefix_append _ _))
    have haccounted : Accounted True (hostAfter (history ++ [run])) := by
      rw [hostAfter_concat]
      exact helperStep_accounted run hpast.1 fun _ => hpast.2
    have hno := h _ (List.prefix_refl _)
    exact ⟨haccounted.rules hno, haccounted.routes hno trivial⟩

theorem hostAfter_gap {history : List HelperRun} {run : HelperRun}
    (hpast : (hostAfter history).RulesCovered)
    (hgap : displaced (hostAfter (history ++ [run])).log = true) :
    (hostAfter (history ++ [run])).journal = none ∧
      ∃ route ∈ (hostAfter (history ++ [run])).routes, route.interface ≠ .tunnel := by
  rw [hostAfter_concat] at hgap ⊢
  have haccounted : Accounted False (helperStep (hostAfter history) run).1 :=
    helperStep_accounted run hpast False.elim
  exact haccounted.gap hgap

theorem call_runOk (c : Call) (host : Host) : ((call c).runOk Host.apply host).2 = true := rfl

theorem cleanup_runOk (firewallRules : Bool) (adapter : Adapter) (host : Host) :
    ((cleanup firewallRules adapter).runOk Host.apply host).2 = true := by
  have hroutes : ∀ (routes : List OwnedRoute) (host : Host),
      ((removeRoutes routes).runOk Host.apply host).2 = true := by
    intro routes
    induction routes with
    | nil => exact fun _ => rfl
    | cons route routes ih => exact runOk_both (fun _ => rfl) ih
  have hrules : ∀ (names : List String) (host : Host),
      ((removeRules names).runOk Host.apply host).2 = true := by
    intro names
    induction names with
    | nil => exact fun _ => rfl
    | cons name names ih => exact runOk_andThen (fun _ => rfl) ih
  apply runOk_both
  · intro host
    cases adapter with
    | absent => rfl
    | unbound => rfl
    | bound => exact runOk_both (call_runOk _) (runOk_both (call_runOk _) (call_runOk _)) host
  · apply runOk_both
    · exact runOk_andThen (call_runOk _) fun host => hroutes _ host
    · intro host
      cases firewallRules with
      | false => rfl
      | true => exact hrules _ host

theorem recoverStaleState_runOk (adapter : Adapter) (host : Host) :
    ((recoverStaleState adapter).runOk Host.apply host).2 = true := by
  have hremove : ∀ firewallRules, ((((cleanup firewallRules adapter).andThen
      (attempted .removeJournal)).runOk Host.apply host).2 = true) :=
    fun firewallRules => runOk_andThen (cleanup_runOk firewallRules adapter) (fun _ => rfl) host
  unfold recoverStaleState
  rw [runOk]
  split
  · exact hremove _
  · exact hremove _
  · split
    · rfl
    · exact cleanup_runOk false adapter host

theorem recovered_clean (adapter : Adapter) (hrules : host.RulesCovered)
    (hroutes : host.RoutesCovered) :
    (recovered adapter host).rules = [] ∧ (recovered adapter host).routes = [] := by
  have htoo : True → (host.settle adapter false).RoutesCovered :=
    fun _ => settle_routesCovered hroutes adapter false
  have hspec := (recoverStaleState_spec adapter rfl
    (settle_rulesCovered hrules adapter false) htoo).runOk_spec
  obtain ⟨_, _, hr, ht⟩ := hspec (recoverStaleState_runOk adapter _)
  exact ⟨hr, ht trivial⟩

theorem recovered_absent_routes (hjournal : host.journal = none) {route : OwnedRoute}
    (hmem : route ∈ host.routes) (hphysical : route.interface ≠ .tunnel) :
    route ∈ (recovered .absent host).routes := by
  have hsame : recovered .absent host = host.settle .absent false := by
    simp [recovered, recoverStaleState, runOk, Host.settle, hjournal]
  rw [hsame]
  simp [Host.settle, hmem, hphysical]

/-- The journal covers the firewall rules after every run exactly as long as no run that has
created rules ends while the journal is being replaced. What a recovery leaves behind is
nothing, whatever the state of the adapter, exactly as long as no run at all ends there. -/
theorem journal_crash_safe_iff (history : List HelperRun) :
    ((∀ past, past <+: history → (hostAfter past).RulesCovered) ↔
      ∀ past, past <+: history → displaced (hostAfter past).log = true →
        (hostAfter past).rules = []) ∧
    ((∀ past, past <+: history → ∀ adapter, (recovered adapter (hostAfter past)).rules = [] ∧
        (recovered adapter (hostAfter past)).routes = []) ↔
      ∀ past, past <+: history → displaced (hostAfter past).log = false) := by
  refine ⟨⟨?_, ?_⟩, ⟨?_, ?_⟩⟩
  · intro hcovered past hp hgap
    by_contra hne
    obtain ⟨contents, hjournal, _⟩ := hcovered past hp hne
    rcases List.eq_nil_or_concat' past with rfl | ⟨earlier, run, rfl⟩
    · exact Bool.noConfusion hgap
    · have hnone := (hostAfter_gap (hcovered earlier ((List.prefix_append _ _).trans hp)) hgap).1
      rw [hnone] at hjournal
      cases hjournal
  · intro h past hp
    exact hostAfter_rulesCovered past fun earlier he => h earlier (he.trans hp)
  · intro hclean
    induction history using List.reverseRecOn with
    | nil =>
      intro past hp
      rw [List.prefix_nil] at hp
      rw [hp]
      rfl
    | append_singleton history run ih =>
      have hpast := ih fun past hp => hclean past (hp.trans (List.prefix_append _ _))
      intro past hp
      rcases List.prefix_concat_iff.mp hp with rfl | hp
      · cases hgap : displaced (hostAfter (history ++ [run])).log with
        | false => rfl
        | true =>
          -- the endpoint route stays behind when the adapter is gone
          obtain ⟨hnone, route, hmem, hphysical⟩ :=
            hostAfter_gap (hostAfter_covered history hpast).1 hgap
          have hroute := recovered_absent_routes hnone hmem hphysical
          rw [(hclean _ hp .absent).2] at hroute
          exact absurd hroute List.not_mem_nil
      · exact hpast past hp
  · intro h past hp adapter
    obtain ⟨hrules, hroutes⟩ := hostAfter_covered past fun earlier he => h earlier (he.trans hp)
    exact recovered_clean adapter hrules hroutes

end History

section Sample

def sampleSession : Session :=
  { serverIp := ⟨203, 0, 113, 10⟩
    policy := ⟨.includeOnly, [], []⟩
    underlay := ⟨[7], 7, ⟨192, 168, 1, 1⟩⟩
    adapterAtCleanup := .bound
    refreshes := [] }

def killedRun : HelperRun := ⟨.absent, false, .session sampleSession, List.replicate 20 true⟩

def failedRun : HelperRun :=
  ⟨.absent, false, .session sampleSession, List.replicate 20 true ++ [false, true]⟩

def sampleRules : List String := ["MouseVPN-KS-v6-7-dnscache", "MouseVPN-KS-v4-7-dnscache"]

/-- The rules of the kill switch are there and the journal is not, so a recovery does not look
for them. -/
theorem killed_replacement_strands_rules :
    displaced (hostAfter [killedRun]).log = true ∧
    (hostAfter [killedRun]).journal = none ∧ (hostAfter [killedRun]).rules = sampleRules ∧
    ¬ (hostAfter [killedRun]).RulesCovered ∧
    (recovered .absent (hostAfter [killedRun])).rules = sampleRules ∧
    (recovered .bound (hostAfter [killedRun])).rules = sampleRules ∧
    (recovered .absent (hostAfter [killedRun])).routes ≠ [] ∧
    (hostAfter [failedRun]).journal = none ∧ (hostAfter [failedRun]).rules = sampleRules := by
  have hjournal : (hostAfter [killedRun]).journal = none := by decide +kernel
  have hrules : (hostAfter [killedRun]).rules = sampleRules := by decide +kernel
  refine ⟨by decide +kernel, hjournal, hrules, ?_, by decide +kernel, by decide +kernel,
    by decide +kernel, by decide +kernel, by decide +kernel⟩
  intro hcovered
  obtain ⟨contents, hsome, _⟩ := hcovered (by rw [hrules]; decide)
  rw [hjournal] at hsome
  cases hsome

end Sample

end MouseVpn.Windows
