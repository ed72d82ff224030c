import MouseVpn.Linux.RouteGuard

/-!
# What the route guard remembers

The guard can only delete routes that it remembers. A refresh forgets the route to the
server before it is replaced, and does not remember it again on every way out.
-/

namespace MouseVpn.Linux.Routing

open MouseVpn.Lib

def held (resolve : Route → Route) (st : Routing) : List Route :=
  (st.tunnelRoutes ++ st.serverRoute.toList).map resolve

def Recorded (resolve : Route → Route) (st : Routing) : Prop :=
  ∀ route ∈ st.kernel, route ∈ st.added → route ∈ st.held resolve

def Shown (st : Routing) (route : Route) : Prop :=
  st.kernel.any (sameServerPath · route) = true

/-- The refresh ends without `previous` in the guard or deleted: because it takes another route
that is there already, because the route cannot be deleted, or because the route is not
recognised in the list. -/
def Forgets (resolve : Route → Route) (st : Routing) (o : RefreshOutcomes)
    (previous replacement : Route) : Prop :=
  (st.Shown replacement ∧ resolve replacement ≠ resolve previous) ∨
    (¬ st.Shown replacement ∧ st.Shown previous ∧ o.delete ≠ .ok ()) ∨
    (¬ st.Shown replacement ∧ ¬ st.Shown previous ∧ o.add = .ok () ∧
      resolve replacement ≠ resolve previous) ∨
    (¬ st.Shown replacement ∧ ¬ st.Shown previous ∧ o.add ≠ .ok () ∧ o.restore ≠ .ok ())

def Loses (resolve : Route → Route) (st : Routing) (o : RefreshOutcomes) : Prop :=
  ∃ previous replacement, st.serverRoute = some previous ∧ o.listed = .ok () ∧
    Linux.serverRoute st.serverIp st.kernel = .ok replacement ∧
    resolve previous ∈ st.kernel ∧ resolve previous ∈ st.added ∧
    resolve previous ∉ st.tunnelRoutes.map resolve ∧
    st.Forgets resolve o previous replacement

section Records

variable {resolve : Route → Route} {st st' : Routing}

theorem mem_held {route : Route} : route ∈ st.held resolve ↔
    route ∈ st.tunnelRoutes.map resolve ∨ ∃ r, st.serverRoute = some r ∧ resolve r = route := by
  cases h : st.serverRoute <;> simp [held, h, eq_comm]

theorem recorded_kept_iff (h : st.Recorded resolve) {kernel : List Route}
    (hkernel : ∀ route ∈ kernel, route ∈ st.kernel) (server : Option Route) :
    ({ st with kernel := kernel, serverRoute := server } : Routing).Recorded resolve ↔
      ∀ previous, st.serverRoute = some previous → resolve previous ∈ kernel →
        resolve previous ∈ st.added → resolve previous ∉ st.tunnelRoutes.map resolve →
        ∃ r, server = some r ∧ resolve r = resolve previous := by
  constructor
  · intro hrecorded previous _ hmem hadded htunnel
    exact (mem_held.mp (hrecorded _ hmem hadded)).resolve_left htunnel
  · intro hserver route hmem hadded
    rw [mem_held]
    by_cases htunnel : route ∈ st.tunnelRoutes.map resolve
    · exact Or.inl htunnel
    · obtain ⟨previous, hprevious, rfl⟩ :=
        (mem_held.mp (h route (hkernel route hmem) hadded)).resolve_left htunnel
      exact Or.inr (hserver previous hprevious hmem hadded htunnel)

theorem recorded_added_iff {kernel : List Route} {replacement : Route} :
    ({ st with
        kernel := kernel ++ [resolve replacement]
        added := st.added ++ [resolve replacement]
        serverRoute := some replacement } : Routing).Recorded resolve ↔
      ({ st with kernel := kernel, serverRoute := some replacement } : Routing).Recorded
        resolve := by
  have hheld : resolve replacement ∈
      ({ st with serverRoute := some replacement } : Routing).held resolve :=
    mem_held.mpr (Or.inr ⟨replacement, rfl, rfl⟩)
  constructor
  · intro h route hmem hadded
    exact h route (List.mem_append_left _ hmem) (List.mem_append_left _ hadded)
  · intro h route hmem hadded
    by_cases heq : route = resolve replacement
    · rw [heq]
      exact hheld
    · simp only [List.mem_append, List.mem_singleton, heq, or_false] at hmem hadded
      exact h route hmem hadded

theorem not_loses_iff {previous replacement : Route} {o : RefreshOutcomes}
    (hprevious : st.serverRoute = some previous) (hlisted : o.listed = .ok ())
    (hroute : Linux.serverRoute st.serverIp st.kernel = .ok replacement) :
    ¬ st.Loses resolve o ↔ (resolve previous ∈ st.kernel → resolve previous ∈ st.added →
      resolve previous ∉ st.tunnelRoutes.map resolve →
        ¬ st.Forgets resolve o previous replacement) := by
  constructor
  · intro h hkernel hadded htunnel hforgets
    exact h ⟨previous, replacement, hprevious, hlisted, hroute, hkernel, hadded, htunnel, hforgets⟩
  · intro h hloses
    obtain ⟨other, next, hother, -, hnext, hkernel, hadded, htunnel, hforgets⟩ := hloses
    obtain rfl := Option.some.inj (hprevious.symm.trans hother)
    obtain rfl := Except.ok.inj (hroute.symm.trans hnext)
    exact h hkernel hadded htunnel hforgets

theorem not_forgets_of_hidden {previous replacement : Route} {o : RefreshOutcomes}
    (hreplacement : ¬ st.Shown replacement) (hprevious : ¬ st.Shown previous) :
    ¬ st.Forgets resolve o previous replacement ↔
      (o.add = .ok () ∧ resolve replacement = resolve previous) ∨
        (o.add ≠ .ok () ∧ o.restore = .ok ()) := by
  simp only [Forgets, hreplacement, hprevious, false_and, not_false_eq_true, true_and, false_or,
    not_or, not_and, ne_eq, not_not]
  by_cases hadd : o.add = .ok ()
  · simp [hadd]
  · simp [hadd]

theorem recorded_previous_iff (h : st.Recorded resolve) {previous : Route}
    (hprevious : st.serverRoute = some previous) {kernel : List Route}
    (hkernel : ∀ route ∈ kernel, route ∈ st.kernel) (server : Option Route) :
    ({ st with kernel := kernel, serverRoute := server } : Routing).Recorded resolve ↔
      (resolve previous ∈ kernel → resolve previous ∈ st.added →
        resolve previous ∉ st.tunnelRoutes.map resolve →
        ∃ r, server = some r ∧ resolve r = resolve previous) := by
  rw [recorded_kept_iff h hkernel, hprevious]
  simp only [Option.some.injEq, forall_eq']

theorem recorded_of_none (h : st.Recorded resolve) (hnone : st.serverRoute = none)
    (server : Option Route) :
    ({ st with serverRoute := server } : Routing).Recorded resolve := by
  refine (recorded_kept_iff h (fun _ => id) server).mpr ?_
  intro previous hprevious
  rw [hnone] at hprevious
  cases hprevious

theorem recorded_replace_iff (h : st.Recorded resolve) {previous : Route}
    (hprevious : st.serverRoute = some previous) {kernel : List Route}
    (hkernel : ∀ route ∈ kernel, route ∈ st.kernel) (replacement : Route) (o : RefreshOutcomes) :
    (({ st with kernel := kernel, serverRoute := none } : Routing).replaceServerRoute resolve
        (some previous) replacement o).1.Recorded resolve ↔
      (resolve previous ∈ kernel → resolve previous ∈ st.added →
        resolve previous ∉ st.tunnelRoutes.map resolve →
        (o.add = .ok () ∧ resolve replacement = resolve previous) ∨
          (o.add ≠ .ok () ∧ o.restore = .ok ())) := by
  have hkept := fun server => recorded_previous_iff h hprevious hkernel server
  cases hadd : o.add with
  | ok u =>
    simp only [replaceServerRoute, add, hadd]
    refine recorded_added_iff.trans ((hkept _).trans ?_)
    simp
  | error e =>
    cases hrestore : o.restore with
    | ok u =>
      simp only [replaceServerRoute, add, hadd, hrestore]
      refine recorded_added_iff.trans ((hkept _).trans ?_)
      simp
    | error e' =>
      simp only [replaceServerRoute, add, hadd, hrestore]
      refine (hkept _).trans ?_
      simp

theorem recorded_refresh_iff (h : st.Recorded resolve) (o : RefreshOutcomes) :
    (st.refreshServerRoute resolve o).1.Recorded resolve ↔ ¬ st.Loses resolve o := by
  cases hlisted : o.listed with
  | error e => simp [refreshServerRoute, Loses, hlisted, h]
  | ok u =>
    cases hroute : Linux.serverRoute st.serverIp st.kernel with
    | error e => simp [refreshServerRoute, Loses, hlisted, hroute, h]
    | ok replacement =>
      cases hprevious : st.serverRoute with
      | none =>
        have hnot : ¬ st.Loses resolve o := by simp [Loses, hprevious]
        refine ⟨fun _ => hnot, fun _ => ?_⟩
        simp only [refreshServerRoute, hlisted, hroute, hprevious, deletePrevious,
          Option.filter_none]
        split_ifs with hshown
        · exact recorded_of_none h hprevious _
        · simp only [replaceServerRoute, add]
          cases hadd : o.add with
          | ok u => exact recorded_added_iff.mpr (recorded_of_none h hprevious _)
          | error e => exact recorded_of_none h hprevious _
      | some previous =>
        rw [not_loses_iff hprevious hlisted hroute]
        simp only [refreshServerRoute, hlisted, hroute, hprevious, deletePrevious]
        split_ifs with hshown
        · refine (recorded_previous_iff h hprevious (fun _ => id) _).trans ?_
          simp [Forgets, Shown, hshown]
        · by_cases hfound : st.kernel.any (sameServerPath · previous) = true
          · simp only [Option.filter_some, hfound, if_true, delete]
            cases hdelete : o.delete with
            | error e =>
              refine (recorded_previous_iff h hprevious (fun _ => id) _).trans ?_
              simp [Forgets, Shown, hshown, hfound, hdelete]
            | ok u =>
              refine (recorded_replace_iff h hprevious
                (fun _ hmem => List.mem_of_mem_filter hmem) replacement o).trans ?_
              simp [Forgets, Shown, hshown, hfound, hdelete]
          · simp only [Option.filter_some, hfound]
            rw [not_forgets_of_hidden hshown hfound]
            exact recorded_replace_iff h hprevious (fun _ => id) replacement o

theorem recorded_addTunnelRoute (h : st.Recorded resolve) (route : Route)
    (outcome : Except RouteError Unit) :
    (st.addTunnelRoute resolve route outcome).1.Recorded resolve := by
  cases outcome with
  | error e => exact h
  | ok u =>
    intro other hmem hadded
    simp only [addTunnelRoute, add, List.mem_append, List.mem_singleton] at hmem hadded
    have hheld : other ∈ st.held resolve ∨ other = resolve route := by
      rcases hmem with hmem | heq
      · rcases hadded with hadded | heq
        · exact Or.inl (h other hmem hadded)
        · exact Or.inr heq
      · exact Or.inr heq
    simp only [mem_held, addTunnelRoute, add, List.map_append, List.mem_append, List.map_singleton,
      List.mem_singleton] at hheld ⊢
    rcases hheld with (htunnel | hserver) | hnew
    · exact Or.inl (Or.inl htunnel)
    · exact Or.inr hserver
    · exact Or.inl (Or.inr hnew)

theorem install_recorded (kernel : List Route) (server : Ipv4Addr) (tunName : String)
    (o : InstallOutcomes) : (install resolve kernel server tunName o).1.Recorded resolve := by
  have hstart : (⟨kernel, server, none, [], []⟩ : Routing).Recorded resolve :=
    fun _ _ hadded => absurd hadded List.not_mem_nil
  simp only [install]
  cases o.opened with
  | error e => exact hstart
  | ok u =>
    cases o.listed with
    | error e => exact hstart
    | ok u =>
      cases rejectFullTunnel kernel with
      | error e => exact hstart
      | ok u =>
        cases Linux.serverRoute server kernel with
        | error e => exact hstart
        | ok route =>
          cases o.addServer with
          | error e => exact hstart
          | ok u =>
            have hserver := recorded_added_iff.mpr (recorded_of_none hstart rfl (some route))
            have hfirst := recorded_addTunnelRoute hserver
              ((Route.new unspecified 1).withIfName tunName) o.addFirst
            simp only [add]
            revert hfirst
            generalize addTunnelRoute resolve _ ((Route.new unspecified 1).withIfName tunName)
              o.addFirst = first
            intro hfirst
            obtain ⟨guard, result⟩ := first
            cases result with
            | error e => exact hfirst
            | ok u => exact recorded_addTunnelRoute hfirst _ _

theorem foldl_delete (routes : List Route) :
    routes.foldl (fun st route => (st.delete resolve route (.ok ())).1) st =
      { st with kernel := st.kernel.filter (· ∉ routes.map resolve) } := by
  induction routes generalizing st with
  | nil => simp
  | cons route routes ih =>
    have hfilter : (st.kernel.filter (· ≠ resolve route)).filter (· ∉ routes.map resolve) =
        st.kernel.filter (· ∉ (route :: routes).map resolve) := by
      rw [List.filter_filter]
      apply List.filter_congr
      intro other _
      rw [Bool.eq_iff_iff, List.map_cons]
      simp only [Bool.and_eq_true, decide_eq_true_eq, List.mem_cons, not_or, ne_eq]
      exact and_comm
    rw [List.foldl_cons, ih, ← hfilter]
    rfl

theorem mem_dropGuard {route : Route} :
    route ∈ (st.dropGuard resolve).kernel ↔ route ∈ st.kernel ∧ route ∉ st.held resolve := by
  rw [dropGuard, foldl_delete, mem_held]
  cases st.serverRoute with
  | none => simp
  | some server =>
    simp only [delete, List.mem_filter, decide_eq_true_eq, Option.some.injEq, exists_eq_left',
      List.map_reverse, List.mem_reverse, not_or, and_assoc]
    rw [ne_comm]

theorem recorded_iff_dropGuard :
    st.Recorded resolve ↔ ∀ route ∈ (st.dropGuard resolve).kernel, route ∉ st.added := by
  constructor
  · intro h route hmem hadded
    obtain ⟨hkernel, hheld⟩ := mem_dropGuard.mp hmem
    exact hheld (h route hkernel hadded)
  · intro h route hmem hadded
    by_contra hheld
    exact h route (mem_dropGuard.mpr ⟨hmem, hheld⟩) hadded

theorem recorded_step_iff (h : st.Recorded resolve) (event : Event) :
    (step resolve st event).1.Recorded resolve ↔
      ∀ outcomes, event = .refresh outcomes → ¬ st.Loses resolve outcomes := by
  cases event with
  | refresh outcomes =>
    simp only [step, Event.refresh.injEq, forall_eq']
    exact recorded_refresh_iff h outcomes
  | vanish route =>
    constructor
    · intro _ outcomes hevent
      cases hevent
    · intro _ other hmem hadded
      exact h other (List.mem_of_mem_filter hmem) hadded

end Records

theorem routes_recorded_iff (resolve : Route → Route) (kernel : List Route) (server : Ipv4Addr)
    (tunName : String) (o : InstallOutcomes) (events : List Event) :
    ((∀ pre post, events = pre ++ post →
        ((install resolve kernel server tunName o).1.run resolve pre).Recorded resolve) ↔
      Machine.Obeys (step resolve)
        (fun st event => ∀ outcomes, event = .refresh outcomes → ¬ st.Loses resolve outcomes)
        (install resolve kernel server tunName o).1 events) ∧
    ∀ st : Routing, st.Recorded resolve ↔
      ∀ route ∈ (st.dropGuard resolve).kernel, route ∉ st.added :=
  ⟨(Machine.obeys_iff_invariant (step resolve) (Recorded resolve)
    (fun _ event h => recorded_step_iff h event)
    (install_recorded kernel server tunName o)).symm, fun _ => recorded_iff_dropGuard⟩

def defaultVia (gateway : Ipv4Addr) (index metric : UInt32) : Route :=
  { Route.new unspecified 0 with
    gateway := some (.v4 gateway)
    ifIndex := some index
    metric := some metric }

def installOk : InstallOutcomes := ⟨.ok (), .ok (), .ok (), .ok (), .ok ()⟩

def failedDelete : Routing :=
  (install id [defaultVia ⟨192, 168, 1, 1⟩ 2 100, defaultVia ⟨10, 0, 0, 1⟩ 3 600]
      ⟨203, 0, 113, 7⟩ "mouse0" installOk).1.run id
    [.vanish (defaultVia ⟨192, 168, 1, 1⟩ 2 100),
      .refresh ⟨.ok (), .error (.manager 16), .ok (), .ok ()⟩]

theorem failed_delete_forgets :
    failedDelete.serverRoute = none ∧
      ∃ route ∈ failedDelete.kernel, route ∈ failedDelete.added ∧
        route ∉ failedDelete.held id ∧ route ∈ (failedDelete.dropGuard id).kernel := by
  decide

end MouseVpn.Linux.Routing
