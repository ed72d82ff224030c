import MouseVpn.Windows.Network
import Mathlib.Data.List.Nodup
import Mathlib.Data.List.Perm.Subperm

/-!
# Route repair on the forwarding table

`repair_routes` works on the table of the system, in which the routes of the client are marked
by their metric and protocol only. Here the calls succeed; the table decides what a call that
finds its row already there, or already gone, does. The procedure in `Network`, which knows the
client's own routes only, is the view of this one on the marked rows.
-/

namespace MouseVpn.Windows

open MouseVpn.Lib

def routeMetric : ℕ := 4242

def protocolNetMgmt : ℕ := 3

structure ForwardRow where
  destination : Ipv4Addr
  prefixLen : ℕ
  interface : Interface
  nextHop : Ipv4Addr
  metric : ℕ
  protocol : ℕ
  deriving DecidableEq, Repr

namespace ForwardRow

def ownedRoute (row : ForwardRow) : OwnedRoute :=
  ⟨row.destination, row.prefixLen, row.interface, row.nextHop⟩

def isOwned (row : ForwardRow) : Bool :=
  row.metric = routeMetric && row.protocol = protocolNetMgmt

def ofRoute (route : OwnedRoute) : ForwardRow :=
  ⟨route.destination, route.prefixLen, route.interface, route.nextHop, routeMetric, protocolNetMgmt⟩

@[simp] theorem isOwned_ofRoute (route : OwnedRoute) : (ofRoute route).isOwned = true := by
  simp [isOwned, ofRoute]

end ForwardRow

open ForwardRow

abbrev ForwardTable := List ForwardRow

namespace ForwardTable

/-- The loop of `default_ipv4_route`: a later row wins with a smaller metric only. -/
def betterDefault (best : Option (ℕ × ℕ × Ipv4Addr)) (row : ForwardRow) :
    Option (ℕ × ℕ × Ipv4Addr) :=
  match row.interface with
  | .tunnel => best
  | .physical index =>
    if row.prefixLen ≠ 0 ∨ row.nextHop = ⟨0, 0, 0, 0⟩ then best
    else
      match best with
      | none => some (row.metric, index, row.nextHop)
      | some (metric, _) =>
        if row.metric < metric then some (row.metric, index, row.nextHop) else best

def defaultIpv4Route (table : ForwardTable) : Option (ℕ × Ipv4Addr) :=
  (table.foldl betterDefault none).map (·.2)

def addRoute (table : ForwardTable) (route : OwnedRoute) : ForwardTable :=
  if table.any fun row => row.ownedRoute = route then table else ofRoute route :: table

def ownedRoutes (table : ForwardTable) : List OwnedRoute := (table.filter isOwned).map ownedRoute

def deleteEntry (table : ForwardTable) (row : ForwardRow) : ForwardTable :=
  table.eraseP fun other => other.ownedRoute = row.ownedRoute

def removeOwnedRoutes (table : ForwardTable) (selected : OwnedRoute → Bool) : ForwardTable :=
  (table.filter fun row => row.isOwned && selected row.ownedRoute).foldl deleteEntry table

def repairRoutes (table : ForwardTable) (serverIp : Ipv4Addr) (underlay : Underlay) :
    ForwardTable :=
  let routes := table.ownedRoutes
  let table :=
    if serverRouteIsStale routes serverIp underlay then
      (table.removeOwnedRoutes fun route => isServerRoute route serverIp).addRoute
        (serverRoute serverIp underlay)
    else table
  (missingHalves routes).foldl addRoute table

variable {table : ForwardTable} {route : OwnedRoute} {serverIp : Ipv4Addr} {underlay : Underlay}

def Untwinned (table : ForwardTable) (route : OwnedRoute) : Prop :=
  ∀ row ∈ table, row.ownedRoute = route → row.isOwned = true

instance : Decidable (table.Untwinned route) :=
  inferInstanceAs (Decidable (∀ row ∈ table, row.ownedRoute = route → row.isOwned = true))

def foreignRows (table : ForwardTable) : ForwardTable := table.filter fun row => !row.isOwned

@[simp] theorem ownedRoutes_cons_owned {row : ForwardRow} (h : row.isOwned = true) :
    ownedRoutes (row :: table) = row.ownedRoute :: table.ownedRoutes := by
  simp [ownedRoutes, h]

@[simp] theorem ownedRoutes_cons_foreign {row : ForwardRow} (h : row.isOwned = false) :
    ownedRoutes (row :: table) = table.ownedRoutes := by
  simp [ownedRoutes, h]

@[simp] theorem foreignRows_cons_ofRoute (route : OwnedRoute) :
    foreignRows (ofRoute route :: table) = table.foreignRows := by
  rw [foreignRows, List.filter_cons_of_neg (by simp), foreignRows]

theorem mem_ownedRoutes :
    route ∈ table.ownedRoutes ↔ ∃ row ∈ table, row.isOwned = true ∧ row.ownedRoute = route := by
  simp [ownedRoutes, and_assoc]

theorem Untwinned.any_iff (h : table.Untwinned route) :
    (table.any fun row => row.ownedRoute = route) = true ↔ route ∈ table.ownedRoutes := by
  rw [List.any_eq_true, mem_ownedRoutes]
  constructor
  · intro hany
    obtain ⟨row, hrow, heq⟩ := hany
    have heq := of_decide_eq_true heq
    exact ⟨row, hrow, h row hrow heq, heq⟩
  · intro howned
    obtain ⟨row, hrow, -, heq⟩ := howned
    exact ⟨row, hrow, decide_eq_true heq⟩

theorem addRoute_of_not_mem (h : table.Untwinned route) (hmem : route ∉ table.ownedRoutes) :
    table.addRoute route = ofRoute route :: table :=
  if_neg fun hany => hmem (h.any_iff.mp hany)

theorem Untwinned.cons_ofRoute (h : table.Untwinned route) (other : OwnedRoute) :
    Untwinned (ofRoute other :: table) route := by
  intro row hrow heq
  rcases List.mem_cons.mp hrow with rfl | hrow
  · exact isOwned_ofRoute other
  · exact h row hrow heq

theorem Untwinned.sublist {table' : ForwardTable} (h : table.Untwinned route)
    (hsub : table'.Sublist table) : table'.Untwinned route :=
  fun row hrow => h row (hsub.subset hrow)

theorem deleteEntry_sublist (row : ForwardRow) : (table.deleteEntry row).Sublist table :=
  List.eraseP_sublist

theorem filter_deleteEntry {p : ForwardRow → Bool} {row : ForwardRow}
    (h : ∀ other ∈ table, other.ownedRoute = row.ownedRoute → p other = false) :
    (table.deleteEntry row).filter p = table.filter p := by
  induction table with
  | nil => rfl
  | cons head table ih =>
    have hrest := ih fun other hother => h other (List.mem_cons_of_mem head hother)
    by_cases heq : head.ownedRoute = row.ownedRoute
    · simp [deleteEntry, heq, h head List.mem_cons_self heq]
    · have hkeep : deleteEntry (head :: table) row = head :: deleteEntry table row := by
        simp [deleteEntry, heq]
      rw [hkeep, List.filter_cons, List.filter_cons, hrest]

theorem foreignRows_deleteEntry {row : ForwardRow} (h : table.Untwinned row.ownedRoute) :
    (table.deleteEntry row).foreignRows = table.foreignRows :=
  filter_deleteEntry fun other hother heq => by simp [h other hother heq]

theorem ownedRoutes_deleteEntry {row : ForwardRow} (h : table.Untwinned row.ownedRoute) :
    (table.deleteEntry row).ownedRoutes = table.ownedRoutes.erase row.ownedRoute := by
  induction table with
  | nil => rfl
  | cons head table ih =>
    have hrest := ih (h.sublist (List.sublist_cons_self head table))
    by_cases heq : head.ownedRoute = row.ownedRoute
    · simp [deleteEntry, heq, h head List.mem_cons_self heq]
    · have hkeep : deleteEntry (head :: table) row = head :: deleteEntry table row := by
        simp [deleteEntry, heq]
      rw [hkeep]
      cases hhead : head.isOwned with
      | true =>
        rw [ownedRoutes_cons_owned hhead, ownedRoutes_cons_owned hhead, hrest,
          List.erase_cons_tail (by simpa using heq)]
      | false => rw [ownedRoutes_cons_foreign hhead, ownedRoutes_cons_foreign hhead, hrest]

theorem foldl_deleteEntry_spec {rows : List ForwardRow}
    (h : ∀ row ∈ rows, table.Untwinned row.ownedRoute) :
    ownedRoutes (rows.foldl deleteEntry table) = table.ownedRoutes.diff (rows.map ownedRoute) ∧
      foreignRows (rows.foldl deleteEntry table) = table.foreignRows := by
  induction rows generalizing table with
  | nil => exact ⟨rfl, rfl⟩
  | cons row rows ih =>
    have hrow := h row List.mem_cons_self
    have hrest : ∀ other ∈ rows, (table.deleteEntry row).Untwinned other.ownedRoute :=
      fun other hother =>
        (h other (List.mem_cons_of_mem row hother)).sublist (deleteEntry_sublist row)
    obtain ⟨hdiff, hkept⟩ := ih hrest
    rw [List.foldl_cons, List.map_cons, List.diff_cons, hdiff, hkept, ownedRoutes_deleteEntry hrow]
    exact ⟨rfl, foreignRows_deleteEntry hrow⟩

theorem diff_filter {α : Type} [DecidableEq α] (p : α → Bool) (l : List α) :
    l.diff (l.filter p) = l.filter fun a => !p a := by
  induction l with
  | nil => rfl
  | cons a l ih =>
    cases hp : p a with
    | true => simp [hp, ih]
    | false =>
      have hnot : a ∉ l.filter p := by simp [hp]
      simp [hp, List.cons_diff_of_not_mem hnot, ih]

theorem map_filter_ownedRoute (selected : OwnedRoute → Bool) :
    (table.filter fun row => row.isOwned && selected row.ownedRoute).map ownedRoute =
      table.ownedRoutes.filter selected := by
  rw [ownedRoutes, List.filter_map, List.filter_filter]
  congr 2
  funext row
  exact Bool.and_comm _ _

theorem removeOwnedRoutes_spec (selected : OwnedRoute → Bool)
    (h : ∀ route ∈ table.ownedRoutes, table.Untwinned route) :
    (table.removeOwnedRoutes selected).ownedRoutes =
        (table.ownedRoutes.filter fun route => !selected route) ∧
      (table.removeOwnedRoutes selected).foreignRows = table.foreignRows := by
  have hrows : ∀ row ∈ table.filter (fun row => row.isOwned && selected row.ownedRoute),
      table.Untwinned row.ownedRoute := by
    intro row hrow
    obtain ⟨hmem, hselected⟩ := List.mem_filter.mp hrow
    exact h _ (mem_ownedRoutes.mpr ⟨row, hmem, (Bool.and_eq_true_iff.mp hselected).1, rfl⟩)
  obtain ⟨howned, hforeign⟩ := foldl_deleteEntry_spec hrows
  rw [map_filter_ownedRoute, diff_filter] at howned
  exact ⟨howned, hforeign⟩

theorem removeOwnedRoutes_sublist (selected : OwnedRoute → Bool) :
    (table.removeOwnedRoutes selected).Sublist table := by
  rw [removeOwnedRoutes]
  generalize table.filter _ = rows
  induction rows generalizing table with
  | nil => exact List.Sublist.refl table
  | cons row rows ih => exact ih.trans (deleteEntry_sublist row)

theorem foldl_addRoute_spec {routes : List OwnedRoute}
    (h : ∀ route ∈ routes, table.Untwinned route)
    (hnew : ∀ route ∈ routes, route ∉ table.ownedRoutes) (hnodup : routes.Nodup) :
    ownedRoutes (routes.foldl addRoute table) = routes.reverse ++ table.ownedRoutes ∧
      foreignRows (routes.foldl addRoute table) = table.foreignRows := by
  induction routes generalizing table with
  | nil => exact ⟨rfl, rfl⟩
  | cons route routes ih =>
    obtain ⟨hnotin, hnodup⟩ := List.nodup_cons.mp hnodup
    have hadd := addRoute_of_not_mem (h route List.mem_cons_self) (hnew route List.mem_cons_self)
    have howned : ownedRoutes (ofRoute route :: table) = route :: table.ownedRoutes :=
      ownedRoutes_cons_owned (isOwned_ofRoute route)
    have hrest : ∀ other ∈ routes, Untwinned (ofRoute route :: table) other :=
      fun other hother => (h other (List.mem_cons_of_mem route hother)).cons_ofRoute route
    have hstillNew : ∀ other ∈ routes, other ∉ ownedRoutes (ofRoute route :: table) := by
      intro other hother hmem
      rw [howned] at hmem
      rcases List.mem_cons.mp hmem with rfl | hmem
      · exact hnotin hother
      · exact hnew other (List.mem_cons_of_mem route hother) hmem
    obtain ⟨howned', hforeign'⟩ := ih hrest hstillNew hnodup
    rw [List.foldl_cons, hadd, howned', hforeign', howned, List.reverse_cons, List.append_assoc]
    exact ⟨rfl, foreignRows_cons_ofRoute route⟩

structure Apart (table : ForwardTable) (serverIp : Ipv4Addr) (underlay : Underlay) : Prop where
  owned : ∀ route ∈ table.ownedRoutes, table.Untwinned route
  server : table.Untwinned (serverRoute serverIp underlay)
  halves : ∀ half ∈ tunnelHalves, table.Untwinned half

theorem isServerRoute_serverRoute :
    isServerRoute (serverRoute serverIp underlay) serverIp = true := by
  simp [isServerRoute, serverRoute]

theorem half_shape {half : OwnedRoute} (h : half ∈ tunnelHalves) :
    half.prefixLen = 1 ∧ half.interface = .tunnel := by
  revert half
  decide

theorem isServerRoute_half {half : OwnedRoute} (h : half ∈ tunnelHalves) :
    isServerRoute half serverIp = false := by
  simp [isServerRoute, (half_shape h).1]

theorem mem_missingHalves {routes : List OwnedRoute} {half : OwnedRoute} :
    half ∈ missingHalves routes ↔ half ∈ tunnelHalves ∧
      ∀ route ∈ routes, route.destination = half.destination → route.prefixLen = 1 →
        route.interface ≠ .tunnel := by
  simp [missingHalves]

theorem not_mem_of_missing {routes : List OwnedRoute} {half : OwnedRoute}
    (h : half ∈ missingHalves routes) : half ∉ routes := by
  intro hmem
  obtain ⟨hhalf, hnone⟩ := mem_missingHalves.mp h
  have hshape := half_shape hhalf
  exact hnone half hmem rfl hshape.1 hshape.2

theorem half_not_mem_replaced (routes : List OwnedRoute) :
    ∀ half ∈ missingHalves routes, half ∉ serverRoute serverIp underlay ::
      routes.filter fun route => !isServerRoute route serverIp := by
  intro half hhalf hmem
  rcases List.mem_cons.mp hmem with rfl | hmem
  · have hno : isServerRoute (serverRoute serverIp underlay) serverIp = false :=
      isServerRoute_half (mem_missingHalves.mp hhalf).1
    rw [isServerRoute_serverRoute] at hno
    cases hno
  · exact not_mem_of_missing hhalf (List.mem_of_mem_filter hmem)

theorem missingHalves_nodup (routes : List OwnedRoute) : (missingHalves routes).Nodup :=
  List.Nodup.filter _ (by decide)

def repairedRoutes (routes : List OwnedRoute) (serverIp : Ipv4Addr) (underlay : Underlay) :
    List OwnedRoute :=
  (missingHalves routes).reverse ++
    if serverRouteIsStale routes serverIp underlay then
      serverRoute serverIp underlay :: routes.filter fun route => !isServerRoute route serverIp
    else routes

theorem replaceServer_spec (h : table.Apart serverIp underlay) :
    let replaced := (table.removeOwnedRoutes fun route => isServerRoute route serverIp).addRoute
      (serverRoute serverIp underlay)
    replaced.ownedRoutes = serverRoute serverIp underlay ::
        (table.ownedRoutes.filter fun route => !isServerRoute route serverIp) ∧
      replaced.foreignRows = table.foreignRows ∧
      ∀ half ∈ tunnelHalves, replaced.Untwinned half := by
  obtain ⟨hkept, hforeign⟩ :=
    removeOwnedRoutes_spec (fun route => isServerRoute route serverIp) h.owned
  have hsub : (table.removeOwnedRoutes fun route => isServerRoute route serverIp).Sublist table :=
    removeOwnedRoutes_sublist _
  have hgone : serverRoute serverIp underlay ∉
      (table.removeOwnedRoutes fun route => isServerRoute route serverIp).ownedRoutes := by
    rw [hkept]
    simp [isServerRoute_serverRoute]
  intro replaced
  have hreplaced : replaced = ofRoute (serverRoute serverIp underlay) ::
      table.removeOwnedRoutes fun route => isServerRoute route serverIp :=
    addRoute_of_not_mem (h.server.sublist hsub) hgone
  rw [hreplaced, ownedRoutes_cons_owned (isOwned_ofRoute _), foreignRows_cons_ofRoute, hkept]
  exact ⟨rfl, hforeign, fun half hhalf => ((h.halves half hhalf).sublist hsub).cons_ofRoute _⟩

theorem repairRoutes_spec (h : table.Apart serverIp underlay) :
    (table.repairRoutes serverIp underlay).ownedRoutes =
        repairedRoutes table.ownedRoutes serverIp underlay ∧
      (table.repairRoutes serverIp underlay).foreignRows = table.foreignRows := by
  have hhalves : ∀ half ∈ missingHalves table.ownedRoutes, half ∈ tunnelHalves :=
    fun half hhalf => (mem_missingHalves.mp hhalf).1
  rw [repairRoutes, repairedRoutes]
  by_cases hstale : serverRouteIsStale table.ownedRoutes serverIp underlay = true
  · simp only [hstale, if_true]
    obtain ⟨howned, hforeign, huntwinned⟩ := replaceServer_spec h
    have hnew : ∀ half ∈ missingHalves table.ownedRoutes, half ∉ ownedRoutes
        ((table.removeOwnedRoutes fun route => isServerRoute route serverIp).addRoute
          (serverRoute serverIp underlay)) := by
      rw [howned]
      exact half_not_mem_replaced table.ownedRoutes
    obtain ⟨hadded, hkept⟩ := foldl_addRoute_spec
      (fun half hhalf => huntwinned half (hhalves half hhalf)) hnew (missingHalves_nodup _)
    rw [hadded, hkept, howned]
    exact ⟨rfl, hforeign⟩
  · simp only [hstale, Bool.false_eq_true, if_false]
    exact foldl_addRoute_spec (fun half hhalf => h.halves half (hhalves half hhalf))
      (fun half hhalf => not_mem_of_missing hhalf) (missingHalves_nodup _)

theorem eq_singleton_of_not_stale {routes : List OwnedRoute}
    (h : serverRouteIsStale routes serverIp underlay = false) :
    (routes.filter fun route => isServerRoute route serverIp) =
      [serverRoute serverIp underlay] := by
  simp only [serverRouteIsStale, Bool.or_eq_false_iff, decide_eq_false_iff_not, not_not] at h
  obtain ⟨hone, hmatch⟩ := h
  obtain ⟨route, hroute⟩ := List.length_eq_one_iff.mp hone
  have hserver : isServerRoute route serverIp = true := by
    have hmem : route ∈ routes.filter fun route => isServerRoute route serverIp := by
      rw [hroute]
      exact List.mem_singleton_self route
    exact (List.mem_filter.mp hmem).2
  rw [hroute] at hmatch ⊢
  have hcurrent : route.interface = .physical underlay.defaultInterface ∧
      route.nextHop = underlay.nextHop := by
    by_contra hother
    simp [hother] at hmatch
  obtain ⟨destination, prefixLen, interface, nextHop⟩ := route
  simp only [isServerRoute, Bool.and_eq_true, decide_eq_true_eq] at hserver
  obtain ⟨rfl, rfl⟩ := hserver
  obtain ⟨rfl, rfl⟩ := hcurrent
  rfl

theorem not_stale_of_eq_singleton {routes : List OwnedRoute}
    (h : (routes.filter fun route => isServerRoute route serverIp) =
      [serverRoute serverIp underlay]) :
    serverRouteIsStale routes serverIp underlay = false := by
  simp [serverRouteIsStale, h, serverRoute]

theorem filter_server_repairedRoutes (routes : List OwnedRoute) :
    ((repairedRoutes routes serverIp underlay).filter fun route => isServerRoute route serverIp) =
      [serverRoute serverIp underlay] := by
  have hhalves : ((missingHalves routes).reverse.filter fun route => isServerRoute route serverIp) =
      [] := by
    rw [List.filter_eq_nil_iff]
    intro half hhalf
    have hmissing := mem_missingHalves.mp (List.mem_reverse.mp hhalf)
    rw [isServerRoute_half hmissing.1]
    exact Bool.false_ne_true
  rw [repairedRoutes, List.filter_append, hhalves, List.nil_append]
  cases hstale : serverRouteIsStale routes serverIp underlay with
  | true => simp [isServerRoute_serverRoute]
  | false => exact eq_singleton_of_not_stale hstale

theorem count_le_repairedRoutes (routes : List OwnedRoute)
    (h : isServerRoute route serverIp = true →
      serverRouteIsStale routes serverIp underlay = false) :
    routes.count route ≤ (repairedRoutes routes serverIp underlay).count route := by
  rw [repairedRoutes, List.count_append]
  cases hstale : serverRouteIsStale routes serverIp underlay with
  | false => exact Nat.le_add_left _ _
  | true =>
    have hserver : isServerRoute route serverIp = false := by
      cases hroute : isServerRoute route serverIp with
      | false => rfl
      | true =>
        rw [hstale] at h
        exact h hroute
    have hkept : (routes.filter fun route => !isServerRoute route serverIp).count route =
        routes.count route := List.count_filter (by simp [hserver])
    rw [if_pos rfl, List.count_cons, hkept]
    omega

theorem half_mem_repairedRoutes (routes : List OwnedRoute) {half : OwnedRoute}
    (h : half ∈ tunnelHalves) :
    ∃ route ∈ repairedRoutes routes serverIp underlay,
      route.destination = half.destination ∧ route.prefixLen = 1 ∧ route.interface = .tunnel := by
  by_cases hmissing : half ∈ missingHalves routes
  · have hshape : half.prefixLen = 1 ∧ half.interface = .tunnel := half_shape h
    exact ⟨half, List.mem_append_left _ (List.mem_reverse.mpr hmissing), rfl, hshape⟩
  · rw [mem_missingHalves] at hmissing
    push Not at hmissing
    obtain ⟨route, hroute, hdestination, hprefixLen, hinterface⟩ := hmissing h
    have hserver : isServerRoute route serverIp = false := by simp [isServerRoute, hprefixLen]
    have hkept : route ∈ repairedRoutes routes serverIp underlay := by
      rw [← List.one_le_count_iff] at hroute ⊢
      refine hroute.trans (count_le_repairedRoutes routes ?_)
      intro hyes
      rw [hserver] at hyes
      cases hyes
    exact ⟨route, hkept, hdestination, hprefixLen, hinterface⟩

theorem missingHalves_eq_nil {routes : List OwnedRoute}
    (h : ∀ half ∈ tunnelHalves, ∃ route ∈ routes,
      route.destination = half.destination ∧ route.prefixLen = 1 ∧ route.interface = .tunnel) :
    missingHalves routes = [] := by
  rw [List.eq_nil_iff_forall_not_mem]
  intro half hhalf
  obtain ⟨hmem, hnone⟩ := mem_missingHalves.mp hhalf
  obtain ⟨route, hroute, hdestination, hprefixLen, hinterface⟩ := h half hmem
  exact hnone route hroute hdestination hprefixLen hinterface

theorem repairRoutes_eq_self
    (hserver : (table.ownedRoutes.filter fun route => isServerRoute route serverIp) =
      [serverRoute serverIp underlay])
    (hhalves : ∀ half ∈ tunnelHalves, ∃ route ∈ table.ownedRoutes,
      route.destination = half.destination ∧ route.prefixLen = 1 ∧ route.interface = .tunnel) :
    table.repairRoutes serverIp underlay = table := by
  simp [repairRoutes, not_stale_of_eq_singleton hserver, missingHalves_eq_nil hhalves]

theorem repair_routes_converges (table : ForwardTable) (serverIp : Ipv4Addr) (underlay : Underlay)
    (h : table.Apart serverIp underlay) :
    let repaired := table.repairRoutes serverIp underlay
    (repaired.ownedRoutes.filter fun route => isServerRoute route serverIp) =
        [serverRoute serverIp underlay] ∧
      (∀ half ∈ tunnelHalves, ∃ route ∈ repaired.ownedRoutes,
        route.destination = half.destination ∧ route.prefixLen = 1 ∧ route.interface = .tunnel) ∧
      (∀ route, repaired.ownedRoutes.count route < table.ownedRoutes.count route →
        isServerRoute route serverIp = true ∧
          serverRouteIsStale table.ownedRoutes serverIp underlay = true) ∧
      repaired.foreignRows = table.foreignRows ∧
      repaired.repairRoutes serverIp underlay = repaired := by
  obtain ⟨howned, hforeign⟩ := repairRoutes_spec h
  have hserver : ((table.repairRoutes serverIp underlay).ownedRoutes.filter
      fun route => isServerRoute route serverIp) = [serverRoute serverIp underlay] := by
    rw [howned]
    exact filter_server_repairedRoutes table.ownedRoutes
  have hhalves : ∀ half ∈ tunnelHalves,
      ∃ route ∈ (table.repairRoutes serverIp underlay).ownedRoutes,
      route.destination = half.destination ∧ route.prefixLen = 1 ∧ route.interface = .tunnel := by
    intro half hhalf
    rw [howned]
    exact half_mem_repairedRoutes table.ownedRoutes hhalf
  refine ⟨hserver, hhalves, ?_, hforeign, repairRoutes_eq_self hserver hhalves⟩
  intro route hremoved
  by_contra hother
  rw [howned] at hremoved
  refine Nat.not_lt.mpr (count_le_repairedRoutes table.ownedRoutes ?_) hremoved
  intro hroute
  by_contra hstale
  exact hother ⟨hroute, Bool.eq_true_of_not_eq_false hstale⟩

def roamedTable : ForwardTable :=
  [⟨⟨0, 0, 0, 0⟩, 0, .physical 7, ⟨192, 168, 1, 1⟩, 25, 3⟩,
    ⟨⟨192, 168, 1, 0⟩, 24, .physical 7, ⟨0, 0, 0, 0⟩, 256, 2⟩,
    ofRoute ⟨⟨203, 0, 113, 5⟩, 32, .physical 4, ⟨10, 0, 0, 1⟩⟩,
    ofRoute ⟨⟨203, 0, 113, 5⟩, 32, .physical 4, ⟨10, 0, 0, 1⟩⟩,
    ofRoute ⟨⟨128, 0, 0, 0⟩, 1, .tunnel, ⟨0, 0, 0, 0⟩⟩]

def roamedUnderlay : Underlay := ⟨[7], 7, ⟨192, 168, 1, 1⟩⟩

theorem roamed_routes_converge :
    roamedTable.Apart ⟨203, 0, 113, 5⟩ roamedUnderlay ∧
      ((roamedTable.repairRoutes ⟨203, 0, 113, 5⟩ roamedUnderlay).ownedRoutes.filter
        fun route => isServerRoute route ⟨203, 0, 113, 5⟩) =
          [⟨⟨203, 0, 113, 5⟩, 32, .physical 7, ⟨192, 168, 1, 1⟩⟩] := by
  have hapart : roamedTable.Apart ⟨203, 0, 113, 5⟩ roamedUnderlay := by
    constructor
    · decide
    · decide
    · decide
  exact ⟨hapart, (repair_routes_converges roamedTable _ _ hapart).1⟩

theorem betterDefault_of_prefixLen {row : ForwardRow} (h : row.prefixLen ≠ 0)
    (best : Option (ℕ × ℕ × Ipv4Addr)) : betterDefault best row = best := by
  rw [betterDefault]
  cases row.interface with
  | tunnel => rfl
  | physical index => exact if_pos (Or.inl h)

theorem foldl_betterDefault_filter (best : Option (ℕ × ℕ × Ipv4Addr)) :
    table.foldl betterDefault best =
      (table.filter fun row => row.prefixLen = 0).foldl betterDefault best := by
  induction table generalizing best with
  | nil => rfl
  | cons row table ih =>
    by_cases h : row.prefixLen = 0
    · rw [List.filter_cons_of_pos (by simpa using h), List.foldl_cons, List.foldl_cons, ih]
    · rw [List.filter_cons_of_neg (by simpa using h), List.foldl_cons,
        betterDefault_of_prefixLen h, ih]

theorem filter_removeOwnedRoutes {p : ForwardRow → Bool} {selected : OwnedRoute → Bool}
    (h : ∀ row, selected row.ownedRoute = true → p row = false) :
    (table.removeOwnedRoutes selected).filter p = table.filter p := by
  have hrows : ∀ row ∈ table.filter (fun row => row.isOwned && selected row.ownedRoute),
      selected row.ownedRoute = true := by
    intro row hrow
    exact (Bool.and_eq_true_iff.mp (List.mem_filter.mp hrow).2).2
  rw [removeOwnedRoutes]
  generalize table.filter (fun row => row.isOwned && selected row.ownedRoute) = rows at hrows
  induction rows generalizing table with
  | nil => rfl
  | cons row rows ih =>
    have hselected := hrows row List.mem_cons_self
    rw [List.foldl_cons, ih fun other hother => hrows other (List.mem_cons_of_mem row hother)]
    refine filter_deleteEntry fun other _ heq => h other ?_
    rw [heq]
    exact hselected

theorem filter_addRoute {p : ForwardRow → Bool} (h : p (ofRoute route) = false) :
    (table.addRoute route).filter p = table.filter p := by
  rw [addRoute]
  split_ifs
  · rfl
  · rw [List.filter_cons_of_neg (by simp [h])]

theorem filter_foldl_addRoute {p : ForwardRow → Bool} {routes : List OwnedRoute}
    (h : ∀ route ∈ routes, p (ofRoute route) = false) :
    (routes.foldl addRoute table).filter p = table.filter p := by
  induction routes generalizing table with
  | nil => rfl
  | cons route routes ih =>
    rw [List.foldl_cons, ih fun other hother => h other (List.mem_cons_of_mem route hother),
      filter_addRoute (h route List.mem_cons_self)]

/-- The next repair finds the default route of this one. -/
theorem defaultIpv4Route_repairRoutes (table : ForwardTable) (serverIp : Ipv4Addr)
    (underlay : Underlay) :
    (table.repairRoutes serverIp underlay).defaultIpv4Route = table.defaultIpv4Route := by
  have hhalves : ∀ half ∈ missingHalves table.ownedRoutes,
      decide ((ofRoute half).prefixLen = 0) = false := by
    intro half hhalf
    have hshape := (half_shape (mem_missingHalves.mp hhalf).1).1
    simp [ofRoute, hshape]
  have hserver : ∀ row : ForwardRow, isServerRoute row.ownedRoute serverIp = true →
      decide (row.prefixLen = 0) = false := by
    intro row hrow
    simp only [isServerRoute, Bool.and_eq_true, decide_eq_true_eq] at hrow
    have hprefixLen : row.prefixLen = 32 := hrow.2
    simp [hprefixLen]
  have hrows : (table.repairRoutes serverIp underlay).filter (fun row => row.prefixLen = 0) =
      table.filter fun row => row.prefixLen = 0 := by
    rw [repairRoutes, filter_foldl_addRoute hhalves]
    split_ifs
    · rw [filter_addRoute
        (hserver (ofRoute (serverRoute serverIp underlay)) isServerRoute_serverRoute),
        filter_removeOwnedRoutes hserver]
    · rfl
  rw [defaultIpv4Route, foldl_betterDefault_filter, hrows, ← foldl_betterDefault_filter,
    defaultIpv4Route]

end ForwardTable

open Program ForwardTable

variable {host : Host}

end MouseVpn.Windows
