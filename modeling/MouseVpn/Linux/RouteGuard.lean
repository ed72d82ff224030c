import MouseVpn.Lib.Machine
import MouseVpn.Lib.RustStd

/-!
# Routes of the Linux client

`RouteGuard` adds a host route to the server and two halves of the default route, and
deletes them when it is dropped. The kernel's table is part of the state: it holds routes
in the form in which they are listed, and `resolve` gives that form of a route as the
guard writes it, with the other name of the interface filled in. A call of the route
manager that fails changes nothing.
-/

namespace MouseVpn.Linux

open MouseVpn.Lib

structure Route where
  destination : IpAddr
  prefixLen : UInt8
  gateway : Option IpAddr
  ifName : Option String
  ifIndex : Option UInt32
  metric : Option UInt32
  deriving DecidableEq, Repr

inductive RouteError
  | manager (code : ℤ)
  | notFound (message : String)
  | alreadyExists (message : String)
  deriving DecidableEq, Repr

def serverRouteMetric : UInt32 := 4242

def unspecified : IpAddr := .v4 ⟨0, 0, 0, 0⟩

namespace Route

def new (destination : IpAddr) (prefixLen : UInt8) : Route :=
  ⟨destination, prefixLen, none, none, none, none⟩

def withIfName (route : Route) (name : String) : Route := { route with ifName := some name }

def isDefault (route : Route) : Bool :=
  route.destination = unspecified && route.prefixLen = 0

def priority (route : Route) : UInt32 := route.metric.getD (UInt32.ofNat (2 ^ 32 - 1))

end Route

/-- `min_by_key`: the first of the smallest elements. -/
def bestRoute : List Route → Option Route
  | [] => none
  | route :: routes =>
    match bestRoute routes with
    | none => some route
    | some best => if best.priority < route.priority then some best else some route

def serverRoute (server : Ipv4Addr) (routes : List Route) : Except RouteError Route :=
  match bestRoute (routes.filter Route.isDefault) with
  | none => .error (.notFound "IPv4 default route not found")
  | some best =>
    let route := { Route.new (.v4 server) 32 with
      metric := some serverRouteMetric
      gateway := best.gateway }
    match best.ifIndex, best.ifName with
    | some index, _ => .ok { route with ifIndex := some index }
    | none, some name => .ok { route with ifName := some name }
    | none, none => .ok route

def sameServerPath (left right : Route) : Bool :=
  left.destination = right.destination && left.prefixLen = right.prefixLen &&
    left.gateway = right.gateway &&
    (match left.ifIndex, right.ifIndex with
      | some left, some right => decide (left = right)
      | none, none => decide (left.ifName = right.ifName)
      | _, _ => left.ifName.isSome && decide (left.ifName = right.ifName)) &&
    left.metric = right.metric

def hasFullTunnel (routes : List Route) : Bool :=
  routes.any fun route => route.prefixLen = 1 &&
    (route.destination = unspecified || route.destination = .v4 ⟨128, 0, 0, 0⟩)

def rejectFullTunnel (routes : List Route) : Except RouteError Unit :=
  if hasFullTunnel routes then
    .error (.alreadyExists
      "another full-tunnel VPN appears to be active; disconnect it before starting MouseVPN")
  else .ok ()

structure Routing where
  kernel : List Route
  serverIp : Ipv4Addr
  serverRoute : Option Route
  tunnelRoutes : List Route
  added : List Route
  deriving DecidableEq, Repr

namespace Routing

variable (resolve : Route → Route)

def add (st : Routing) (route : Route) (outcome : Except RouteError Unit) :
    Routing × Except RouteError Unit :=
  match outcome with
  | .error e => (st, .error e)
  | .ok () =>
    ({ st with
        kernel := st.kernel ++ [resolve route]
        added := st.added ++ [resolve route] }, .ok ())

def delete (st : Routing) (route : Route) (outcome : Except RouteError Unit) :
    Routing × Except RouteError Unit :=
  match outcome with
  | .error e => (st, .error e)
  | .ok () => ({ st with kernel := st.kernel.filter (· ≠ resolve route) }, .ok ())

def addTunnelRoute (st : Routing) (route : Route) (outcome : Except RouteError Unit) :
    Routing × Except RouteError Unit :=
  match st.add resolve route outcome with
  | (st, .error e) => (st, .error e)
  | (st, .ok ()) => ({ st with tunnelRoutes := st.tunnelRoutes ++ [route] }, .ok ())

structure InstallOutcomes where
  opened : Except RouteError Unit
  listed : Except RouteError Unit
  addServer : Except RouteError Unit
  addFirst : Except RouteError Unit
  addSecond : Except RouteError Unit

def install (kernel : List Route) (server : Ipv4Addr) (tunName : String) (o : InstallOutcomes) :
    Routing × Except RouteError Unit :=
  let guard : Routing := ⟨kernel, server, none, [], []⟩
  match o.opened with
  | .error e => (guard, .error e)
  | .ok () =>
    match o.listed with
    | .error e => (guard, .error e)
    | .ok () =>
      match rejectFullTunnel kernel with
      | .error e => (guard, .error e)
      | .ok () =>
        match Linux.serverRoute server kernel with
        | .error e => (guard, .error e)
        | .ok route =>
          let firstHalf := (Route.new unspecified 1).withIfName tunName
          let secondHalf := (Route.new (.v4 ⟨128, 0, 0, 0⟩) 1).withIfName tunName
          match guard.add resolve route o.addServer with
          | (guard, .error e) => (guard, .error e)
          | (guard, .ok ()) =>
            let guard := { guard with serverRoute := some route }
            match guard.addTunnelRoute resolve firstHalf o.addFirst with
            | (guard, .error e) => (guard, .error e)
            | (guard, .ok ()) => guard.addTunnelRoute resolve secondHalf o.addSecond

structure RefreshOutcomes where
  listed : Except RouteError Unit
  delete : Except RouteError Unit
  add : Except RouteError Unit
  restore : Except RouteError Unit

def deletePrevious (st : Routing) (previous : Option Route) (outcome : Except RouteError Unit) :
    Routing × Except RouteError Unit :=
  match previous.filter fun previous => st.kernel.any (sameServerPath · previous) with
  | some route => st.delete resolve route outcome
  | none => (st, .ok ())

def replaceServerRoute (st : Routing) (previous : Option Route) (replacement : Route)
    (o : RefreshOutcomes) : Routing × Except RouteError Unit :=
  match st.add resolve replacement o.add with
  | (st, .ok ()) => ({ st with serverRoute := some replacement }, .ok ())
  | (st, .error e) =>
    match previous with
    | none => (st, .error e)
    | some route =>
      match st.add resolve route o.restore with
      | (st, .ok ()) => ({ st with serverRoute := some route }, .error e)
      | (st, .error _) => (st, .error e)

def refreshServerRoute (st : Routing) (o : RefreshOutcomes) : Routing × Except RouteError Unit :=
  match o.listed with
  | .error e => (st, .error e)
  | .ok () =>
    match Linux.serverRoute st.serverIp st.kernel with
    | .error e => (st, .error e)
    | .ok replacement =>
      if st.kernel.any (sameServerPath · replacement) then
        ({ st with serverRoute := some replacement }, .ok ())
      else
        let previous := st.serverRoute
        let st := { st with serverRoute := none }
        match st.deletePrevious resolve previous o.delete with
        | (st, .error e) => (st, .error e)
        | (st, .ok ()) => st.replaceServerRoute resolve previous replacement o

/-- `Drop`, when every delete succeeds. -/
def dropGuard (st : Routing) : Routing :=
  let st := st.tunnelRoutes.reverse.foldl (fun st route => (st.delete resolve route (.ok ())).1) st
  match st.serverRoute with
  | none => st
  | some route => (st.delete resolve route (.ok ())).1

inductive Event
  | refresh (outcomes : RefreshOutcomes)
  | vanish (route : Route)

def step (st : Routing) (event : Event) : Routing × Unit :=
  match event with
  | .refresh outcomes => ((st.refreshServerRoute resolve outcomes).1, ())
  | .vanish route => ({ st with kernel := st.kernel.filter (· ≠ route) }, ())

def run (st : Routing) (events : List Event) : Routing := Machine.run (step resolve) st events

end Routing

end MouseVpn.Linux
