import MouseVpn.Lib.Faults
import MouseVpn.Lib.RustStd

/-!
# The network policy of the full tunnel and its recovery journal

`NetworkGuard::install` writes a journal, creates firewall rules and routes, and writes the
journal again. Dropping the guard undoes the policy and removes the journal, and the next
start of the helper looks at the journal to see what an earlier process has left behind.
Every file operation, rule and route is one operation, which may fail or be the last one
before the process dies.
-/

namespace MouseVpn.Windows

open MouseVpn.Lib

structure RecoveryState where
  serverIp : Ipv4Addr
  firewallRules : Bool
  deriving DecidableEq, Repr

/-- The contents of a file: a text that `read_state` parses, where a missing
`firewall_rules` counts as true, or one that it does not. -/
inductive Contents
  | state (state : RecoveryState)
  | unreadable
  deriving DecidableEq, Repr

inductive Interface
  | tunnel
  | physical (index : ℕ)
  deriving DecidableEq, Repr

structure OwnedRoute where
  destination : Ipv4Addr
  prefixLen : ℕ
  interface : Interface
  nextHop : Ipv4Addr
  deriving DecidableEq, Repr

inductive Call
  | interfaceLuid
  | interfaceIndex
  | waitForIpv4Interface
  | killSwitchInstall
  | listAdapters
  | defaultIpv4Route
  | setTunnelAddress
  | setTunnelDns
  | setTunnelMetric
  | readRouteTable
  | resetTunnelDns
  | resetTunnelMetric
  | clearAddresses
  deriving DecidableEq, Repr

inductive Op
  | openTemporary
  | writeTemporary (state : RecoveryState)
  | syncTemporary
  | removeTemporary
  | removeJournal
  | renameTemporary
  | addRule (name : String)
  | removeRule (name : String)
  | addRoute (route : OwnedRoute)
  | removeRoute (route : OwnedRoute)
  | call (call : Call)
  deriving DecidableEq, Repr

/-- What outlives the process. The log holds the operations of the last process with their
outcomes, newest first. -/
structure Host where
  journal : Option Contents
  temporary : Option Contents
  rules : List String
  routes : List OwnedRoute
  log : List (Op × Bool)

namespace Host

def clean : Host := ⟨none, none, [], [], []⟩

/-- A failed write leaves a part of the text in the file, and any other failed operation
leaves everything as it was. -/
def change (op : Op) (ok : Bool) (host : Host) : Host :=
  match op, ok with
  | .openTemporary, true => { host with temporary := some .unreadable }
  | .writeTemporary state, true => { host with temporary := some (.state state) }
  | .writeTemporary _, false => { host with temporary := some .unreadable }
  | .removeTemporary, true => { host with temporary := none }
  | .removeJournal, true => { host with journal := none }
  | .renameTemporary, true => { host with journal := host.temporary, temporary := none }
  | .addRule name, true => { host with rules := name :: host.rules }
  | .removeRule name, true => { host with rules := host.rules.erase name }
  | .addRoute route, true => { host with routes := route :: host.routes.erase route }
  | .removeRoute route, true => { host with routes := host.routes.erase route }
  | _, _ => host

def apply (op : Op) (ok : Bool) (host : Host) : Host :=
  { host.change op ok with log := (op, ok) :: host.log }

end Host

abbrev Procedure := Program Op Host

open Program

def call (call : Call) : Procedure Bool := attempted (.call call)

def writeTemporaryAndRename (state : RecoveryState) : Procedure Bool :=
  (attempted .openTemporary).andThen <|
  (attempted (.writeTemporary state)).andThen <|
  (attempted .syncTemporary).andThen <|
  .inspect fun host =>
    if host.journal.isSome then (attempted .removeJournal).andThen (attempted .renameTemporary)
    else attempted .renameTemporary

def writeState (state : RecoveryState) : Procedure Bool :=
  (writeTemporaryAndRename state).bind fun ok =>
    if ok then .done true
    else (attempted .removeTemporary).bind fun _ => .done false

inductive Adapter
  | absent
  | unbound
  | bound
  deriving DecidableEq, Repr

def removeRoutes : List OwnedRoute → Procedure Bool
  | [] => .done true
  | route :: routes => (attempted (.removeRoute route)).both (removeRoutes routes)

def removeOwnedRoutes (selected : OwnedRoute → Bool) : Procedure Bool :=
  (call .readRouteTable).andThen <| .inspect fun host => removeRoutes (host.routes.filter selected)

/-- The pipeline into `Remove-NetFirewallRule` stops at the first error. -/
def removeRules : List String → Procedure Bool
  | [] => .done true
  | name :: names => (attempted (.removeRule name)).andThen (removeRules names)

def resetTunnel : Adapter → Procedure Bool
  | .bound => (call .resetTunnelDns).both ((call .resetTunnelMetric).both (call .clearAddresses))
  | _ => .done true

def cleanup (firewallRules : Bool) (adapter : Adapter) : Procedure Bool :=
  (resetTunnel adapter).both <|
  (removeOwnedRoutes fun _ => true).both <|
    if firewallRules then .inspect fun host => removeRules host.rules else .done true

inductive AppRoutingMode
  | exclude
  | includeOnly
  deriving DecidableEq, Repr

structure AppRoutingPolicy where
  mode : AppRoutingMode
  apps : List String
  packageSids : List String

def rulePair (ifIndex : ℕ) (suffix : String) : List String :=
  ["MouseVPN-KS-v4-" ++ ifIndex.repr ++ suffix, "MouseVPN-KS-v6-" ++ ifIndex.repr ++ suffix]

/-- The names of the rules that `firewall_script` creates, adapter by adapter. -/
def ruleNames (policy : AppRoutingPolicy) (physical : List ℕ) : List String :=
  physical.flatMap fun ifIndex =>
    match policy.mode with
    | .exclude => rulePair ifIndex ""
    | .includeOnly =>
      rulePair ifIndex "-dnscache" ++
      ((List.range policy.apps.length).flatMap fun i => rulePair ifIndex ("-" ++ i.repr)) ++
      ((List.range policy.packageSids.length).flatMap fun i =>
        rulePair ifIndex ("-package-" ++ (policy.apps.length + i).repr))

def addRules : List String → Procedure Bool
  | [] => .done true
  | name :: names => (attempted (.addRule name)).andThen (addRules names)

def installScript (policy : AppRoutingPolicy) (physical : List ℕ) : Procedure Bool :=
  (call .listAdapters).andThen (addRules (ruleNames policy physical))

def refreshScript (policy : AppRoutingPolicy) (physical : List ℕ) : Procedure Bool :=
  (call .listAdapters).andThen <| .inspect fun host =>
    addRules ((ruleNames policy physical).filter fun name => name ∉ host.rules)

structure Underlay where
  physical : List ℕ
  defaultInterface : ℕ
  nextHop : Ipv4Addr

def serverRoute (serverIp : Ipv4Addr) (underlay : Underlay) : OwnedRoute :=
  ⟨serverIp, 32, .physical underlay.defaultInterface, underlay.nextHop⟩

def tunnelHalves : List OwnedRoute :=
  [⟨⟨0, 0, 0, 0⟩, 1, .tunnel, ⟨0, 0, 0, 0⟩⟩, ⟨⟨128, 0, 0, 0⟩, 1, .tunnel, ⟨0, 0, 0, 0⟩⟩]

def addRoutes : List OwnedRoute → Procedure Bool
  | [] => .done true
  | route :: routes => (attempted (.addRoute route)).andThen (addRoutes routes)

def applyParameters : Procedure Bool := (call .setTunnelAddress).andThen (call .setTunnelDns)

/-- The part of `install_policy` behind the kill switch. -/
def installRoutes (serverIp : Ipv4Addr) (underlay : Underlay) : Procedure Bool :=
  (call .defaultIpv4Route).andThen <|
  applyParameters.andThen <|
  (call .setTunnelMetric).andThen <|
  addRoutes (serverRoute serverIp underlay :: tunnelHalves)

def finishPolicy (serverIp : Ipv4Addr) (underlay : Underlay) (killSwitch : Bool) :
    Procedure (Option Bool) :=
  (installRoutes serverIp underlay).bind fun ok => .done (if ok then some killSwitch else none)

def scriptedPolicy (serverIp : Ipv4Addr) (policy : AppRoutingPolicy) (underlay : Underlay) :
    Procedure (Option Bool) :=
  (installScript policy underlay.physical).bind fun ok =>
    if ok then finishPolicy serverIp underlay false else .done none

def installPolicy (serverIp : Ipv4Addr) (policy : AppRoutingPolicy) (underlay : Underlay) :
    Procedure (Option Bool) :=
  ((call .interfaceLuid).andThen (call .waitForIpv4Interface)).bind fun ok =>
    if ok then
      match policy.mode with
      | .exclude =>
        (call .killSwitchInstall).bind fun wfp =>
          if wfp then finishPolicy serverIp underlay true
          else scriptedPolicy serverIp policy underlay
      | .includeOnly => scriptedPolicy serverIp policy underlay
    else .done none

structure Session where
  serverIp : Ipv4Addr
  policy : AppRoutingPolicy
  underlay : Underlay
  adapterAtCleanup : Adapter
  refreshes : List Underlay

def install (session : Session) : Procedure (Option RecoveryState) :=
  (writeState ⟨session.serverIp, true⟩).bind fun ok =>
    if ok then
      (installPolicy session.serverIp session.policy session.underlay).bind fun
        | none =>
          (cleanup true session.adapterAtCleanup).bind fun clean =>
            if clean then (attempted .removeJournal).bind fun _ => .done none else .done none
        | some killSwitch =>
          let state : RecoveryState := ⟨session.serverIp, !killSwitch⟩
          (writeState state).bind fun ok => .done (if ok then some state else none)
    else .done none

def isServerRoute (route : OwnedRoute) (serverIp : Ipv4Addr) : Bool :=
  route.destination = serverIp && route.prefixLen = 32

def serverRouteIsStale (routes : List OwnedRoute) (serverIp : Ipv4Addr) (underlay : Underlay) :
    Bool :=
  let candidates := routes.filter fun route => isServerRoute route serverIp
  let matching := candidates.filter fun route =>
    route.interface = .physical underlay.defaultInterface && route.nextHop = underlay.nextHop
  candidates.length ≠ 1 || matching.length ≠ 1

def missingHalves (routes : List OwnedRoute) : List OwnedRoute :=
  tunnelHalves.filter fun half => !routes.any fun route =>
    route.destination = half.destination && route.prefixLen = 1 && route.interface = .tunnel

def repairRoutes (serverIp : Ipv4Addr) (underlay : Underlay) : Procedure Bool :=
  (call .interfaceIndex).andThen <|
  (call .defaultIpv4Route).andThen <|
  (call .readRouteTable).andThen <| .inspect fun host =>
    (if serverRouteIsStale host.routes serverIp underlay then
      (removeOwnedRoutes fun route => isServerRoute route serverIp).andThen
        (attempted (.addRoute (serverRoute serverIp underlay)))
    else .done true).andThen (addRoutes (missingHalves host.routes))

def refresh (session : Session) (state : RecoveryState) (underlay : Underlay) : Procedure Bool :=
  (call .interfaceLuid).andThen <|
  (repairRoutes session.serverIp underlay).andThen <|
    if state.firewallRules then refreshScript session.policy underlay.physical else .done true

def refreshAll (session : Session) (state : RecoveryState) : List Underlay → Procedure Unit
  | [] => .done ()
  | underlay :: rest => (refresh session state underlay).bind fun _ => refreshAll session state rest

/-- `Drop for NetworkGuard`. -/
def dropGuard (state : RecoveryState) (adapter : Adapter) : Procedure Unit :=
  (cleanup state.firewallRules adapter).bind fun clean =>
    if clean then (attempted .removeJournal).bind fun _ => .done () else .done ()

def recoverStaleState (adapter : Adapter) : Procedure Bool :=
  .inspect fun host =>
    match host.journal with
    | some (.state state) =>
      (cleanup state.firewallRules adapter).andThen (attempted .removeJournal)
    | some .unreadable => (cleanup true adapter).andThen (attempted .removeJournal)
    | none => if adapter = .absent then .done true else cleanup false adapter

def repair (adapter : Adapter) : Procedure Bool :=
  (cleanup true adapter).andThen <| .inspect fun host =>
    if host.journal.isSome then attempted .removeJournal else .done true

/-- `run_with_stop`, as far as the network policy is concerned. -/
def runWithStop (adapter : Adapter) (session : Session) : Procedure Unit :=
  (recoverStaleState adapter).bind fun recovered =>
    if recovered then
      (install session).bind fun
        | none => .done ()
        | some state =>
          (refreshAll session state session.refreshes).bind fun _ =>
            dropGuard state session.adapterAtCleanup
    else .done ()

end MouseVpn.Windows
