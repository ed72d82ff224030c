import MouseVpn.Lib.Machine
import MouseVpn.Protocol.SessionParameters

/-!
# The parameters of the tunnel across restarts

Three places remember the parameters of the session: the packet loop, the network guard and the
loop around the packet loop. A reconnect inside the packet loop tells the guard but not the loop
around it, whose copy then decides at the next restart whether the guard has to be told.
-/

namespace MouseVpn.Windows

open MouseVpn.Lib MouseVpn.Protocol

/-- What the tunnel interface has. -/
structure TunnelSettings where
  mtu : UInt16
  address : Option (Ipv4Addr × UInt8)
  dns : Ipv4Addr
  deriving DecidableEq, Repr

/-- `set_tunnel_address` clears the old addresses before it adds the new one. -/
inductive AddressCall
  | assigned
  | kept
  | cleared
  deriving DecidableEq, Repr

structure ApplyCalls where
  address : AddressCall
  dns : Bool
  deriving DecidableEq, Repr

/-- The results of the calls of an update. `fallback` and `restoreMtu` are made after a failure. -/
structure UpdateCalls where
  setMtu : Bool
  apply : ApplyCalls
  fallback : ApplyCalls
  restoreMtu : Bool
  deriving DecidableEq, Repr

def ApplyCalls.ok (calls : ApplyCalls) : Bool := calls.address = .assigned && calls.dns

def TunnelSettings.applyParameters (tunnel : TunnelSettings) (parameters : SessionParameters)
    (calls : ApplyCalls) : TunnelSettings :=
  match calls.address with
  | .assigned =>
    { tunnel with
      address := some (parameters.clientAddress, parameters.prefixLen)
      dns := if calls.dns then parameters.dns else tunnel.dns }
  | .kept => tunnel
  | .cleared => { tunnel with address := none }

structure Runtime where
  tunnel : TunnelSettings
  /-- `NetworkGuard::parameters`. -/
  guarded : SessionParameters
  /-- `parameters` of `run_with_stop`. -/
  outer : SessionParameters
  /-- `IncomingLoop::parameters`, which are those of the session in use. -/
  inner : SessionParameters
  running : Bool

namespace Runtime

def start (parameters : SessionParameters) : Runtime where
  tunnel :=
    { mtu := parameters.mtu
      address := some (parameters.clientAddress, parameters.prefixLen)
      dns := parameters.dns }
  guarded := parameters
  outer := parameters
  inner := parameters
  running := true

def withMtu (st : Runtime) (mtu : UInt16) : Runtime := { st with tunnel := { st.tunnel with mtu } }

def updateParameters (st : Runtime) (next : SessionParameters) (calls : UpdateCalls) :
    Runtime × Bool :=
  if next = st.guarded then (st, true)
  else if calls.apply.ok then
    ({ st with tunnel := st.tunnel.applyParameters next calls.apply, guarded := next }, true)
  else
    ({ st with
        tunnel := (st.tunnel.applyParameters next calls.apply).applyParameters st.guarded
          calls.fallback }, false)

/-- `IncomingLoop::establish_replacement` after its handshake. -/
def replace (st : Runtime) (next : SessionParameters) (calls : UpdateCalls) : Runtime :=
  if next = st.inner then st
  else if !calls.setMtu then st
  else
    match (st.withMtu next.mtu).updateParameters next calls with
    | (st', true) => { st' with inner := next }
    | (st', false) => if calls.restoreMtu then st'.withMtu st.inner.mtu else st'

/-- A restart in `run_with_stop` after its handshake. Its session may fail to start. -/
def restart (st : Runtime) (next : SessionParameters) (calls : UpdateCalls) (starts : Bool) :
    Runtime :=
  if !calls.setMtu then st
  else if !starts then st.withMtu next.mtu
  else if next = st.outer then { st.withMtu next.mtu with inner := next, running := true }
  else
    match (st.withMtu next.mtu).updateParameters next calls with
    | (st', true) => { st' with outer := next, inner := next, running := true }
    | (st', false) => if calls.restoreMtu then st'.withMtu st.outer.mtu else st'

inductive Event
  | replace (next : SessionParameters) (calls : UpdateCalls)
  | loopEnds
  | restart (next : SessionParameters) (calls : UpdateCalls) (starts : Bool)
  deriving DecidableEq, Repr

def step (st : Runtime) (event : Event) : Runtime × Unit :=
  match event, st.running with
  | .replace next calls, true => (st.replace next calls, ())
  | .loopEnds, true => ({ st with running := false }, ())
  | .restart next calls starts, false => (st.restart next calls starts, ())
  | _, _ => (st, ())

def run (st : Runtime) (events : List Event) : Runtime := Machine.run step st events

def Addressed (tunnel : TunnelSettings) (parameters : SessionParameters) : Prop :=
  tunnel.address = some (parameters.clientAddress, parameters.prefixLen) ∧
    tunnel.dns = parameters.dns

/-- A packet loop runs on a tunnel that has the parameters of its session. -/
def Matches (st : Runtime) : Prop :=
  st.running = true → st.tunnel.mtu = st.inner.mtu ∧ Addressed st.tunnel st.inner

/-- The tunnel has the addresses that the guard remembers. -/
def Synced (st : Runtime) : Prop := Addressed st.tunnel st.guarded

/-- What is done after a failure works. -/
def Recovers : Event → Prop
  | .replace _ calls => calls.fallback.ok = true ∧ calls.restoreMtu = true
  | .loopEnds => True
  | .restart _ calls _ => calls.fallback.ok = true ∧ calls.restoreMtu = true

def SameAddressing (parameters next : SessionParameters) : Prop :=
  parameters.clientAddress = next.clientAddress ∧ parameters.prefixLen = next.prefixLen ∧
    parameters.dns = next.dns

/-- A restart gets the parameters that the loop remembers while the guard has moved on. -/
def Returns (st : Runtime) : Event → Prop
  | .restart next calls starts =>
    st.running = false ∧ calls.setMtu = true ∧ starts = true ∧ next = st.outer ∧
      ¬ SameAddressing st.guarded next
  | _ => False

variable {st : Runtime} {next : SessionParameters} {calls : UpdateCalls}

theorem Synced.addressed_iff (h : st.Synced) :
    Addressed st.tunnel next ↔ SameAddressing st.guarded next := by
  rw [Addressed, h.1, h.2, Option.some.injEq, Prod.mk.injEq, and_assoc]
  rfl

theorem mtu_apply (applied : ApplyCalls) (tunnel : TunnelSettings) :
    (tunnel.applyParameters next applied).mtu = tunnel.mtu := by
  obtain ⟨_ | _ | _, dns⟩ := applied <;> rfl

theorem addressed_apply {applied : ApplyCalls} (h : applied.ok = true) (tunnel : TunnelSettings) :
    Addressed (tunnel.applyParameters next applied) next := by
  obtain ⟨_ | _ | _, _ | _⟩ := applied <;>
    simp_all [ApplyCalls.ok, TunnelSettings.applyParameters, Addressed]

/-- Whether or not the new parameters could be applied, the tunnel has those of the guard. -/
theorem updateParameters_spec (hfallback : calls.fallback.ok = true) (hsynced : st.Synced) :
    ∃ tunnel, tunnel.mtu = st.tunnel.mtu ∧
      (Addressed tunnel next ∧ st.updateParameters next calls =
          ({ st with tunnel := tunnel, guarded := next }, true) ∨
        Addressed tunnel st.guarded ∧ st.updateParameters next calls =
          ({ st with tunnel := tunnel }, false)) := by
  unfold updateParameters
  split_ifs with hsame hok
  · subst hsame
    exact ⟨st.tunnel, rfl, .inl ⟨hsynced, rfl⟩⟩
  · exact ⟨_, mtu_apply _ _, .inl ⟨addressed_apply hok _, rfl⟩⟩
  · exact ⟨_, (mtu_apply _ _).trans (mtu_apply _ _), .inr ⟨addressed_apply hfallback _, rfl⟩⟩

theorem Addressed.trans {tunnel tunnel' : TunnelSettings} {a b : SessionParameters}
    (ha : Addressed tunnel a) (hb : Addressed tunnel b) (h : Addressed tunnel' a) :
    Addressed tunnel' b :=
  ⟨h.1.trans (ha.1.symm.trans hb.1), h.2.trans (ha.2.symm.trans hb.2)⟩

theorem replace_synced (hfallback : calls.fallback.ok = true) (hsynced : st.Synced) :
    (st.replace next calls).Synced := by
  have hsynced' : (st.withMtu next.mtu).Synced := hsynced
  unfold replace
  obtain ⟨tunnel, -, ⟨haddressed, heq⟩ | ⟨haddressed, heq⟩⟩ :=
    updateParameters_spec hfallback hsynced' <;> rw [heq] <;> split_ifs
  all_goals first | exact hsynced | exact haddressed

theorem replace_matches (hfallback : calls.fallback.ok = true) (hrestore : calls.restoreMtu = true)
    (hsynced : st.Synced) (hmtu : st.tunnel.mtu = st.inner.mtu)
    (hinner : Addressed st.tunnel st.inner) : (st.replace next calls).Matches := by
  have hsynced' : (st.withMtu next.mtu).Synced := hsynced
  unfold replace
  split_ifs
  · exact fun _ => ⟨hmtu, hinner⟩
  · exact fun _ => ⟨hmtu, hinner⟩
  obtain ⟨tunnel, hsame, ⟨haddressed, heq⟩ | ⟨haddressed, heq⟩⟩ :=
    updateParameters_spec hfallback hsynced'
  · rw [heq]
    exact fun _ => ⟨hsame, haddressed⟩
  · rw [heq]
    exact fun _ => ⟨rfl, hsynced.trans hinner haddressed⟩

theorem restart_spec {starts : Bool} (hfallback : calls.fallback.ok = true)
    (hrestore : calls.restoreMtu = true) (hsynced : st.Synced) (hstopped : st.running = false) :
    (st.restart next calls starts).Synced ∧
      ((st.restart next calls starts).Matches ↔ ¬ st.Returns (.restart next calls starts)) := by
  have hsynced' : (st.withMtu next.mtu).Synced := hsynced
  unfold restart
  split_ifs with hset hstarts houter
  · exact ⟨hsynced, by simp_all [Matches, Returns]⟩
  · exact ⟨hsynced, by simp_all [Matches, Returns, withMtu]⟩
  · refine ⟨hsynced, ?_⟩
    have hset : calls.setMtu = true := by simpa using hset
    have hstarts : starts = true := by simpa using hstarts
    have haddressed :
        Addressed (st.withMtu next.mtu).tunnel next ↔ SameAddressing st.guarded next :=
      hsynced'.addressed_iff
    simpa [Matches, Returns, withMtu, hset, hstarts, hstopped, houter] using haddressed
  obtain ⟨tunnel, hsame, ⟨haddressed, heq⟩ | ⟨haddressed, heq⟩⟩ :=
    updateParameters_spec hfallback hsynced'
  · rw [heq]
    refine ⟨haddressed, iff_of_true (fun _ => ⟨hsame, haddressed⟩) ?_⟩
    simp [Returns, houter]
  · rw [heq]
    exact ⟨haddressed, by simp [Matches, Returns, withMtu, hstopped, houter]⟩

theorem step_synced {event : Event} (hrecovers : Recovers event) (hsynced : st.Synced) :
    (st.step event).1.Synced := by
  cases hrunning : st.running <;> cases event <;> simp only [step, hrunning]
  case false.restart => exact (restart_spec hrecovers.1 hrecovers.2 hsynced hrunning).1
  case true.replace => exact replace_synced hrecovers.1 hsynced
  all_goals exact hsynced

theorem step_matches_iff {event : Event} (hrecovers : Recovers event) (hsynced : st.Synced)
    (hmatches : st.Matches) : (st.step event).1.Matches ↔ ¬ st.Returns event := by
  cases hrunning : st.running <;> cases event <;> simp only [step, hrunning]
  case false.restart => exact (restart_spec hrecovers.1 hrecovers.2 hsynced hrunning).2
  case true.replace =>
    obtain ⟨hmtu, hinner⟩ := hmatches hrunning
    exact iff_of_true (replace_matches hrecovers.1 hrecovers.2 hsynced hmtu hinner) id
  case true.loopEnds => simp [Matches, Returns]
  all_goals exact iff_of_true hmatches (by simp [Returns, hrunning])

/-- The packet loop always runs on a tunnel with the parameters of its session, unless a restart
gets back the parameters from before a reconnect inside the packet loop. -/
theorem tunnel_matches_iff (parameters : SessionParameters) {events : List Event}
    (hrecovers : ∀ event ∈ events, Recovers event) :
    (∀ pre post, events = pre ++ post → ((start parameters).run pre).Matches) ↔
      Machine.Obeys step (fun st event => ¬ st.Returns event) (start parameters) events := by
  have hall : Machine.Obeys step (fun _ event => Recovers event) (start parameters) events :=
    (Machine.obeys_forall_iff step _).mpr hrecovers
  have hsynced : ∀ pre post, events = pre ++ post → ((start parameters).run pre).Synced := by
    rintro pre post rfl
    exact Machine.run_invariant_of_obeys step Synced (fun _ _ h hr => step_synced hr h)
      ⟨rfl, rfl⟩ ((Machine.obeys_append step).mp hall).1
  rw [Machine.obeys_iff_invariant_of_obeys step (fun st => st.Synced ∧ st.Matches) ?_
    ⟨⟨rfl, rfl⟩, fun _ => ⟨rfl, rfl, rfl⟩⟩ hall]
  · exact forall₃_congr fun pre post h => (and_iff_right (hsynced pre post h)).symm
  · intro st event ⟨hst, hmatches⟩ hr
    rw [and_iff_right (step_synced hr hst)]
    exact step_matches_iff hr hst hmatches

/-- The server moves the device to another address and back, the second time over a restart. -/
def movedBack (first second : SessionParameters) (calls : UpdateCalls) : List Event :=
  [.replace second calls, .loopEnds, .restart first calls true]

theorem moved_back_mismatch :
    let worked : UpdateCalls := ⟨true, ⟨.assigned, true⟩, ⟨.assigned, true⟩, true⟩
    let first : SessionParameters := ⟨⟨10, 0, 0, 2⟩, 24, 1280, ⟨10, 0, 0, 1⟩⟩
    let second : SessionParameters := ⟨⟨10, 0, 0, 3⟩, 24, 1280, ⟨10, 0, 0, 1⟩⟩
    ¬ ∀ pre post, movedBack first second worked = pre ++ post →
      ((start first).run pre).Matches := by
  intro worked first second
  rw [tunnel_matches_iff first (by simp [movedBack, Recovers, worked, ApplyCalls.ok])]
  intro h
  exact h.2.2.1 ⟨rfl, rfl, rfl, rfl, fun haddressed => absurd haddressed.1 (by decide)⟩

end Runtime

end MouseVpn.Windows
