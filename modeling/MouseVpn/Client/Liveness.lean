import MouseVpn.Lib.Machine
import Mathlib.Algebra.Order.Group.Nat

/-!
# Reconnect backoff

Both desktop clients keep the same five fields about their peer and differ in the two
intervals and in what a packet resets. The clock ticks `second` times a second; results
hold for every resolution, and the loop of the split tunnel is run in milliseconds.
-/

namespace MouseVpn.Client

open MouseVpn.Lib

inductive Action
  | none
  | keepalive
  | reconnect
  deriving DecidableEq, Repr

structure Liveness where
  peerActivity : ℕ
  heartbeat : ℕ
  retry : Option ℕ
  backoff : ℕ
  lost : Bool
  deriving DecidableEq, Repr

structure LivenessPolicy where
  keepaliveInterval : ℕ
  sessionTimeout : ℕ
  minReconnectBackoff : ℕ
  maxReconnectBackoff : ℕ
  /-- Whether a packet also ends the retries, and not only the silence. -/
  packetResetsRetry : Bool

def Linux.livenessPolicy (second : ℕ) : LivenessPolicy :=
  ⟨10 * second, 20 * second, 1 * second, 16 * second, true⟩

def Windows.livenessPolicy (second : ℕ) : LivenessPolicy :=
  ⟨3 * second, 9 * second, 1 * second, 16 * second, false⟩

namespace LivenessPolicy

variable (p : LivenessPolicy)

def new (now : ℕ) : Liveness := ⟨now, now, none, p.minReconnectBackoff, false⟩

def action (liveness : Liveness) (now : ℕ) : Action :=
  if p.sessionTimeout ≤ now - liveness.peerActivity ∧
      (liveness.retry.all fun last => decide (liveness.backoff ≤ now - last)) = true then .reconnect
  else if p.keepaliveInterval ≤ now - liveness.heartbeat then .keepalive
  else .none

def keepaliveSent (liveness : Liveness) (now : ℕ) : Liveness := { liveness with heartbeat := now }

def packetReceived (liveness : Liveness) (now : ℕ) : Liveness :=
  if p.packetResetsRetry then
    { liveness with
      peerActivity := now
      retry := none
      backoff := p.minReconnectBackoff
      lost := false }
  else
    { liveness with
      peerActivity := now
      lost := false }

def reconnectAttempted (liveness : Liveness) (now : ℕ) : Liveness :=
  { liveness with
    retry := some now
    backoff := min (liveness.backoff * 2) p.maxReconnectBackoff }

def networkUnavailable (liveness : Liveness) (now : ℕ) : Liveness :=
  { liveness with
    retry := some now
    backoff := p.minReconnectBackoff }

def connectionLost (liveness : Liveness) (now : ℕ) : Liveness × Bool :=
  if liveness.lost then (liveness, false)
  else
    ({ liveness with
        peerActivity := if p.sessionTimeout ≤ now then now - p.sessionTimeout else now
        retry := none
        lost := true }, true)

def reconnected (_ : Liveness) (now : ℕ) : Liveness := p.new now

inductive Call
  | keepaliveSent
  | packetReceived
  | reconnectAttempted
  | networkUnavailable
  | connectionLost
  | reconnected
  deriving DecidableEq, Repr

structure Event where
  now : ℕ
  call : Call
  deriving DecidableEq, Repr

def Event.attempt (event : Event) : Bool :=
  event.call = .reconnectAttempted || event.call = .networkUnavailable

def Event.answer (event : Event) : Bool :=
  event.call = .packetReceived || event.call = .reconnected

def step (liveness : Liveness) (event : Event) : Liveness × Unit :=
  match event.call with
  | .keepaliveSent => (keepaliveSent liveness event.now, ())
  | .packetReceived => (p.packetReceived liveness event.now, ())
  | .reconnectAttempted => (p.reconnectAttempted liveness event.now, ())
  | .networkUnavailable => (p.networkUnavailable liveness event.now, ())
  | .connectionLost => ((p.connectionLost liveness event.now).1, ())
  | .reconnected => (p.reconnected liveness event.now, ())

def run (liveness : Liveness) (events : List Event) : Liveness :=
  Machine.run p.step liveness events

/-- An attempt is made only at an instant at which `action` asks for it. -/
def Due (liveness : Liveness) (event : Event) : Prop :=
  event.attempt = true → p.action liveness event.now = .reconnect

end LivenessPolicy

end MouseVpn.Client
