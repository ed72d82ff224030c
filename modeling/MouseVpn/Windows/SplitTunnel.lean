import MouseVpn.Client.Liveness

/-!
# The threads of the split tunnel

The receive loop owns the session. When its server is silent it connects anew, replaces the shared
sender and its own receiver, and hands a clone of the new socket to the capture thread through a
channel with room for one. The capture thread parks in the driver, and looks into the channel only
when a packet for the tunnel arrives. The keepalives of the receive loop are encoded under the
shared sender too, and leave on the loop's own socket. A socket is named by the session it was
made for.
-/

namespace MouseVpn.Windows.SplitTunnel

open MouseVpn.Lib
open MouseVpn.Client (Liveness LivenessPolicy)

def policy : LivenessPolicy := Client.Windows.livenessPolicy 1000

inductive LoopPhase
  /-- `stopping` is read next. -/
  | checking
  | receiving
  | maintaining
  /-- `establish` reads the addresses and connects next. -/
  | establishing
  /-- There is a new session, and the shared sender is replaced next. -/
  | connected
  /-- `self.receiver` is replaced next. -/
  | senderReplaced
  | sending
  /-- `self.transport` is replaced next. -/
  | queued
  | returned (ok : Bool)
  deriving DecidableEq, Repr

inductive CapturePhase
  /-- `stopping` is read next. -/
  | checking
  /-- Parked in `recv_batch`. -/
  | receiving
  /-- The sink has a packet, and receives from the channel next. More packets of the batch
  follow. -/
  | draining (rest : ℕ)
  | drained (rest : ℕ)
  | encoded (session : ℕ) (rest : ℕ)
  | returned (ok : Bool)
  deriving DecidableEq, Repr

structure State where
  stopping : Bool
  shutdown : Bool
  liveness : Liveness
  session : ℕ
  sender : ℕ
  receiver : ℕ
  transport : ℕ
  channel : List ℕ
  loop : LoopPhase
  capture : CapturePhase
  captureTransport : ℕ
  deriving DecidableEq, Repr

/-- What `transport.receive` gives and `deliver` makes of it. -/
inductive Received
  | accepted
  | rejected
  | transient
  | peerUnavailable
  | failed
  deriving DecidableEq, Repr

/-- What becomes of a keepalive. One that is not encoded does not reach the socket. -/
inductive Sent
  | ok
  | unencoded
  | peerUnavailable
  | failed
  deriving DecidableEq, Repr

/-- What `recv_batch` gives: a batch with some packets for the tunnel, the end, or an error. -/
inductive Captured
  | batch (tunnelled : ℕ)
  | shutdown
  | failed
  deriving DecidableEq, Repr

inductive Event
  | stop
  | checkStopping
  | receive (received : Received) (now : ℕ)
  | maintain (now : ℕ) (sent : Sent)
  | connect (ok : Bool)
  | replaceSender
  | replaceReceiver
  | sendTransport
  | replaceTransport (now : ℕ)
  /-- `run_split_tunnel` after the receive loop has returned. -/
  | shutdownDiverter
  | captureCheckStopping
  | captureReceive (captured : Captured)
  | tryRecv
  | encode (ok : Bool)
  | sendDatagram (encoded : Bool)
  deriving DecidableEq, Repr

structure Datagram where
  session : ℕ
  socket : ℕ
  deriving DecidableEq, Repr

def transportCapacity : ℕ := 1

namespace State

def start (now : ℕ) : State :=
  ⟨false, false, policy.new now, 1, 1, 1, 1, [], .checking, .checking, 1⟩

def captureReturned (st : State) : Bool :=
  match st.capture with
  | .returned _ => true
  | _ => false

def checkStopping (st : State) : State :=
  match st.loop with
  | .checking => { st with loop := if st.stopping then .returned true else .receiving }
  | _ => st

def receive (st : State) (received : Received) (now : ℕ) : State :=
  match st.loop, received with
  | .receiving, .accepted =>
    { st with
      liveness := policy.packetReceived st.liveness now
      loop := .maintaining }
  | .receiving, .peerUnavailable =>
    { st with
      liveness := (policy.connectionLost st.liveness now).1
      loop := .maintaining }
  | .receiving, .failed => { st with loop := .returned false }
  | .receiving, _ => { st with loop := .maintaining }
  | _, _ => st

def keepalive (st : State) (now : ℕ) : Sent → State × Option Datagram
  | .ok =>
    ({ st with
      liveness := LivenessPolicy.keepaliveSent st.liveness now
      loop := .checking }, some ⟨st.sender, st.transport⟩)
  | .unencoded => ({ st with loop := .returned false }, none)
  | .peerUnavailable =>
    ({ st with
      liveness := (policy.connectionLost st.liveness now).1
      loop := .checking }, some ⟨st.sender, st.transport⟩)
  | .failed => ({ st with loop := .returned false }, some ⟨st.sender, st.transport⟩)

def maintain (st : State) (now : ℕ) (sent : Sent) : State × Option Datagram :=
  match st.loop, policy.action st.liveness now with
  | .maintaining, .none => ({ st with loop := .checking }, none)
  | .maintaining, .keepalive => st.keepalive now sent
  | .maintaining, .reconnect =>
    ({ st with
      liveness := policy.reconnectAttempted st.liveness now
      loop := .establishing }, none)
  | _, _ => (st, none)

def connect (st : State) (ok : Bool) : State :=
  match st.loop with
  | .establishing =>
    if ok then
      { st with
        session := st.session + 1
        loop := .connected }
    else { st with loop := .checking }
  | _ => st

def replaceSender (st : State) : State :=
  match st.loop with
  | .connected =>
    { st with
      sender := st.session
      loop := .senderReplaced }
  | _ => st

def replaceReceiver (st : State) : State :=
  match st.loop with
  | .senderReplaced =>
    { st with
      receiver := st.session
      loop := .sending }
  | _ => st

/-- `send` fails when the other end is gone, and waits while there is no room. -/
def sendTransport (st : State) : State :=
  match st.loop with
  | .sending =>
    if st.captureReturned then { st with loop := .checking }
    else if st.channel.length < transportCapacity then
      { st with
        channel := st.channel ++ [st.session]
        loop := .queued }
    else st
  | _ => st

def replaceTransport (st : State) (now : ℕ) : State :=
  match st.loop with
  | .queued =>
    { st with
      transport := st.session
      liveness := policy.reconnected st.liveness now
      loop := .checking }
  | _ => st

def shutdownDiverter (st : State) : State :=
  match st.loop with
  | .returned _ =>
    { st with
      stopping := true
      shutdown := true }
  | _ => st

def captureCheckStopping (st : State) : State :=
  match st.capture with
  | .checking => { st with capture := if st.stopping then .returned true else .receiving }
  | _ => st

def nextPacket : ℕ → CapturePhase
  | 0 => .checking
  | rest + 1 => .draining rest

def captureReceive (st : State) (captured : Captured) : State :=
  match st.capture, captured with
  | .receiving, .batch tunnelled => { st with capture := nextPacket tunnelled }
  | .receiving, .shutdown => if st.shutdown then { st with capture := .returned true } else st
  | .receiving, .failed => { st with capture := .returned false }
  | _, _ => st

def tryRecv (st : State) : State :=
  match st.capture, st.channel with
  | .draining rest, [] => { st with capture := .drained rest }
  | .draining _, transport :: channel =>
    { st with
      captureTransport := transport
      channel := channel }
  | _, _ => st

def encode (st : State) (ok : Bool) : State :=
  match st.capture with
  | .drained rest =>
    { st with capture := if ok then .encoded st.sender rest else nextPacket rest }
  | _ => st

def sendDatagram (st : State) (encoded : Bool) : State × Option Datagram :=
  match st.capture with
  | .encoded session rest =>
    ({ st with capture := nextPacket rest },
      if encoded then some ⟨session, st.captureTransport⟩ else none)
  | _ => (st, none)

def step (st : State) : Event → State × Option Datagram
  | .stop => ({ st with stopping := true }, none)
  | .checkStopping => (st.checkStopping, none)
  | .receive received now => (st.receive received now, none)
  | .maintain now sent => st.maintain now sent
  | .connect ok => (st.connect ok, none)
  | .replaceSender => (st.replaceSender, none)
  | .replaceReceiver => (st.replaceReceiver, none)
  | .sendTransport => (st.sendTransport, none)
  | .replaceTransport now => (st.replaceTransport now, none)
  | .shutdownDiverter => (st.shutdownDiverter, none)
  | .captureCheckStopping => (st.captureCheckStopping, none)
  | .captureReceive captured => (st.captureReceive captured, none)
  | .tryRecv => (st.tryRecv, none)
  | .encode ok => (st.encode ok, none)
  | .sendDatagram encoded => st.sendDatagram encoded

def run (st : State) (events : List Event) : State := Machine.run step st events

def datagrams (st : State) (events : List Event) : List Datagram :=
  (Machine.outputs step st events).reduceOption

end State

end MouseVpn.Windows.SplitTunnel
