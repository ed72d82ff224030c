import MouseVpn.Lib.Handover
import MouseVpn.Linux.Outgoing
import MouseVpn.Windows.SplitTunnel

/-!
# Switching the session and the socket together

In both clients a reconnect hands the worker a sender under a lock and a socket through a queue.
Seen from there, each step of the threads is one act of a handover. A datagram of a session goes
out on a socket of the session exactly if the worker takes the socket before it sends, and
neither client makes sure of that. The keepalives leave on the socket of the loop itself. The Linux
loop ends before it sends one on a socket that it could not replace; the Windows loop goes on, and
there the loop's socket has to be replaced in time as well.
-/

namespace MouseVpn

open Lib

namespace Linux.Outgoing

def WorkerPhase.encodedSession : WorkerPhase → Option ℕ
  | .encoded session => some session
  | _ => none

def Datagram.message (datagram : Datagram) : Handover.Message := ⟨datagram.session, datagram.socket⟩

namespace State

def handover (st : State) : Handover.State :=
  ⟨st.sender, st.channel, st.workerTransport, st.worker.encodedSession, st.transport⟩

def act (st : State) : Event → Handover.Act
  | .replaceSender => if st.loop = .connected then .replace st.session else .idle
  | .queueTransport =>
    if st.worker = .returned then .idle
    else if st.loop = .migrated then .enqueue st.sender
    else if st.loop = .senderReplaced then .enqueue st.session
    else .idle
  | .tryRecv => if st.worker = .draining then .take else .idle
  | .encode any => if st.worker = .locking ∧ any = true then .encode else .idle
  | .sendBatch sent =>
    if st.worker.encodedSession = none then .idle
    else if sent = .wireFailed then .drop
    else .send
  | .maintain keepalive =>
    if st.loop = .maintaining ∧ keepalive ≠ .notDue ∧ keepalive ≠ .unencoded then .announce
    else .idle
  | .probe encoded => if st.loop = .migrating ∧ encoded = true then .probe else .idle
  | .replaceTransport => if st.loop = .queued then .adopt st.sender else .idle
  | _ => .idle

def acts (events : List Event) : List Handover.Act := Machine.observe step act start events

theorem refines_handover : Machine.Refines step Handover.step handover act
    (Option.map Datagram.message) := by
  intro st event
  obtain ⟨stopping, paused, session, sender, receiver, transport, channel, loop, worker,
    workerTransport⟩ := st
  cases event with
  | stop => exact ⟨rfl, rfl⟩
  | checkStopping =>
    cases worker with
    | checking => cases stopping <;> exact ⟨rfl, rfl⟩
    | _ => exact ⟨rfl, rfl⟩
  | tryRecv =>
    cases worker with
    | draining => cases channel <;> exact ⟨rfl, rfl⟩
    | _ => exact ⟨rfl, rfl⟩
  | checkPaused =>
    cases worker with
    | drained => cases paused <;> exact ⟨rfl, rfl⟩
    | polled => cases paused <;> exact ⟨rfl, rfl⟩
    | _ => exact ⟨rfl, rfl⟩
  | poll ready =>
    cases worker with
    | polling => cases ready <;> exact ⟨rfl, rfl⟩
    | _ => exact ⟨rfl, rfl⟩
  | readTun ready =>
    cases worker with
    | reading => cases ready <;> exact ⟨rfl, rfl⟩
    | _ => exact ⟨rfl, rfl⟩
  | encode any =>
    cases worker with
    | locking => cases any <;> exact ⟨rfl, rfl⟩
    | _ => cases any <;> exact ⟨rfl, rfl⟩
  | sendBatch sent =>
    cases worker with
    | encoded session => cases sent <;> exact ⟨rfl, rfl⟩
    | _ => cases sent <;> exact ⟨rfl, rfl⟩
  | checkWorker => cases loop <;> exact ⟨rfl, rfl⟩
  | receive ok => cases loop <;> exact ⟨rfl, rfl⟩
  | maintain keepalive => cases loop <;> cases keepalive <;> exact ⟨rfl, rfl⟩
  | startReconnect => cases loop <;> exact ⟨rfl, rfl⟩
  | refreshRoute ok => cases loop <;> exact ⟨rfl, rfl⟩
  | probe encoded => cases loop <;> cases encoded <;> exact ⟨rfl, rfl⟩
  | migrate answered => cases loop <;> exact ⟨rfl, rfl⟩
  | connect ok => cases loop <;> cases ok <;> exact ⟨rfl, rfl⟩
  | replaceSender => cases loop <;> exact ⟨rfl, rfl⟩
  | queueTransport => cases worker <;> cases loop <;> exact ⟨rfl, rfl⟩
  | replaceTransport => cases loop <;> exact ⟨rfl, rfl⟩
  | endReconnect => cases loop <;> exact ⟨rfl, rfl⟩

/-- Neither the shared sender nor the socket of the loop is being replaced. -/
def Settled : LoopPhase → Prop
  | .receiving | .maintaining | .reconnecting | .migrating | .migrated | .establishing
  | .connected => True
  | _ => False

structure Numbered (st : State) : Prop where
  sender : st.sender ≤ st.session
  connected : st.loop = .connected → st.sender < st.session
  replaced : st.loop = .senderReplaced → st.sender = st.session
  settled : Settled st.loop → st.transport = st.sender
  -- The queue refuses a socket only after the worker has returned, and then the loop ends at
  -- `check_worker`.
  ended : st.loop = .finishing ∨ st.loop = .checking →
    st.transport = st.sender ∨ st.worker = .returned

/-- A step of the worker, which has not returned. -/
theorem Numbered.withWorker {st : State} (h : Numbered st) (running : st.worker ≠ .returned)
    (worker : WorkerPhase) (channel : List ℕ) (workerTransport : ℕ) :
    Numbered { st with worker, channel, workerTransport } :=
  ⟨h.sender, h.connected, h.replaced, h.settled,
    fun hloop => Or.inl ((h.ended hloop).resolve_right running)⟩

/-- A step of the loop that replaces neither the sender nor the loop's socket. -/
theorem Numbered.withLoop {st : State} (h : Numbered st)
    (ended : st.transport = st.sender ∨ st.worker = .returned) {loop : LoopPhase} (paused : Bool)
    (channel : List ℕ) (unconnected : loop ≠ .connected) (unreplaced : loop ≠ .senderReplaced)
    (settled : Settled loop → st.transport = st.sender) :
    Numbered { st with loop, paused, channel } :=
  ⟨h.sender, fun hloop => absurd hloop unconnected, fun hloop => absurd hloop unreplaced, settled,
    fun _ => ended⟩

theorem Numbered.move {st : State} (h : Numbered st) (hsettled : Settled st.loop)
    {loop : LoopPhase} (paused : Bool) (channel : List ℕ) (unconnected : loop ≠ .connected)
    (unreplaced : loop ≠ .senderReplaced) : Numbered { st with loop, paused, channel } :=
  h.withLoop (Or.inl (h.settled hsettled)) paused channel unconnected unreplaced
    fun _ => h.settled hsettled

theorem Numbered.step {st : State} (h : Numbered st) (event : Event) :
    Numbered (st.step event).1 := by
  cases event with
  | stop => exact ⟨h.sender, h.connected, h.replaced, h.settled, h.ended⟩
  | checkStopping =>
    simp only [State.step, checkStopping]
    split
    next hworker => exact h.withWorker (by simp [hworker]) _ _ _
    next => exact h
  | tryRecv =>
    simp only [State.step, tryRecv]
    split
    next hworker _ => exact h.withWorker (by simp [hworker]) _ _ _
    next hworker _ => exact h.withWorker (by simp [hworker]) _ _ _
    next => exact h
  | checkPaused =>
    simp only [State.step, checkPaused]
    split
    next hworker => exact h.withWorker (by simp [hworker]) _ _ _
    next hworker => exact h.withWorker (by simp [hworker]) _ _ _
    next => exact h
  | poll ready =>
    simp only [State.step, poll]
    split
    next hworker => exact h.withWorker (by simp [hworker]) _ _ _
    next => exact h
  | readTun ready =>
    simp only [State.step, readTun]
    split
    next hworker => exact h.withWorker (by simp [hworker]) _ _ _
    next => exact h
  | encode any =>
    simp only [State.step, encode]
    split
    next hworker => exact h.withWorker (by simp [hworker]) _ _ _
    next => exact h
  | sendBatch sent =>
    simp only [State.step, sendBatch]
    split
    next hworker => exact h.withWorker (by simp [hworker]) _ _ _
    next hworker => exact h.withWorker (by simp [hworker]) _ _ _
    next hworker => exact h.withWorker (by simp [hworker]) _ _ _
    next => exact h
  | checkWorker =>
    simp only [State.step, checkWorker]
    split
    next hloop =>
      have hended := h.ended (Or.inr hloop)
      split_ifs with hreturns
      · exact h.withLoop hended _ _ (by simp) (by simp) False.elim
      · rw [not_or] at hreturns
        exact h.withLoop hended _ _ (by simp) (by simp) fun _ => hended.resolve_right hreturns.2
    next => exact h
  | receive ok =>
    simp only [State.step, receive]
    split
    next hloop =>
      exact h.move (hloop ▸ trivial) _ _ (by split_ifs <;> simp) (by split_ifs <;> simp)
    next => exact h
  | maintain keepalive =>
    simp only [State.step, maintain]
    split
    all_goals first
      | exact h
      | exact h.move (by simp [*, Settled]) _ _ (by simp) (by simp)
  | startReconnect =>
    simp only [State.step, startReconnect]
    split
    next hloop => exact h.move (hloop ▸ trivial) _ _ (by simp) (by simp)
    next => exact h
  | refreshRoute ok =>
    simp only [State.step, refreshRoute]
    split
    next hloop =>
      exact h.move (hloop ▸ trivial) _ _ (by split_ifs <;> simp) (by split_ifs <;> simp)
    next => exact h
  | probe encoded =>
    simp only [State.step, probe]
    split <;> exact h
  | migrate answered =>
    simp only [State.step, migrate]
    split
    next hloop =>
      exact h.move (hloop ▸ trivial) _ _ (by split_ifs <;> simp) (by split_ifs <;> simp)
    next => exact h
  | connect ok =>
    simp only [State.step, connect]
    split
    next hloop =>
      have hsettled := h.settled (hloop ▸ trivial)
      split_ifs
      · have hlt : st.sender < st.session + 1 := Nat.lt_succ_of_le h.sender
        exact ⟨Nat.le_of_lt hlt, fun _ => hlt, nofun, fun _ => hsettled, fun _ => Or.inl hsettled⟩
      · exact h.move (hloop ▸ trivial) _ _ (by simp) (by simp)
    next => exact h
  | replaceSender =>
    simp only [State.step, replaceSender]
    split
    next => exact ⟨Nat.le_refl _, nofun, fun _ => rfl, False.elim, nofun⟩
    next => exact h
  | queueTransport =>
    simp only [State.step, queueTransport]
    split
    next hloop =>
      split_ifs <;> exact h.move (hloop ▸ trivial) _ _ (by simp) (by simp)
    next =>
      split_ifs with hreturned
      · exact h.withLoop (Or.inr hreturned) _ _ (by simp) (by simp) False.elim
      · exact ⟨h.sender, nofun, nofun, False.elim, nofun⟩
    next => exact h
  | replaceTransport =>
    simp only [State.step, replaceTransport]
    split
    next => exact ⟨h.sender, nofun, nofun, False.elim, fun _ => Or.inl rfl⟩
    next => exact h
  | endReconnect =>
    simp only [State.step, endReconnect]
    split
    next hloop => exact h.withLoop (h.ended (Or.inl hloop)) _ _ (by simp) (by simp) False.elim
    next => exact h

theorem Numbered.allowed {st : State} (h : Numbered st) (event : Event) :
    Handover.Allowed st.handover (st.act event) := by
  cases event with
  | tryRecv =>
    rw [act]
    split_ifs with hworker
    · exact congrArg WorkerPhase.encodedSession hworker
    · trivial
  | encode any =>
    rw [act]
    split_ifs <;> trivial
  | sendBatch sent =>
    rw [act]
    split_ifs <;> trivial
  | replaceSender =>
    rw [act]
    split_ifs with hloop
    · exact h.connected hloop
    · trivial
  | queueTransport =>
    rw [act]
    split_ifs with hworker hmigrated hreplaced
    · trivial
    · rfl
    · exact (h.replaced hreplaced).symm
    · trivial
  | maintain keepalive =>
    rw [act]
    split_ifs <;> trivial
  | probe encoded =>
    rw [act]
    split_ifs <;> trivial
  | replaceTransport =>
    rw [act]
    split_ifs <;> trivial
  | _ => trivial

theorem Numbered.announced {st : State} (h : Numbered st) (event : Event)
    (hact : st.act event = .announce) : st.handover.own = st.handover.key := by
  cases event with
  | maintain keepalive =>
    simp only [act] at hact
    split_ifs at hact with hdue
    exact h.settled (hdue.1 ▸ trivial)
  | _ => grind [act]

theorem start_numbered : Numbered start := ⟨Nat.le_refl _, nofun, nofun, nofun, fun _ => Or.inl rfl⟩

theorem datagrams_iff (events : List Event) :
    (∀ datagram ∈ start.datagrams events, datagram.socket = datagram.session) ↔
      Handover.TakenInTime start.handover (acts events) := by
  have hfresh : Handover.Fresh start.handover := ⟨rfl, rfl, rfl, rfl⟩
  have hadopted := Handover.adoptedInTime_of_refines refines_handover Numbered
    (fun _ event h => h.step event) (fun _ event h => h.allowed event)
    (fun _ event h => h.announced event) start_numbered hfresh events
  exact (Handover.own_channel_iff_of_refines refines_handover Numbered
    (fun _ event h => h.step event) (fun _ event h => h.allowed event) start_numbered hfresh
    events).trans (and_iff_left hadopted)

end State

end Linux.Outgoing

namespace Windows.SplitTunnel

def CapturePhase.encodedSession : CapturePhase → Option ℕ
  | .encoded session _ => some session
  | _ => none

def Datagram.message (datagram : Datagram) : Handover.Message := ⟨datagram.session, datagram.socket⟩

namespace State

def handover (st : State) : Handover.State :=
  ⟨st.sender, st.channel, st.captureTransport, st.capture.encodedSession, st.transport⟩

def drains : CapturePhase → Bool
  | .draining _ => true
  | _ => false

def locks : CapturePhase → Bool
  | .drained _ => true
  | _ => false

def act (st : State) : Event → Handover.Act
  | .replaceSender => if st.loop = .connected then .replace st.session else .idle
  | .sendTransport =>
    if st.loop = .sending ∧ st.captureReturned = false ∧ st.channel.length < transportCapacity then
      .enqueue st.session
    else .idle
  | .tryRecv => if drains st.capture = true then .take else .idle
  | .encode ok => if locks st.capture = true ∧ ok = true then .encode else .idle
  | .sendDatagram encoded =>
    if st.capture.encodedSession = none then .idle
    else if encoded = true then .send
    else .drop
  | .maintain now sent =>
    if st.loop = .maintaining ∧ policy.action st.liveness now = .keepalive ∧ sent ≠ .unencoded then
      .announce
    else .idle
  | .replaceTransport _ => if st.loop = .queued then .adopt st.session else .idle
  | _ => .idle

def acts (now : ℕ) (events : List Event) : List Handover.Act :=
  Machine.observe step act (start now) events

theorem nextPacket_encodedSession (rest : ℕ) : (nextPacket rest).encodedSession = none := by
  cases rest <;> rfl

theorem sendTransport_handover (st : State) :
    st.sendTransport.handover = (Handover.step st.handover (st.act .sendTransport)).1 := by
  rw [act, sendTransport]
  cases hloop : st.loop with
  | sending =>
    cases hreturned : st.captureReturned with
    | true => simp [Handover.step, handover]
    | false =>
      by_cases hroom : st.channel.length < transportCapacity
      · simp [hroom, Handover.step, handover]
      · simp [hroom, Handover.step, handover]
  | _ => simp [Handover.step, handover]

theorem refines_handover : Machine.Refines step Handover.step handover act
    (Option.map Datagram.message) := by
  intro st event
  obtain ⟨stopping, shutdown, liveness, session, sender, receiver, transport, channel, loop,
    capture, captureTransport⟩ := st
  cases event with
  | stop => exact ⟨rfl, rfl⟩
  | checkStopping => cases loop <;> exact ⟨rfl, rfl⟩
  | receive received now => cases loop <;> cases received <;> exact ⟨rfl, rfl⟩
  | maintain now sent =>
    simp only [step, maintain, act]
    cases loop with
    | maintaining =>
      cases policy.action liveness now with
      | keepalive => cases sent <;> exact ⟨rfl, rfl⟩
      | _ => exact ⟨rfl, rfl⟩
    | _ => exact ⟨rfl, rfl⟩
  | connect ok => cases loop <;> cases ok <;> exact ⟨rfl, rfl⟩
  | replaceSender => cases loop <;> exact ⟨rfl, rfl⟩
  | replaceReceiver => cases loop <;> exact ⟨rfl, rfl⟩
  | sendTransport =>
    refine ⟨sendTransport_handover _, ?_⟩
    rw [act]
    split_ifs <;> rfl
  | replaceTransport now => cases loop <;> exact ⟨rfl, rfl⟩
  | shutdownDiverter => cases loop <;> exact ⟨rfl, rfl⟩
  | captureCheckStopping =>
    cases capture with
    | checking => cases stopping <;> exact ⟨rfl, rfl⟩
    | _ => exact ⟨rfl, rfl⟩
  | captureReceive captured =>
    cases capture with
    | receiving =>
      cases captured with
      | batch tunnelled =>
        refine ⟨?_, rfl⟩
        simp only [step, captureReceive, handover, nextPacket_encodedSession]
        rfl
      | shutdown => cases shutdown <;> exact ⟨rfl, rfl⟩
      | failed => exact ⟨rfl, rfl⟩
    | _ => exact ⟨rfl, rfl⟩
  | tryRecv =>
    cases capture with
    | draining rest => cases channel <;> exact ⟨rfl, rfl⟩
    | _ => exact ⟨rfl, rfl⟩
  | encode ok =>
    cases capture with
    | drained rest =>
      cases ok with
      | true => exact ⟨rfl, rfl⟩
      | false =>
        refine ⟨?_, rfl⟩
        simp only [step, encode, handover, nextPacket_encodedSession, Bool.false_eq_true, if_false]
        rfl
    | _ => cases ok <;> exact ⟨rfl, rfl⟩
  | sendDatagram encoded =>
    cases capture with
    | encoded session rest =>
      simp only [step, sendDatagram, handover, nextPacket_encodedSession]
      cases encoded <;> exact ⟨rfl, rfl⟩
    | _ => cases encoded <;> exact ⟨rfl, rfl⟩

structure Numbered (st : State) : Prop where
  sender : st.sender ≤ st.session
  connected : st.loop = .connected → st.sender < st.session
  replaced : st.loop = .senderReplaced → st.sender = st.session
  sending : st.loop = .sending → st.sender = st.session
  queued : st.loop = .queued → st.sender = st.session

theorem Numbered.step {st : State} (h : Numbered st) (event : Event) :
    Numbered (st.step event).1 := by
  obtain ⟨stopping, shutdown, liveness, session, sender, receiver, transport, channel, loop,
    capture, captureTransport⟩ := st
  obtain ⟨hsender, hconnected, hreplaced, hsending, hqueued⟩ := h
  cases event with
  | stop => exact ⟨hsender, hconnected, hreplaced, hsending, hqueued⟩
  | checkStopping =>
    cases loop with
    | checking => cases stopping <;> exact ⟨hsender, nofun, nofun, nofun, nofun⟩
    | _ => exact ⟨hsender, hconnected, hreplaced, hsending, hqueued⟩
  | receive received now =>
    cases loop with
    | receiving => cases received <;> exact ⟨hsender, nofun, nofun, nofun, nofun⟩
    | _ => exact ⟨hsender, hconnected, hreplaced, hsending, hqueued⟩
  | maintain now sent =>
    simp only [State.step, maintain]
    cases loop with
    | maintaining =>
      cases policy.action liveness now with
      | keepalive => cases sent <;> exact ⟨hsender, nofun, nofun, nofun, nofun⟩
      | _ => exact ⟨hsender, nofun, nofun, nofun, nofun⟩
    | _ => exact ⟨hsender, hconnected, hreplaced, hsending, hqueued⟩
  | connect ok =>
    cases loop with
    | establishing =>
      cases ok with
      | true =>
        have hlt : sender < session + 1 := Nat.lt_succ_of_le hsender
        exact ⟨Nat.le_of_lt hlt, fun _ => hlt, nofun, nofun, nofun⟩
      | false => exact ⟨hsender, nofun, nofun, nofun, nofun⟩
    | _ => exact ⟨hsender, hconnected, hreplaced, hsending, hqueued⟩
  | replaceSender =>
    cases loop with
    | connected => exact ⟨Nat.le_refl _, nofun, fun _ => rfl, nofun, nofun⟩
    | _ => exact ⟨hsender, hconnected, hreplaced, hsending, hqueued⟩
  | replaceReceiver =>
    cases loop with
    | senderReplaced => exact ⟨hsender, nofun, nofun, fun _ => hreplaced rfl, nofun⟩
    | _ => exact ⟨hsender, hconnected, hreplaced, hsending, hqueued⟩
  | sendTransport =>
    cases loop with
    | sending =>
      simp only [State.step, sendTransport]
      split_ifs
      · exact ⟨hsender, nofun, nofun, nofun, nofun⟩
      · exact ⟨hsender, nofun, nofun, nofun, fun _ => hsending rfl⟩
      · exact ⟨hsender, hconnected, hreplaced, hsending, hqueued⟩
    | _ => exact ⟨hsender, hconnected, hreplaced, hsending, hqueued⟩
  | replaceTransport now =>
    cases loop with
    | queued => exact ⟨hsender, nofun, nofun, nofun, nofun⟩
    | _ => exact ⟨hsender, hconnected, hreplaced, hsending, hqueued⟩
  | shutdownDiverter => cases loop <;> exact ⟨hsender, hconnected, hreplaced, hsending, hqueued⟩
  | captureCheckStopping =>
    cases capture <;> exact ⟨hsender, hconnected, hreplaced, hsending, hqueued⟩
  | captureReceive captured =>
    cases capture with
    | receiving =>
      cases captured with
      | shutdown => cases shutdown <;> exact ⟨hsender, hconnected, hreplaced, hsending, hqueued⟩
      | _ => exact ⟨hsender, hconnected, hreplaced, hsending, hqueued⟩
    | _ => exact ⟨hsender, hconnected, hreplaced, hsending, hqueued⟩
  | tryRecv =>
    cases capture <;> cases channel <;> exact ⟨hsender, hconnected, hreplaced, hsending, hqueued⟩
  | encode ok => cases capture <;> exact ⟨hsender, hconnected, hreplaced, hsending, hqueued⟩
  | sendDatagram encoded =>
    cases capture <;> exact ⟨hsender, hconnected, hreplaced, hsending, hqueued⟩

theorem Numbered.allowed {st : State} (h : Numbered st) (event : Event) :
    Handover.Allowed st.handover (st.act event) := by
  cases event with
  | tryRecv =>
    rw [act]
    split_ifs with hdrains
    · change st.capture.encodedSession = none
      cases hcapture : st.capture with
      | draining rest => rfl
      | _ =>
        rw [hcapture] at hdrains
        cases hdrains
    · trivial
  | encode ok =>
    rw [act]
    split_ifs <;> trivial
  | sendDatagram encoded =>
    rw [act]
    split_ifs <;> trivial
  | replaceSender =>
    rw [act]
    split_ifs with hloop
    · exact h.connected hloop
    · trivial
  | sendTransport =>
    rw [act]
    split_ifs with hsends
    · exact (h.sending hsends.1).symm
    · trivial
  | maintain now sent =>
    rw [act]
    split_ifs <;> trivial
  | replaceTransport now =>
    rw [act]
    split_ifs with hloop
    · exact (h.queued hloop).symm
    · trivial
  | _ => trivial

theorem start_numbered (now : ℕ) : Numbered (start now) :=
  ⟨Nat.le_refl _, nofun, nofun, nofun, nofun⟩

theorem datagrams_iff (now : ℕ) (events : List Event) :
    (∀ datagram ∈ (start now).datagrams events, datagram.socket = datagram.session) ↔
      Handover.TakenInTime (start now).handover (acts now events) ∧
        Handover.AdoptedInTime (acts now events) :=
  Handover.own_channel_iff_of_refines refines_handover Numbered (fun _ event h => h.step event)
    (fun _ event h => h.allowed event) (start_numbered now) ⟨rfl, rfl, rfl, rfl⟩ events

end State

end Windows.SplitTunnel

/-- In every interleaving of either client: the datagrams go out on sockets of their own sessions
exactly if the worker takes each new socket before it sends under the new session and, on Windows,
the receive loop has changed its own socket before it sends a keepalive under the new session. -/
theorem datagrams_on_own_sockets_iff (linuxEvents : List Linux.Outgoing.Event) (now : ℕ)
    (windowsEvents : List Windows.SplitTunnel.Event) :
    ((∀ datagram ∈ Linux.Outgoing.State.start.datagrams linuxEvents,
        datagram.socket = datagram.session) ↔
      Handover.TakenInTime Linux.Outgoing.State.start.handover
        (Linux.Outgoing.State.acts linuxEvents)) ∧
    ((∀ datagram ∈ (Windows.SplitTunnel.State.start now).datagrams windowsEvents,
        datagram.socket = datagram.session) ↔
      Handover.TakenInTime (Windows.SplitTunnel.State.start now).handover
        (Windows.SplitTunnel.State.acts now windowsEvents) ∧
      Handover.AdoptedInTime (Windows.SplitTunnel.State.acts now windowsEvents)) :=
  ⟨Linux.Outgoing.State.datagrams_iff linuxEvents,
    Windows.SplitTunnel.State.datagrams_iff now windowsEvents⟩

def Linux.Outgoing.lateDrain : List Linux.Outgoing.Event :=
  [.checkWorker, .receive true, .startReconnect, .refreshRoute true, .probe true, .migrate false,
    .connect true, .replaceSender, .checkStopping, .tryRecv, .queueTransport, .replaceTransport,
    .endReconnect, .checkPaused, .poll .some, .checkPaused, .readTun .some, .encode true,
    .sendBatch .ok]

def Windows.SplitTunnel.lateDrain : List Windows.SplitTunnel.Event :=
  [.captureCheckStopping, .captureReceive (.batch 1), .tryRecv, .checkStopping,
    .receive .transient 9000, .maintain 9000 .ok, .connect true, .replaceSender, .encode true,
    .sendDatagram true]

/-- The capture thread has returned, so that `establish` fails after it has replaced the sender. -/
def Windows.SplitTunnel.keepaliveAfterFailure : List Windows.SplitTunnel.Event :=
  [.captureCheckStopping, .captureReceive .failed, .checkStopping, .receive .transient 9000,
    .maintain 9000 .ok, .connect true, .replaceSender, .replaceReceiver, .sendTransport,
    .checkStopping, .receive .transient 9001, .maintain 9001 .ok]

theorem new_session_on_old_socket :
    ⟨2, 1⟩ ∈ Linux.Outgoing.State.start.datagrams Linux.Outgoing.lateDrain ∧
      ⟨2, 1⟩ ∈ (Windows.SplitTunnel.State.start 0).datagrams Windows.SplitTunnel.lateDrain ∧
      ⟨2, 1⟩ ∈
        (Windows.SplitTunnel.State.start 0).datagrams
          Windows.SplitTunnel.keepaliveAfterFailure := by
  decide

end MouseVpn
