import MouseVpn.Windows.SplitTunnel

/-!
# When a reconnect of the split tunnel waits for the capture thread

A socket stays in the channel until the capture thread handles a packet for the tunnel. The send
of the next reconnect finds room exactly if that has happened in between. Otherwise the receive
loop waits in `establish`, and it waits for as long as the driver captures nothing.
-/

namespace MouseVpn.Windows.SplitTunnel

open MouseVpn.Lib

def Event.captures : Event → Bool
  | .captureReceive _ => true
  | _ => false

namespace State

/-- The send of `establish` puts the socket into the channel. -/
def Queues (st : State) : Prop :=
  st.loop = .sending ∧ st.captureReturned = false ∧ st.channel.length < transportCapacity

/-- The send of `establish` finds no room. -/
def Blocked (st : State) : Prop :=
  st.loop = .sending ∧ st.captureReturned = false ∧ ¬ st.channel.length < transportCapacity

def HandlesPacket (st : State) : Prop := ∃ rest, st.capture = .draining rest

def Wedged (st : State) : Prop := st.Blocked ∧ st.capture = .receiving

inductive ChannelStep (st : State) (event : Event) (channel : List ℕ) : Prop
  | same (h : channel = st.channel)
      (untaken : event = .tryRecv → st.HandlesPacket → st.channel = [])
  | queued (h : channel = st.channel ++ [st.session]) (hevent : event = .sendTransport)
      (queues : st.Queues)
  | taken (transport : ℕ) (h : st.channel = transport :: channel) (hevent : event = .tryRecv)
      (handles : st.HandlesPacket)

theorem channel_step (st : State) (event : Event) :
    ChannelStep st event (st.step event).1.channel := by
  cases event with
  | sendTransport =>
    by_cases hqueues : st.Queues
    · refine .queued ?_ rfl hqueues
      obtain ⟨hloop, hcapture, hroom⟩ := hqueues
      simp [step, sendTransport, hloop, hcapture, hroom]
    · refine .same ?_ nofun
      simp only [step, sendTransport]
      split
      case h_1 hloop =>
        cases hcapture : st.captureReturned with
        | true => rfl
        | false =>
          have hfull : ¬ st.channel.length < transportCapacity :=
            fun hroom => hqueues ⟨hloop, hcapture, hroom⟩
          simp [hfull]
      case h_2 => rfl
  | tryRecv =>
    simp only [step, tryRecv]
    split
    case h_1 hempty => exact .same rfl fun _ _ => hempty
    case h_2 rest transport channel hcapture hchannel =>
      exact .taken transport hchannel rfl ⟨rest, hcapture⟩
    case h_3 hother hother' =>
      refine .same rfl fun _ hhandles => ?_
      obtain ⟨rest, hrest⟩ := hhandles
      cases hchannel : st.channel with
      | nil => rfl
      | cons transport channel => exact absurd hchannel (hother' rest transport channel hrest)
  | stop => exact .same rfl nofun
  | checkStopping => exact .same (by simp only [step, checkStopping]; split <;> rfl) nofun
  | receive received now => exact .same (by simp only [step, receive]; split <;> rfl) nofun
  | maintain now sent =>
    refine .same ?_ nofun
    simp only [step, maintain]
    split
    case h_2 => cases sent <;> rfl
    all_goals rfl
  | connect ok =>
    refine .same ?_ nofun
    simp only [step, connect]
    split
    · cases ok <;> rfl
    · rfl
  | replaceSender => exact .same (by simp only [step, replaceSender]; split <;> rfl) nofun
  | replaceReceiver => exact .same (by simp only [step, replaceReceiver]; split <;> rfl) nofun
  | replaceTransport now => exact .same (by simp only [step, replaceTransport]; split <;> rfl) nofun
  | shutdownDiverter => exact .same (by simp only [step, shutdownDiverter]; split <;> rfl) nofun
  | captureCheckStopping =>
    exact .same (by simp only [step, captureCheckStopping]; split <;> rfl) nofun
  | captureReceive captured =>
    refine .same ?_ nofun
    simp only [step, captureReceive]
    split
    case h_2 => split_ifs <;> rfl
    all_goals rfl
  | encode ok => exact .same (by simp only [step, encode]; split <;> rfl) nofun
  | sendDatagram encoded => exact .same (by simp only [step, sendDatagram]; split <;> rfl) nofun

theorem channel_length (now : ℕ) (events : List Event) :
    ((start now).run events).channel.length ≤ transportCapacity := by
  apply Machine.run_invariant step (fun st => st.channel.length ≤ transportCapacity)
  · intro st event h
    rcases channel_step st event with
      ⟨hsame, -⟩ | ⟨hqueued, -, -, -, hroom⟩ | ⟨transport, htaken, -, -⟩
    · rw [hsame]
      exact h
    · rw [hqueued, List.length_append]
      exact hroom
    · rw [htaken, List.length_cons] at h
      exact Nat.le_of_succ_le h
  · exact Nat.zero_le _

theorem channel_stays {st : State} {events : List Event} (h : st.channel ≠ [])
    (unhandled : ∀ first second, events = first ++ .tryRecv :: second →
      ¬ (st.run first).HandlesPacket) : (st.run events).channel ≠ [] := by
  induction events generalizing st with
  | nil => exact h
  | cons event events ih =>
    refine ih ?_ ?_
    · rcases channel_step st event with ⟨hsame, -⟩ | ⟨hqueued, -, -⟩ | ⟨-, -, rfl, hhandles⟩
      · rw [hsame]
        exact h
      · rw [hqueued]
        exact List.append_ne_nil_of_right_ne_nil _ (List.cons_ne_nil _ _)
      · exact absurd hhandles (unhandled [] events rfl)
    · intro first second hsplit
      exact unhandled (event :: first) second (by rw [hsplit]; rfl)

theorem exists_queued (now : ℕ) (events : List Event)
    (h : ((start now).run events).channel ≠ []) :
    ∃ before between, events = before ++ .sendTransport :: between ∧
      ((start now).run before).Queues ∧
      ∀ first second, between = first ++ .tryRecv :: second →
        ¬ ((start now).run (before ++ .sendTransport :: first)).HandlesPacket := by
  induction events using List.reverseRecOn with
  | nil => exact absurd rfl h
  | append_singleton events event ih =>
    have hlength := channel_length now events
    rw [run, Machine.run_concat] at h
    rcases channel_step ((start now).run events) event with
      ⟨hsame, huntaken⟩ | ⟨-, rfl, hqueues⟩ | ⟨transport, htaken, -, -⟩
    · have hold : ((start now).run events).channel ≠ [] := hsame ▸ h
      obtain ⟨before, between, rfl, hqueues, hunhandled⟩ := ih hold
      refine ⟨before, between ++ [event], by simp, hqueues, ?_⟩
      intro first second hsplit hhandles
      rcases Machine.split_concat hsplit with ⟨rfl, hevent, -⟩ | ⟨second', -, hsplit'⟩
      · exact hold (huntaken hevent hhandles)
      · exact hunhandled first second' hsplit' hhandles
    · exact ⟨events, [], rfl, hqueues, fun first second hsplit => by simp at hsplit⟩
    · -- there was one socket, and it has been taken
      rw [htaken, List.length_cons] at hlength
      have hnil : (((start now).run events).step event).1.channel.length = 0 :=
        Nat.le_zero.mp (Nat.le_of_succ_le_succ hlength)
      exact absurd (List.length_eq_zero_iff.mp hnil) h

theorem blocked_channel {st : State} (h : st.Blocked) : st.channel ≠ [] := by
  intro hempty
  apply h.2.2
  rw [hempty]
  exact Nat.zero_lt_one

theorem channel_after_send {st : State} (h : st.Queues) :
    (st.step .sendTransport).1.channel ≠ [] := by
  obtain ⟨hloop, hcapture, hroom⟩ := h
  simp [step, sendTransport, hloop, hcapture, hroom]

/-- The sends of a run find room exactly if between any two of them a packet is handled. -/
theorem establish_finds_room_iff (now : ℕ) (events : List Event) :
    (∀ past rest, events = past ++ rest → ¬ ((start now).run past).Blocked) ↔
      ∀ before between rest, events = before ++ .sendTransport :: between ++ rest →
        ((start now).run before).Queues →
        ((start now).run (before ++ .sendTransport :: between)).loop = .sending →
        ((start now).run (before ++ .sendTransport :: between)).captureReturned = false →
        ∃ first second, between = first ++ .tryRecv :: second ∧
          ((start now).run (before ++ .sendTransport :: first)).HandlesPacket := by
  constructor
  · intro hroom before between rest hsplit hqueues hloop hcapture
    by_contra hnone
    apply hroom _ rest hsplit
    refine ⟨hloop, hcapture, ?_⟩
    have hrun : ∀ more, (start now).run (before ++ .sendTransport :: more) =
        (((start now).run before).step .sendTransport).1.run more := by
      intro more
      exact Machine.run_append step (start now) before (.sendTransport :: more)
    have hstays : ((start now).run (before ++ .sendTransport :: between)).channel ≠ [] := by
      rw [hrun]
      apply channel_stays (channel_after_send hqueues)
      intro first second hbetween hhandles
      rw [← hrun] at hhandles
      exact hnone ⟨first, second, hbetween, hhandles⟩
    have hpositive := List.length_pos_iff.mpr hstays
    rw [transportCapacity]
    omega
  · intro hhandled past rest hsplit hblocked
    obtain ⟨before, between, rfl, hqueues, hunhandled⟩ :=
      exists_queued now past (blocked_channel hblocked)
    obtain ⟨first, second, hbetween, hhandles⟩ :=
      hhandled before between rest hsplit hqueues hblocked.1 hblocked.2.1
    exact hunhandled first second hbetween hhandles

theorem Wedged.step_eq {st : State} (h : st.Wedged) {event : Event}
    (hevent : event.captures = false) (hstop : event ≠ .stop) : (st.step event).1 = st := by
  obtain ⟨⟨hloop, hreturned, hfull⟩, hcapture⟩ := h
  cases event with
  | stop => exact absurd rfl hstop
  | checkStopping => simp only [State.step, checkStopping, hloop]
  | receive received now => simp only [State.step, receive, hloop]
  | maintain now sent => simp only [State.step, maintain, hloop]
  | connect ok => simp only [State.step, connect, hloop]
  | replaceSender => simp only [State.step, replaceSender, hloop]
  | replaceReceiver => simp only [State.step, replaceReceiver, hloop]
  | sendTransport => simp [State.step, sendTransport, hloop, hreturned, hfull]
  | replaceTransport now => simp only [State.step, replaceTransport, hloop]
  | shutdownDiverter => simp only [State.step, shutdownDiverter, hloop]
  | captureCheckStopping => simp only [State.step, captureCheckStopping, hcapture]
  | captureReceive captured => cases hevent
  | tryRecv => simp only [State.step, tryRecv, hcapture]
  | encode ok => simp only [State.step, encode, hcapture]
  | sendDatagram encoded => simp only [State.step, sendDatagram, hcapture]

theorem Wedged.run {st : State} (h : st.Wedged) {events : List Event}
    (hevents : ∀ event ∈ events, event.captures = false) : (st.run events).Wedged := by
  apply Machine.run_invariant_of_obeys State.step Wedged _ h
    ((Machine.obeys_forall_iff State.step st).mpr hevents)
  intro st event hwedged hevent
  by_cases hstop : event = .stop
  · subst hstop
    exact hwedged
  · rw [hwedged.step_eq hevent hstop]
    exact hwedged

/-- One reconnect after nine silent seconds, from the reading of `stopping` to the send. -/
def silentReconnect (now : ℕ) : List Event :=
  [.checkStopping, .receive .transient now, .maintain now .ok, .connect true, .replaceSender,
    .replaceReceiver]

def idleReconnects : List Event :=
  .captureCheckStopping :: silentReconnect 9000 ++ [.sendTransport, .replaceTransport 9000] ++
    silentReconnect 18000

theorem idle_reconnects_wedge :
    ((start 0).run idleReconnects).Wedged ∧
      ∀ events : List Event, (∀ event ∈ events, event.captures = false) →
        ((start 0).run (idleReconnects ++ .stop :: events)).Wedged := by
  have hwedged : ((start 0).run idleReconnects).Wedged := by
    refine ⟨⟨?_, ?_, ?_⟩, ?_⟩ <;> decide
  refine ⟨hwedged, ?_⟩
  intro events hevents
  have happend : (start 0).run (idleReconnects ++ .stop :: events) =
      ((start 0).run idleReconnects).run (.stop :: events) :=
    Machine.run_append State.step (start 0) idleReconnects (.stop :: events)
  rw [happend]
  exact hwedged.run (List.forall_mem_cons.mpr ⟨rfl, hevents⟩)

end State

end MouseVpn.Windows.SplitTunnel
