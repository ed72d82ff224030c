import Mathlib.Data.Multiset.MapFold
import Mathlib.Data.Multiset.UnionInter
import MouseVpn.Crypto.ReplayRefinement
import MouseVpn.DataPlane.Nonces
import MouseVpn.DataPlane.Rejection

/-!
# Safety of one tunnel direction over an adversarial network

A sender, a receiver of the same session and a network that delivers whatever
it likes, whenever it likes. The sealed log records what the sender encrypted;
the ideal transport opens a payload under a nonce only if the pair is in the log
at that time. Every delivered packet is then a logged one, under a sequence that
the replay window admits once and the sender uses once.
-/

namespace MouseVpn.DataPlane

open MouseVpn.Lib MouseVpn.Crypto MouseVpn.Protocol

structure Channel where
  sender : TunnelSender
  receiver : TunnelReceiver

def Channel.establish (sessionId : UInt64) (senderMtu receiverMtu : ℕ)
    (tx rx : StatelessTransportState) (senderKey receiverKey : PublicKey) : Channel :=
  ⟨(TunnelDataPlane.new sessionId senderMtu (SecureSession.new tx receiverKey)).split.1,
    (TunnelDataPlane.new sessionId receiverMtu (SecureSession.new rx senderKey)).split.2⟩

inductive NetworkEvent
  | send (call : EncodeCall)
  | deliver (datagram : Datagram) (output : Bytes)

inductive NetworkOutput
  | sent (result : Except DataPlaneError Bytes)
  | received (result : Except DataPlaneError Decoded)

namespace Channel

def step (ch : Channel) : NetworkEvent → Channel × NetworkOutput
  | .send call =>
    let (sender, result) := ch.sender.call call
    ({ ch with sender }, .sent result)
  | .deliver datagram output =>
    let (receiver, _, result) := ch.receiver.decodeInto datagram output
    ({ ch with receiver }, .received result)

/-- The packet of a successful `encode_ip_into`, cut to its IPv4 total length. -/
def sentPacket (ch : Channel) : NetworkEvent → Option Bytes
  | .send (.ip packet output) =>
    if (ch.sender.call (.ip packet output)).2.isOk then some (packet.take (totalLength packet))
    else none
  | _ => none

end Channel

structure Sealed where
  nonce : UInt64
  kind : InnerPacketKind
  payload : Bytes
  ciphertext : Bytes
  deriving DecidableEq

namespace TunnelSender

def sealOf (s : TunnelSender) (kind : InnerPacketKind) (payload : Bytes) : Option Sealed :=
  match s.encryptionOf kind payload with
  | some (nonce, .ok ciphertext) => some ⟨nonce, kind, payload, ciphertext⟩
  | _ => none

def seals (s : TunnelSender) : EncodeCall → Option Sealed
  | .ip packet _ => (parseWithinMtu s.mtu packet).toOption.bind fun ip => s.sealOf .data ip.bytes
  | .keepalive _ => s.sealOf .keepalive []

/-- A sealed payload is the sender's: under its current sequence, by its
transport, and a packet when its kind says so. -/
structure Faithful (s : TunnelSender) (x : Sealed) : Prop where
  nonce : x.nonce = s.nextSequence
  written : ∃ capacity, s.crypto.transport.writeMessage x.nonce (x.kind.toByte :: x.payload)
    capacity = .ok x.ciphertext
  packet : x.kind = .data → ∃ ip, Ipv4Packet.parse x.payload = .ok ip ∧ ip.bytes = x.payload

theorem sealOf_some {s : TunnelSender} {kind : InnerPacketKind} {payload : Bytes} {x : Sealed}
    (h : s.sealOf kind payload = some x) :
    x.nonce = s.nextSequence ∧ x.kind = kind ∧ x.payload = payload ∧
      ∃ capacity, s.crypto.transport.writeMessage x.nonce (kind.toByte :: payload) capacity =
        .ok x.ciphertext := by
  cases hn : checkedAdd s.nextSequence 1 with
  | none => simp [sealOf, encryptionOf, hn] at h
  | some next =>
    cases he : s.crypto.encryptInto s.nextSequence (kind.toByte :: payload)
        (payload.length + 1 + authTagLen) with
    | error e => simp [sealOf, encryptionOf, hn, he] at h
    | ok c =>
      simp only [sealOf, encryptionOf, hn, he, Option.map_some, Option.some.injEq] at h
      subst h
      exact ⟨rfl, rfl, rfl, _, (encryptInto_ok_iff.mp he).2⟩

theorem seals_faithful {s : TunnelSender} {c : EncodeCall} {x : Sealed}
    (h : s.seals c = some x) : Faithful s x := by
  cases c with
  | keepalive output =>
    obtain ⟨hn, hk, hp, cap, hw⟩ := sealOf_some h
    exact ⟨hn, ⟨cap, by rw [hk, hp]; exact hw⟩, fun hd => by simp [hk] at hd⟩
  | ip packet output =>
    cases hpar : parseWithinMtu s.mtu packet with
    | error e => simp [seals, hpar, Except.toOption] at h
    | ok ip =>
      simp only [seals, hpar, Except.toOption, Option.bind_some] at h
      obtain ⟨hn, hk, hp, cap, hw⟩ := sealOf_some h
      refine ⟨hn, ⟨cap, by rw [hk, hp]; exact hw⟩, fun _ => ⟨ip, ?_, hp.symm⟩⟩
      rw [hp]
      exact Ipv4Packet.parse_bytes (parseWithinMtu_ok hpar)

theorem seals_ip_payload {s : TunnelSender} {packet output : Bytes} {x : Sealed}
    (h : s.seals (.ip packet output) = some x) :
    x.kind = .data ∧ x.payload = packet.take (totalLength packet) := by
  cases hpar : parseWithinMtu s.mtu packet with
  | error e => simp [seals, hpar, Except.toOption] at h
  | ok ip =>
    simp only [seals, hpar, Except.toOption, Option.bind_some] at h
    obtain ⟨-, hk, hp, -⟩ := sealOf_some h
    rw [hp, (Ipv4Packet.parse_ok (parseWithinMtu_ok hpar)).1]
    exact ⟨hk, rfl⟩

theorem seals_iff_ok (s : TunnelSender) (c : EncodeCall) :
    (s.seals c).isSome = (s.call c).2.isOk := by
  have henc : (s.seals c).isSome = (producedNonce (s.encryption c)).isSome := by
    have hof : ∀ kind payload, (s.sealOf kind payload).isSome =
        (producedNonce (s.encryptionOf kind payload)).isSome := by
      intro kind payload
      simp only [sealOf]
      rcases s.encryptionOf kind payload with - | ⟨n, e | c⟩ <;> rfl
    cases c with
    | keepalive output => exact hof _ _
    | ip packet output =>
      cases hp : parseWithinMtu s.mtu packet with
      | error e => simp [seals, encryption, hp, Except.toOption, producedNonce]
      | ok ip => simpa [seals, encryption, hp, Except.toOption] using hof _ _
  rw [henc]
  cases s.call_outcome c with
  | refused e _ he hr _ => simp [he, hr, producedNonce, Except.isOk, Except.toBool]
  | exhausted _ he hr _ => simp [he, hr, producedNonce, Except.isOk, Except.toBool]
  | failed e _ he hr _ => simp [he, hr, producedNonce, Except.isOk, Except.toBool]
  | sent _ _ he hr _ _ => simp [he, hr, producedNonce, Except.isOk, Except.toBool]

theorem call_crypto (s : TunnelSender) (c : EncodeCall) : (s.call c).1.crypto = s.crypto := by
  have hof : ∀ kind innerKind payload output,
      (s.encodeInto kind innerKind payload output).1.crypto = s.crypto := by
    intro kind innerKind payload output
    rcases s.encodeInto_cases kind innerKind payload output with
      ⟨-, he⟩ | ⟨e, -, -, he⟩ | ⟨next, c, -, -, he⟩ <;> rw [he]
  cases c with
  | keepalive output => exact hof _ _ _ _
  | ip packet output =>
    cases hp : parseWithinMtu s.mtu packet with
    | error e => simp [call, encodeIpInto, hp]
    | ok ip => simpa [call, encodeIpInto, hp] using hof _ _ _ _

theorem call_next_of_seals {s : TunnelSender} {c : EncodeCall} {x : Sealed}
    (h : s.seals c = some x) : (s.call c).1.nextSequence.toNat = s.nextSequence.toNat + 1 := by
  have hok := s.seals_iff_ok c
  cases s.call_outcome c with
  | refused e _ _ hr _ => simp [h, hr, Except.isOk, Except.toBool] at hok
  | exhausted _ _ hr _ => simp [h, hr, Except.isOk, Except.toBool] at hok
  | failed e _ _ hr _ => simp [h, hr, Except.isOk, Except.toBool] at hok
  | sent _ _ _ _ _ hn => exact hn

theorem call_next_of_not_seals {s : TunnelSender} {c : EncodeCall} (h : s.seals c = none) :
    (s.call c).1.nextSequence = s.nextSequence := by
  have hok := s.seals_iff_ok c
  cases hr : (s.call c).2 with
  | error e => exact failed_call_keeps call_outcome s c e hr
  | ok bytes => simp [h, hr, Except.isOk, Except.toBool] at hok

end TunnelSender

theorem interpret_sealed {mtu : ℕ} {kind : PacketKind} {innerKind : InnerPacketKind}
    {payload packet : Bytes}
    (hp : innerKind = .data → ∃ ip, Ipv4Packet.parse payload = .ok ip ∧ ip.bytes = payload)
    (h : TunnelReceiver.interpret mtu kind (innerKind.toByte :: payload) = .ok (.ip packet)) :
    innerKind = .data ∧ packet = payload := by
  simp only [TunnelReceiver.interpret, InnerPacket.decode_cons_toByte] at h
  split at h
  · obtain ⟨ip, hip, hb⟩ := hp rfl
    cases hpar : parseWithinMtu mtu payload with
    | error e => simp [hpar] at h
    | ok ip' =>
      have he := (parseWithinMtu_ok hpar).symm.trans hip
      cases he
      simp only [hpar, List.drop_succ_cons, List.drop_zero, hb, List.take_length, Except.ok.injEq,
        Decoded.ip.injEq] at h
      exact ⟨rfl, h.symm⟩
  · split_ifs at h
    simp at h
  · simp at h

def Sealed.packet (x : Sealed) : Option (UInt64 × Bytes) :=
  if x.kind = .data then some (x.nonce, x.payload) else none

/-- What holds of the log of a sender that seals with `tx`. -/
structure LogSound (tx : StatelessTransportState) (log : List Sealed) (s : TunnelSender) :
    Prop where
  transport : s.crypto.transport = tx
  below : ∀ x ∈ log, x.nonce.toNat < s.nextSequence.toNat
  nodup : (log.map Sealed.nonce).Nodup
  written : ∀ x ∈ log, ∃ capacity,
    tx.writeMessage x.nonce (x.kind.toByte :: x.payload) capacity = .ok x.ciphertext
  packet : ∀ x ∈ log, x.kind = .data →
    ∃ ip, Ipv4Packet.parse x.payload = .ok ip ∧ ip.bytes = x.payload

theorem LogSound.call {tx : StatelessTransportState} {log : List Sealed} {s : TunnelSender}
    (h : LogSound tx log s) (c : EncodeCall) :
    LogSound tx (log ++ (s.seals c).toList) (s.call c).1 := by
  have ht : (s.call c).1.crypto.transport = tx := by
    rw [s.call_crypto c]
    exact h.transport
  cases hs : s.seals c with
  | none =>
    have hn := TunnelSender.call_next_of_not_seals hs
    simp only [Option.toList_none, List.append_nil]
    exact ⟨ht, fun x hx => by rw [hn]; exact h.below x hx, h.nodup, h.written, h.packet⟩
  | some x =>
    have hn := TunnelSender.call_next_of_seals hs
    have hx := TunnelSender.seals_faithful hs
    have hmem : ∀ y ∈ log ++ [x], y ∈ log ∨ y = x := by simp
    rw [Option.toList_some]
    refine ⟨ht, fun y hy => ?_, ?_, fun y hy => ?_, fun y hy => ?_⟩
    · rw [hn]
      rcases hmem y hy with hy | rfl
      · exact (h.below y hy).trans (Nat.lt_succ_self _)
      · rw [hx.nonce]
        exact Nat.lt_succ_self _
    · rw [List.map_append, List.nodup_append]
      refine ⟨h.nodup, by simp, ?_⟩
      rintro a ha b hb rfl
      obtain ⟨y, hy, hya⟩ := List.mem_map.mp ha
      have hlt := h.below y hy
      rw [List.map_singleton, List.mem_singleton] at hb
      rw [hya, hb, hx.nonce] at hlt
      exact lt_irrefl _ hlt
    · rcases hmem y hy with hy | rfl
      · exact h.written y hy
      · rw [← h.transport]
        exact hx.written
    · rcases hmem y hy with hy | rfl
      · exact h.packet y hy
      · exact hx.packet

/-- What holds of the deliveries of a receiver that opens with `rx`. -/
structure ReceivedSound (rx : StatelessTransportState) (log : List Sealed)
    (received : List (UInt64 × Bytes)) (r : TunnelReceiver) : Prop where
  transport : r.crypto.transport = rx
  window : ∃ marked, ReplayWindow.Represents r.crypto.receiveWindow marked ∧
    ∀ y ∈ received, y.1.toNat ∈ marked
  nodup : (received.map Prod.fst).Nodup
  sealed : ∀ y ∈ received, ∃ x ∈ log, x.packet = some y

theorem ReceivedSound.mono {rx : StatelessTransportState} {log more : List Sealed}
    {received : List (UInt64 × Bytes)} {r : TunnelReceiver}
    (h : ReceivedSound rx log received r) : ReceivedSound rx (log ++ more) received r := by
  refine ⟨h.transport, h.window, h.nodup, fun y hy => ?_⟩
  obtain ⟨x, hx, hxy⟩ := h.sealed y hy
  exact ⟨x, List.mem_append_left _ hx, hxy⟩

/-- The packet that a delivery returns as `Decoded::Ip`, with the sequence it came under. -/
def TunnelReceiver.receives (r : TunnelReceiver) (d : Datagram) (output : Bytes) :
    Option (UInt64 × Bytes) :=
  match (r.decodeInto d output).2.2 with
  | .ok (.ip packet) => some (d.header.sequence, packet)
  | _ => none

theorem TunnelReceiver.receives_some {r : TunnelReceiver} {d : Datagram} {output : Bytes}
    {y : UInt64 × Bytes} (h : r.receives d output = some y) :
    y.1 = d.header.sequence ∧ ∃ plaintext, r.Authentic d plaintext ∧
      interpret r.mtu d.header.kind plaintext = .ok (.ip y.2) := by
  unfold receives at h
  rcases r.decodeInto_cases d output with ⟨plaintext, ha, he⟩ | ⟨-, buffer, e, he⟩
  · rw [he] at h
    split at h
    · rename_i packet hi
      cases h
      exact ⟨rfl, plaintext, ha, hi⟩
    · simp at h
  · rw [he] at h
    simp at h

theorem ReceivedSound.deliver {tx rx : StatelessTransportState} {log : List Sealed}
    {received : List (UInt64 × Bytes)} {s : TunnelSender} {r : TunnelReceiver}
    (hl : LogSound tx log s) (h : ReceivedSound rx log received r)
    (hopen : ∀ nonce plaintext capacity ciphertext capacity' plaintext',
      tx.writeMessage nonce plaintext capacity = .ok ciphertext →
      rx.readMessage nonce ciphertext capacity' = .ok plaintext' → plaintext' = plaintext)
    (d : Datagram) (output : Bytes)
    (hideal : ∀ plaintext,
      rx.readMessage d.header.sequence d.payload d.payload.length = .ok plaintext →
      ∃ x ∈ log, x.nonce = d.header.sequence ∧ x.ciphertext = d.payload) :
    ReceivedSound rx log (received ++ (r.receives d output).toList)
      (r.decodeInto d output).1 := by
  obtain ⟨marked, hw, hm⟩ := h.window
  rcases r.decodeInto_cases d output with ⟨plaintext, ha, he⟩ | ⟨-, buffer, e, he⟩
  swap
  · -- Not authentic: nothing is received and the receiver stays.
    have hnone : r.receives d output = none := by simp [TunnelReceiver.receives, he]
    rw [hnone, he]
    simpa using h
  have hmark := ReplayWindow.mark_represents hw ha.2.2.2.1
  have hfresh := ReplayWindow.not_mem_of_acceptable hw ha.2.2.2.1
  cases hr : r.receives d output with
  | none =>
    rw [he]
    simp only [Option.toList_none, List.append_nil]
    exact ⟨h.transport, ⟨_, hmark, fun y hy => List.mem_cons_of_mem _ (hm y hy)⟩, h.nodup,
      h.sealed⟩
  | some y =>
    obtain ⟨hseq, plaintext', ha', hi⟩ := TunnelReceiver.receives_some hr
    have hread := ha'.2.2.2.2
    rw [h.transport] at hread
    obtain ⟨x, hx, hxn, hxc⟩ := hideal plaintext' hread
    obtain ⟨cap, hwr⟩ := hl.written x hx
    rw [← hxn, ← hxc] at hread
    have hpt := hopen _ _ _ _ _ _ hwr hread
    rw [hpt] at hi
    obtain ⟨hk, hp⟩ := interpret_sealed (hl.packet x hx) hi
    have hxy : x.packet = some y := by
      simp only [Sealed.packet, hk, if_true, hxn, ← hseq, ← hp]
    have hmem : ∀ z ∈ received ++ [y], z ∈ received ∨ z = y := by simp
    rw [he, Option.toList_some]
    refine ⟨h.transport, ⟨_, hmark, fun z hz => ?_⟩, ?_, fun z hz => ?_⟩
    · rcases hmem z hz with hz | rfl
      · exact List.mem_cons_of_mem _ (hm z hz)
      · rw [hseq]
        exact List.mem_cons_self
    · rw [List.map_append, List.nodup_append]
      refine ⟨h.nodup, by simp, ?_⟩
      rintro a ha b hb rfl
      obtain ⟨z, hz, hza⟩ := List.mem_map.mp ha
      rw [List.map_singleton, List.mem_singleton] at hb
      have hzm := hm z hz
      rw [hza, hb, hseq] at hzm
      exact hfresh hzm
    · rcases hmem z hz with hz | rfl
      · exact h.sealed z hz
      · exact ⟨x, hx, hxy⟩

namespace Channel

def sealedBy (ch : Channel) : NetworkEvent → Option Sealed
  | .send call => ch.sender.seals call
  | .deliver _ _ => none

def receivedPacket (ch : Channel) : NetworkEvent → Option (UInt64 × Bytes)
  | .send _ => none
  | .deliver datagram output => ch.receiver.receives datagram output

def log (ch : Channel) (es : List NetworkEvent) : List Sealed :=
  Machine.collect step sealedBy ch es

def sent (ch : Channel) (es : List NetworkEvent) : List Bytes :=
  Machine.collect step sentPacket ch es

def received (ch : Channel) (es : List NetworkEvent) : List (UInt64 × Bytes) :=
  Machine.collect step receivedPacket ch es

def delivered (ch : Channel) (es : List NetworkEvent) : List Bytes :=
  (received ch es).map Prod.snd

/-- The transports behave as an ideal AEAD over the run: opening inverts sealing,
and at any time a payload opens under a nonce only if the sender has already
produced exactly that ciphertext under it. -/
structure IdealAead (ch : Channel) (es : List NetworkEvent) : Prop where
  opens_sealed : ∀ nonce plaintext capacity ciphertext capacity' plaintext',
    ch.sender.crypto.transport.writeMessage nonce plaintext capacity = .ok ciphertext →
    ch.receiver.crypto.transport.readMessage nonce ciphertext capacity' = .ok plaintext' →
    plaintext' = plaintext
  unforgeable : ∀ pre d output post plaintext, es = pre ++ .deliver d output :: post →
    ch.receiver.crypto.transport.readMessage d.header.sequence d.payload d.payload.length =
      .ok plaintext →
    ∃ x ∈ log ch pre, x.nonce = d.header.sequence ∧ x.ciphertext = d.payload

theorem IdealAead.init {ch : Channel} {es : List NetworkEvent} {e : NetworkEvent}
    (h : IdealAead ch (es ++ [e])) : IdealAead ch es where
  opens_sealed := h.opens_sealed
  unforgeable := by
    rintro pre d output post plaintext rfl hr
    exact h.unforgeable pre d output (post ++ [e]) plaintext (by simp) hr

theorem run_sound {ch₀ : Channel}
    (hw : ch₀.receiver.crypto.receiveWindow = ReplayWindow.default) (es : List NetworkEvent) :
    IdealAead ch₀ es →
    LogSound ch₀.sender.crypto.transport (log ch₀ es) (Machine.run step ch₀ es).sender ∧
      ReceivedSound ch₀.receiver.crypto.transport (log ch₀ es) (received ch₀ es)
        (Machine.run step ch₀ es).receiver := by
  refine Machine.run_induction step (fun es ch => IdealAead ch₀ es →
    LogSound ch₀.sender.crypto.transport (log ch₀ es) ch.sender ∧
      ReceivedSound ch₀.receiver.crypto.transport (log ch₀ es) (received ch₀ es) ch.receiver)
    ?_ ?_ es
  · intro _
    refine ⟨⟨rfl, by simp [log], by simp [log], by simp [log], by simp [log]⟩,
      ⟨rfl, ⟨[], ?_, by simp [received]⟩, by simp [received], by simp [received]⟩⟩
    rw [hw]
    exact ReplayWindow.default_represents
  · intro es e ih hideal
    obtain ⟨hl, hr⟩ := ih hideal.init
    cases e with
    | send c =>
      have hlog : log ch₀ (es ++ [.send c]) =
          log ch₀ es ++ ((Machine.run step ch₀ es).sender.seals c).toList := by
        simp [log, sealedBy]
      have hrec : received ch₀ (es ++ [.send c]) = received ch₀ es := by
        simp [received, receivedPacket]
      rw [hlog, hrec]
      exact ⟨hl.call c, hr.mono⟩
    | deliver d output =>
      have hlog : log ch₀ (es ++ [.deliver d output]) = log ch₀ es := by
        simp [log, sealedBy]
      have hrec : received ch₀ (es ++ [.deliver d output]) =
          received ch₀ es ++ ((Machine.run step ch₀ es).receiver.receives d output).toList := by
        simp [received, receivedPacket]
      rw [hlog, hrec]
      exact ⟨hl, hr.deliver hl hideal.opens_sealed d output fun plaintext hp =>
        hideal.unforgeable es d output [] plaintext rfl hp⟩

theorem sentPacket_eq (ch : Channel) (e : NetworkEvent) :
    sentPacket ch e = ((sealedBy ch e).bind Sealed.packet).map Prod.snd := by
  cases e with
  | deliver d output => rfl
  | send c =>
    have hok := ch.sender.seals_iff_ok c
    cases hs : ch.sender.seals c with
    | none =>
      rw [hs] at hok
      cases c <;> simp_all [sentPacket, sealedBy]
    | some x =>
      rw [hs] at hok
      cases c with
      | keepalive output =>
        obtain ⟨-, hk, -⟩ := TunnelSender.sealOf_some hs
        simp [sentPacket, sealedBy, hs, Sealed.packet, hk]
      | ip packet output =>
        have hp := TunnelSender.seals_ip_payload hs
        simp [sentPacket, sealedBy, hs, Sealed.packet, hp, ← hok]

theorem sent_eq (ch : Channel) (es : List NetworkEvent) :
    sent ch es = ((log ch es).filterMap Sealed.packet).map Prod.snd := by
  induction es using List.reverseRecOn with
  | nil => rfl
  | append_singleton es e ih =>
    simp only [sent, log, Machine.collect_concat] at ih ⊢
    rw [ih, sentPacket_eq]
    cases h : sealedBy (Machine.run step ch es) e with
    | none => simp
    | some x => cases hx : x.packet <;> simp [hx]

/-- Packets are delivered at most as often as they were sent. -/
theorem delivered_le_sent (sessionId : UInt64) (senderMtu receiverMtu : ℕ)
    (tx rx : StatelessTransportState) (senderKey receiverKey : PublicKey)
    (es : List NetworkEvent)
    (hideal : IdealAead
      (establish sessionId senderMtu receiverMtu tx rx senderKey receiverKey) es) :
    (delivered (establish sessionId senderMtu receiverMtu tx rx senderKey receiverKey) es :
        Multiset Bytes) ≤
      sent (establish sessionId senderMtu receiverMtu tx rx senderKey receiverKey) es := by
  generalize hch : establish sessionId senderMtu receiverMtu tx rx senderKey receiverKey = ch₀
    at hideal ⊢
  have hw : ch₀.receiver.crypto.receiveWindow = ReplayWindow.default := by rw [← hch]; rfl
  obtain ⟨-, hr⟩ := run_sound hw es hideal
  have hsub : (received ch₀ es : Multiset (UInt64 × Bytes)) ≤
      (log ch₀ es).filterMap Sealed.packet := by
    rw [Multiset.le_iff_subset (Multiset.coe_nodup.mpr (List.Nodup.of_map _ hr.nodup))]
    intro y hy
    obtain ⟨x, hx, hxy⟩ := hr.sealed y hy
    exact Multiset.mem_coe.mpr (List.mem_filterMap.mpr ⟨x, hx, hxy⟩)
  have hmap := Multiset.map_le_map (f := Prod.snd) hsub
  rw [Multiset.map_coe, Multiset.map_coe, ← sent_eq] at hmap
  exact hmap

def sampleChannel : Channel :=
  establish 7 1280 1280 clearTransport clearTransport ⟨Vector.replicate 32 1⟩
    ⟨Vector.replicate 32 0⟩

def sampleRun : List NetworkEvent :=
  [.send (.ip samplePacket []), .deliver (sampleDatagram .data) [],
    .deliver (sampleDatagram .data) []]

theorem sampleRun_ideal : IdealAead sampleChannel sampleRun where
  opens_sealed nonce plaintext capacity ciphertext capacity' plaintext' hw hr :=
    clearTransport_opens_sealed hw hr
  unforgeable pre d output post plaintext he _ := by
    cases pre with
    | nil => cases he
    | cons e pre =>
      rw [List.cons_append, sampleRun] at he
      obtain ⟨rfl, hrest⟩ := List.cons.inj he
      have hd : d = sampleDatagram .data := by
        have hmem : NetworkEvent.deliver d output ∈ pre ++ .deliver d output :: post := by simp
        rw [← hrest] at hmem
        simp only [List.mem_cons, List.not_mem_nil, or_false, or_self,
          NetworkEvent.deliver.injEq] at hmem
        exact hmem.1
      subst hd
      refine ⟨⟨0, .data, samplePacket, (sampleDatagram .data).payload⟩, ?_, rfl, rfl⟩
      rw [log, Machine.collect_cons]
      exact List.mem_append_left _ (by decide +kernel)

theorem delivered_le_sent_sample :
    delivered sampleChannel sampleRun = [samplePacket] ∧
      (delivered sampleChannel sampleRun : Multiset Bytes) ≤ sent sampleChannel sampleRun :=
  ⟨by decide +kernel, delivered_le_sent 7 1280 1280 clearTransport clearTransport
    ⟨Vector.replicate 32 1⟩ ⟨Vector.replicate 32 0⟩ sampleRun sampleRun_ideal⟩

end Channel

end MouseVpn.DataPlane
