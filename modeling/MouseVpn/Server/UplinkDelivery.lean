import MouseVpn.DataPlane.Channel
import MouseVpn.DataPlane.Delivery
import MouseVpn.Server.Ownership

/-!
# From the client's device to the server's

One client and the server, and a network that loses datagrams. The client's sender stays ahead of
the window of its session, so that what arrives is never taken for a replay.
-/

namespace MouseVpn.Server

open MouseVpn.Lib MouseVpn.Crypto MouseVpn.Protocol MouseVpn.DataPlane

structure Path where
  client : TunnelSender
  server : ServerState

/-- A call on the client's sender, and what becomes of its datagram. -/
structure Sending where
  call : EncodeCall
  arrives : Bool
  env : Env
  peer : SocketAddr

theorem EncodeCall.kind_ne_handshakeInit (c : EncodeCall) : c.kind ≠ .handshakeInit := by
  cases c <;> simp [EncodeCall.kind]

theorem TunnelSender.call_link (s : TunnelSender) (c : EncodeCall) :
    (s.call c).1.sessionId = s.sessionId ∧ (s.call c).1.mtu = s.mtu := by
  have hinto : ∀ kind innerKind payload output,
      (s.encodeInto kind innerKind payload output).1.sessionId = s.sessionId ∧
        (s.encodeInto kind innerKind payload output).1.mtu = s.mtu := by
    intro kind innerKind payload output
    rcases s.encodeInto_cases kind innerKind payload output with
      ⟨-, he⟩ | ⟨e, -, -, he⟩ | ⟨next, ciphertext, -, -, he⟩ <;> rw [he] <;> exact ⟨rfl, rfl⟩
  cases c with
  | keepalive output => exact hinto .keepalive .keepalive [] output
  | ip packet output =>
    simp only [TunnelSender.call, TunnelSender.encodeIpInto]
    split
    · exact ⟨rfl, rfl⟩
    · exact hinto ..

namespace Path

variable (lib : Libraries) (config : ValidatedServerConfig) (wire : WireMode)

def step (path : Path) (sending : Sending) : Path × List Effect :=
  match path.client.call sending.call with
  | (client, .error _) => ({ path with client }, [])
  | (client, .ok bytes) =>
    match if sending.arrives then (Datagram.decode bytes).toOption else none with
    | none => ({ path with client }, [])
    | some datagram =>
      let handled := Server.step lib config path.server
        (Call.event ⟨sending.env, sending.peer, datagram, wire⟩)
      (⟨client, handled.1⟩, handled.2)

/-- Session `p` of the server is the other end of the client's sender. -/
structure Linked (path : Path) (p : ℕ) (s : RuntimeSession) : Prop where
  found : path.server.sessions.byId.lookup path.client.sessionId = some p
  session : path.server.heap[p]? = some s
  active : path.server.registry.isActive s.authorization = true
  wire : s.wire.matches wire = true
  transports : PairedTransports path.client.crypto.transport s.inbound.crypto.transport
  sessionId : s.inbound.sessionId = path.client.sessionId
  mtu : s.inbound.mtu = path.client.mtu
  ahead : ∀ h, s.inbound.crypto.receiveWindow.highest = some h → h < path.client.nextSequence

variable {lib config wire} {path : Path} {p : ℕ} {s : RuntimeSession}

theorem Linked.connected (h : path.Linked wire p s) : Connected path.client s.inbound := by
  refine ⟨h.transports, h.sessionId, h.mtu, ?_⟩
  unfold ReplayWindow.ensureAcceptable
  split
  · rfl
  next highest hhighest => exact if_pos (h.ahead highest hhighest)

theorem Linked.later (h : path.Linked wire p s) {client : TunnelSender}
    (hid : client.sessionId = path.client.sessionId) (hmtu : client.mtu = path.client.mtu)
    (hcrypto : client.crypto = path.client.crypto)
    (hnext : path.client.nextSequence ≤ client.nextSequence) :
    ({ path with client } : Path).Linked wire p s where
  found := hid ▸ h.found
  session := h.session
  active := h.active
  wire := h.wire
  transports := hcrypto ▸ h.transports
  sessionId := hid ▸ h.sessionId
  mtu := hmtu ▸ h.mtu
  ahead highest hh := UInt64.lt_of_lt_of_le (h.ahead highest hh) hnext

theorem highest_markAuthenticated_le {w : ReplayWindow} {sequence next highest : UInt64}
    (hw : ∀ h, w.highest = some h → h < next) (hs : sequence < next)
    (h : (w.markAuthenticated sequence).highest = some highest) : highest < next := by
  unfold ReplayWindow.markAuthenticated at h
  cases hh : w.highest with
  | none =>
    simp only [hh, Option.some.injEq] at h
    exact h ▸ hs
  | some top =>
    simp only [hh, Option.some.injEq] at h
    split_ifs at h
    · exact h ▸ hs
    · exact h ▸ hw top hh

theorem Linked.call (h : path.Linked wire p s) {c : EncodeCall} {bytes : Bytes}
    (hsent : (path.client.call c).2 = .ok bytes) :
    ∃ datagram, Datagram.decode bytes = .ok datagram ∧
      datagram.header.sessionId = path.client.sessionId ∧
      datagram.header.sequence = path.client.nextSequence ∧ datagram.header.kind = c.kind ∧
      ∀ buffer, (s.inbound.decodeInto datagram buffer).2.2 = .ok c.meaning := by
  obtain ⟨-, -, ciphertext, capacity, -, -, hbytes⟩ := TunnelSender.call_ok hsent
  refine ⟨path.client.datagram c.kind ciphertext, hbytes ▸ Datagram.decode_encode _, rfl, rfl, rfl,
    fun buffer => ?_⟩
  obtain ⟨datagram, hdecode, hmeaning⟩ := h.connected.deliver hsent buffer
  rw [hbytes, Datagram.decode_encode] at hdecode
  cases hdecode
  exact hmeaning

theorem Linked.handled (h : path.Linked wire p s) {call : Call}
    (hid : call.datagram.header.sessionId = path.client.sessionId)
    (hkind : call.datagram.header.kind ≠ .handshakeInit) :
    Server.step lib config path.server call.event = call.act lib p path.server := by
  have hactive : path.server.isActive p = true := by
    rw [ServerState.isActive, h.session]
    exact h.active
  rw [System.step_transport config call hkind, hid, h.found]
  exact if_pos hactive

theorem Linked.act (h : path.Linked wire p s) {call : Call}
    (hnext : call.datagram.header.sequence < path.client.nextSequence) :
    ∃ s', ({ path with server := (call.act lib p path.server).1 } : Path).Linked wire p s' ∧
      s'.clientAddress = s.clientAddress ∧ s'.traffic = s.traffic := by
  have ho := call.act_outcome lib p path.server
  obtain ⟨s', hs', hsame, htouched⟩ := ho.touched h.session
  have hinbound : s'.inbound = s.inbound ∨
      s'.inbound = s.inbound.mark call.datagram.header.sequence := by
    cases htouched with
    | untouched heq => exact Or.inl (heq ▸ rfl)
    | decoded _ _ hi =>
      rw [hi]
      exact (received_inbound s call.datagram call.env.plaintext).imp_right fun ⟨_, _, hm⟩ => hm
  refine ⟨s', ?_, hsame.clientAddress, ho.traffic h.session hs'⟩
  have hrest : s'.inbound.sessionId = s.inbound.sessionId ∧ s'.inbound.mtu = s.inbound.mtu := by
    rcases hinbound with heq | heq <;> rw [heq] <;> exact ⟨rfl, rfl⟩
  exact {
    found := ho.frame.sessions ▸ h.found
    session := hs'
    active := by
      rw [hsame.authorization]
      exact ho.registry ▸ h.active
    wire := hsame.wire ▸ h.wire
    transports := hsame.transport ▸ h.transports
    sessionId := hrest.1.trans h.sessionId
    mtu := hrest.2.trans h.mtu
    ahead := by
      intro highest hh
      rcases hinbound with heq | heq
      · exact h.ahead highest (heq ▸ hh)
      · rw [heq] at hh
        exact highest_markAuthenticated_le h.ahead hnext hh }

theorem call_next (client : TunnelSender) (c : EncodeCall) :
    client.nextSequence ≤ (client.call c).1.nextSequence ∧
      ∀ bytes, (client.call c).2 = .ok bytes →
        client.nextSequence < (client.call c).1.nextSequence := by
  simp only [UInt64.le_iff_toNat_le, UInt64.lt_iff_toNat_lt]
  cases client.call_outcome c with
  | sent _ _ _ _ _ hn =>
    rw [hn]
    exact ⟨Nat.le_succ _, fun _ _ => Nat.lt_succ_self _⟩
  | refused e _ _ hr hn | exhausted _ _ hr hn | failed e _ _ hr hn =>
    rw [hn, hr]
    exact ⟨le_rfl, fun _ h => nomatch h⟩

theorem linked_step (h : path.Linked wire p s) (sending : Sending) :
    ∃ s', (path.step lib config wire sending).1.Linked wire p s' ∧
      s'.clientAddress = s.clientAddress ∧ s'.traffic = s.traffic := by
  obtain ⟨hid, hmtu⟩ := TunnelSender.call_link path.client sending.call
  have hlater := h.later hid hmtu (path.client.call_crypto sending.call)
    (call_next path.client sending.call).1
  unfold step
  rcases hcall : path.client.call sending.call with ⟨client, e | bytes⟩
  · rw [hcall] at hlater
    exact ⟨s, hlater, rfl, rfl⟩
  · obtain ⟨datagram, hdecode, hdid, hsequence, hkind, -⟩ := h.call (by rw [hcall])
    have hnext := (call_next path.client sending.call).2 bytes (by rw [hcall])
    rw [hcall] at hlater hnext
    cases harrives : sending.arrives with
    | false => exact ⟨s, hlater, rfl, rfl⟩
    | true =>
      simp only [hdecode, Except.toOption, if_true]
      rw [h.handled hdid (hkind ▸ EncodeCall.kind_ne_handshakeInit sending.call)]
      exact hlater.act (hsequence ▸ hnext)

theorem linked_run (h : path.Linked wire p s) (sendings : List Sending) :
    ∃ s', (Machine.run (step lib config wire) path sendings).Linked wire p s' ∧
      s'.clientAddress = s.clientAddress ∧ s'.traffic = s.traffic := by
  refine Machine.run_invariant (step lib config wire) (fun later => ∃ s', later.Linked wire p s' ∧
    s'.clientAddress = s.clientAddress ∧ s'.traffic = s.traffic) ?_ ⟨s, h, rfl, rfl⟩ sendings
  rintro later sending ⟨s', h', haddress, htraffic⟩
  obtain ⟨s'', h'', haddress', htraffic'⟩ := linked_step h' sending
  exact ⟨s'', h'', haddress'.trans haddress, htraffic'.trans htraffic⟩

theorem deliverClientData_effects {env : Env} {st : ServerState} {datagram : Datagram}
    {packet : Bytes} {ip : Ipv4Packet} (hs : st.heap[p]? = some s)
    (hm : s.wire.matches wire = true)
    (hd : (s.inbound.decodeInto datagram env.plaintext).2.2 = .ok (.ip packet))
    (hp : Ipv4Packet.parse packet = .ok ip) (peer : SocketAddr) :
    (deliverClientData env peer datagram wire p st).2 =
      if ip.source = s.clientAddress ∧ env.tunAccepts = true then
        [.tunWrite packet, .addUpload s.traffic packet.length]
      else [] := by
  rcases hr : s.inbound.decodeInto datagram env.plaintext with ⟨inbound, buffer, result⟩
  rw [hr] at hd
  cases hd
  simp only [deliverClientData, hs, hm, hr, hp]
  split_ifs <;> simp_all

/-- However many datagrams are lost before it, a packet that the client's sender takes and whose
datagram arrives is accepted by the receiver of the session, and written to the TUN device if it
has the address of the session. -/
theorem uplink_delivers (h : path.Linked wire p s) (sendings : List Sending)
    {packet output bytes : Bytes} (env : Env) (peer : SocketAddr)
    (hsent : ((Machine.run (step lib config wire) path sendings).client.call
      (.ip packet output)).2 = .ok bytes) :
    ∃ ip datagram s', Ipv4Packet.parse (packet.take (totalLength packet)) = .ok ip ∧
      Datagram.decode bytes = .ok datagram ∧
      (Machine.run (step lib config wire) path sendings).server.heap[p]? = some s' ∧
      (s'.inbound.decodeInto datagram env.plaintext).2.2 = .ok (.ip ip.bytes) ∧
      (step lib config wire (Machine.run (step lib config wire) path sendings)
        ⟨.ip packet output, true, env, peer⟩).2 =
      if ip.source = s.clientAddress ∧ env.tunAccepts = true then
        [.tunWrite ip.bytes, .addUpload s.traffic ip.bytes.length]
      else [] := by
  obtain ⟨s', h', haddress, htraffic⟩ := @linked_run lib config wire path p s h sendings
  generalize Machine.run (step lib config wire) path sendings = later at h' hsent
  obtain ⟨datagram, hdecode, hid, -, hkind, hmeaning⟩ := h'.call hsent
  obtain ⟨-, hparsed, -⟩ := TunnelSender.call_ok hsent
  obtain ⟨ip, hwithin, hbytes⟩ := hparsed rfl
  have haccepted : (s'.inbound.decodeInto datagram env.plaintext).2.2 = .ok (.ip ip.bytes) := by
    rw [hmeaning, hbytes]
    rfl
  refine ⟨ip, datagram, s', parseWithinMtu_ok hwithin, hdecode, h'.session, haccepted, ?_⟩
  have hact : (Call.act lib ⟨env, peer, datagram, wire⟩ p later.server) =
      deliverClientData env peer datagram wire p later.server := by
    simp only [Call.act, hkind]
    rfl
  unfold step
  rcases hcall : later.client.call (.ip packet output) with ⟨client, result⟩
  rw [hcall] at hsent
  cases hsent
  simp only [hdecode, Except.toOption, if_true]
  rw [h'.handled hid (hkind ▸ EncodeCall.kind_ne_handshakeInit _), hact,
    deliverClientData_effects h'.session h'.wire haccepted
      (by rw [hbytes]; exact parseWithinMtu_ok hwithin),
    haddress, htraffic]

def sampleSession : RuntimeSession :=
  ⟨⟨10, 77, 0, 2⟩, ⟨0⟩, "device", samplePeer 10, sampleReceiver, Channel.sampleChannel.sender,
    .legacy⟩

def samplePath : Path :=
  ⟨Channel.sampleChannel.sender, sampleRegistry, [sampleSession],
    (Sessions.empty.replaceClient (ServerState.addressIn [sampleSession]) 7 0).1, ∅⟩

theorem uplink_delivers_sample :
    (step clearLibraries sampleConfig .legacy
      (Machine.run (step clearLibraries sampleConfig .legacy) samplePath
        [⟨.keepalive [], false, sampleEnv, samplePeer 10⟩])
      ⟨.ip samplePacket [], true, sampleEnv, samplePeer 10⟩).2 =
    [.tunWrite samplePacket, .addUpload "device" 20] := by
  have hlinked : samplePath.Linked .legacy 0 sampleSession :=
    ⟨by decide +kernel, rfl, by decide +kernel, by decide, clearTransport_paired, rfl, rfl, nofun⟩
  obtain ⟨ip, -, -, hip, -, -, -, heffects⟩ :=
    @uplink_delivers clearLibraries sampleConfig _ _ _ _ hlinked
    [⟨.keepalive [], false, sampleEnv, samplePeer 10⟩] samplePacket [] _ sampleEnv (samplePeer 10)
    rfl
  have hparse : Ipv4Packet.parse (samplePacket.take (totalLength samplePacket)) =
      .ok ⟨samplePacket, ⟨10, 77, 0, 2⟩, ⟨1, 1, 1, 1⟩⟩ := by
    decide
  obtain rfl := Except.ok.inj (hip.symm.trans hparse)
  exact heffects

end Path

end MouseVpn.Server
