import MouseVpn.Lib.Slots
import MouseVpn.Server.WireDecoding

/-!
# A batch of the TUN worker

The worker reads packets into fixed slots, and compacts what it can send into the front of
other slots: the encrypted datagram, its frame, the peer, the traffic counter and the length
of the packet. A packet may be given up after its slot was written. The slots keep what the
batches before left in them, and the send is told a count; so is the accounting afterwards.
-/

namespace MouseVpn.Server

open MouseVpn.Lib MouseVpn.Crypto MouseVpn.DataPlane
open MouseVpn.Wire.Speedy (SpeedyCodec)

def udpBatchSize : ℕ := 32

def datagramBufferLen : ℕ := 65535

/-- What the other threads do to the state before each of the steps in the turn of a packet:
its session is found, checked, asked for its peer and locked. -/
structure Others where
  find : ServerState → ServerState
  check : ServerState → ServerState
  peer : ServerState → ServerState
  encode : ServerState → ServerState

/-- A packet that the TUN device returned, and what its turn will find. `calls` are the
earlier calls on each Speedy codec. -/
structure TunRead where
  packet : Bytes
  fits : packet.length ≤ datagramBufferLen
  others : Others
  sources : FrameSources
  calls : SpeedyCodec → List SpeedyCodec.Call

namespace TunRead

variable (read : TunRead) (st : ServerState)

def atFind : ServerState := read.others.find st

def atCheck : ServerState := read.others.check (read.atFind st)

def atPeer : ServerState := read.others.peer (read.atCheck st)

def atEncode : ServerState := read.others.encode (read.atPeer st)

end TunRead

/-- The variables of `run_tun_worker` that outlive a batch. -/
structure TunWorker where
  packets : Vector (Vector UInt8 datagramBufferLen) udpBatchSize
  packetLengths : Vector ℕ udpBatchSize
  datagrams : Vector Bytes udpBatchSize
  wireDatagrams : Vector Bytes udpBatchSize
  peers : List SocketAddr
  traffic : List String
  payloadLengths : List ℕ

/-- What `sendmmsg` answers. -/
inductive SendOutcome
  | sent (count : ℕ)
  | recoverable
  | failed

def SendOutcome.count : SendOutcome → Option ℕ
  | .sent count => some count
  | .recoverable => some 0
  | .failed => none

namespace TunWorker

/-- The reading loop, from `packetCount` on, until the device would block or no slot is left. -/
def receiveFrom (w : TunWorker) (packetCount : ℕ) : List TunRead → TunWorker × ℕ
  | [] => (w, packetCount)
  | read :: reads =>
    if h : packetCount < udpBatchSize then
      receiveFrom
        { w with
          packets := w.packets.setIfInBounds packetCount
            (Slots.fill (w.packets.get ⟨packetCount, h⟩) read.packet)
          packetLengths := w.packetLengths.setIfInBounds packetCount read.packet.length }
        (packetCount + 1) reads
    else (w, packetCount)

/-- `&packets[index][..packet_lengths[index]]`; `none` where it would panic. -/
def packetAt (w : TunWorker) (index : ℕ) : Option Bytes :=
  match w.packets[index]?, w.packetLengths[index]? with
  | some buffer, some length =>
    if length ≤ datagramBufferLen then some (buffer.toList.take length) else none
  | _, _ => none

variable (lib : Libraries)

/-- The rest of a turn, for a session that was found and checked and its peer. Here and below
`none` is an index out of bounds. -/
def encodeFor (w : TunWorker) (datagramCount : ℕ) (read : TunRead) (ip : Ipv4Packet) (p : ℕ)
    (peer : SocketAddr) (st : ServerState) : Option (TunWorker × ℕ × ServerState) :=
  match st.heap[p]? with
  | none => some (w, datagramCount, st)
  | some s =>
    match w.datagrams[datagramCount]? with
    | none => none
    | some stale =>
      match s.outbound.encodeIpInto ip.bytes stale with
      | (outbound, datagram, .error _) =>
        some ({ w with datagrams := w.datagrams.setIfInBounds datagramCount datagram },
          datagramCount, st.setSession p { s with outbound })
      | (outbound, datagram, .ok ()) =>
        let w := { w with datagrams := w.datagrams.setIfInBounds datagramCount datagram }
        let st := st.setSession p { s with outbound }
        match w.wireDatagrams[datagramCount]? with
        | none => none
        | some stale =>
          match s.wire.encodeServerInto lib read.calls datagram read.sources stale with
          | (frame, .error _) =>
            some ({ w with wireDatagrams := w.wireDatagrams.setIfInBounds datagramCount frame },
              datagramCount, st)
          | (frame, .ok ()) =>
            some ({ w with
                wireDatagrams := w.wireDatagrams.setIfInBounds datagramCount frame
                peers := w.peers ++ [peer]
                traffic := w.traffic ++ [s.traffic]
                payloadLengths := w.payloadLengths ++ [ip.bytes.length] },
              datagramCount + 1, st)

/-- The turn of the packet in slot `index`. -/
def handleIndex (w : TunWorker) (datagramCount index : ℕ) (read : TunRead) (st : ServerState) :
    Option (TunWorker × ℕ × ServerState) :=
  match w.packetAt index with
  | none => none
  | some packet =>
    match Ipv4Packet.parse packet with
    | .error _ => some (w, datagramCount, read.atFind st)
    | .ok ip =>
      match (read.atFind st).sessions.byAddress.lookup ip.destination with
      | none => some (w, datagramCount, read.atFind st)
      | some p =>
        if !(read.atCheck st).isActive p then some (w, datagramCount, read.atCheck st)
        else
          match (read.atPeer st).heap[p]? with
          | none => some (w, datagramCount, read.atPeer st)
          | some s => w.encodeFor lib datagramCount read ip p s.peer (read.atEncode st)

def handleFrom (w : TunWorker) (datagramCount index : ℕ) (st : ServerState) :
    List TunRead → Option (TunWorker × ℕ × ServerState)
  | [] => some (w, datagramCount, st)
  | read :: reads =>
    match w.handleIndex lib datagramCount index read st with
    | none => none
    | some (w, datagramCount, st) => handleFrom w datagramCount (index + 1) st reads

end TunWorker

def sendServerBatch (datagrams : Vector Bytes udpBatchSize) (peers : List SocketAddr)
    (count : ℕ) : Option (List (Bytes × Option SocketAddr)) :=
  if count ≤ udpBatchSize then
    some ((List.range count).map fun index => (datagrams[index]?.getD [], peers[index]?))
  else none

def recordDownload (traffic : List String) (payloadLengths : List ℕ) (index : ℕ) :
    Option Effect :=
  match traffic[index]?, payloadLengths[index]? with
  | some counter, some bytes => some (.addDownload counter bytes)
  | _, _ => none

def recordDownloads (sent : ℕ) (traffic : List String) (payloadLengths : List ℕ) :
    Option (List Effect) :=
  (List.range sent).mapM (recordDownload traffic payloadLengths)

/-- One iteration of `run_tun_worker`, from the packets that the device has. It hands datagrams to
the socket and credits downloads. -/
def TunWorker.round (lib : Libraries) (w : TunWorker) (available : List TunRead)
    (outcome : SendOutcome) (st : ServerState) :
    Option (TunWorker × ServerState × List (Bytes × Option SocketAddr) × List Effect) :=
  let (w, packetCount) := w.receiveFrom 0 available
  let w := { w with peers := [], traffic := [], payloadLengths := [] }
  match w.handleFrom lib 0 0 st (available.take packetCount) with
  | none => none
  | some (w, datagramCount, st) =>
    if datagramCount = 0 then some (w, st, ⟨[], []⟩)
    else
      match sendServerBatch w.wireDatagrams w.peers datagramCount with
      | none => none
      | some handed =>
        match outcome.count with
        | none => some (w, st, ⟨handed, []⟩)
        | some sent =>
          (recordDownloads sent w.traffic w.payloadLengths).map fun credits =>
            (w, st, ⟨handed, credits⟩)

def encodeTo (lib : Libraries) (read : TunRead) (ip : Ipv4Packet) (p : ℕ) (peer : SocketAddr)
    (st : ServerState) : ServerState × Option Outgoing :=
  let (st, outgoing) := encodeTunPacket lib ⟨read.packet, read.sources, []⟩ ip p st
  (st, outgoing.map fun o => { o with peer })

def serve (lib : Libraries) (st : ServerState) (read : TunRead) : ServerState × Option Outgoing :=
  match Ipv4Packet.parse read.packet with
  | .error _ => (read.atFind st, none)
  | .ok ip =>
    match (read.atFind st).sessions.byAddress.lookup ip.destination with
    | none => (read.atFind st, none)
    | some p =>
      if !(read.atCheck st).isActive p then (read.atCheck st, none)
      else
        match (read.atPeer st).heap[p]? with
        | none => (read.atPeer st, none)
        | some s => encodeTo lib read ip p s.peer (read.atEncode st)

def passed (lib : Libraries) (st : ServerState) (reads : List TunRead) : List Outgoing :=
  Machine.collect (serve lib) (fun st read => (serve lib st read).2) st reads

/-- The packet passes all checks: it is IPv4, session `p` is registered for its destination
and active, takes the packet and can frame it. The datagram and the frame are that session's
and go to its peer, and the length of the packet counts for its device. -/
structure Passes (lib : Libraries) (st : ServerState) (read : TunRead) (o : Outgoing)
    (ip : Ipv4Packet) (p : ℕ) (found s : RuntimeSession) : Prop where
  parsed : Ipv4Packet.parse read.packet = .ok ip
  registered : (read.atFind st).sessions.byAddress.lookup ip.destination = some p
  active : (read.atCheck st).isActive p = true
  reachable : (read.atPeer st).heap[p]? = some found
  peer : o.peer = found.peer
  session : (read.atEncode st).heap[p]? = some s
  encrypted : (s.outbound.encodeIpInto ip.bytes []).2 = (o.datagram, .ok ())
  framed : s.wire.encodeServer lib o.datagram read.sources = some o.frame
  traffic : o.traffic = s.traffic
  payloadLength : o.payloadLength = ip.bytes.length

section Served

variable {lib : Libraries} {read : TunRead} {o : Outgoing} {st : ServerState}

theorem encodeTo_eq_some {ip : Ipv4Packet} {p : ℕ} {peer : SocketAddr} {s : RuntimeSession}
    (hs : st.heap[p]? = some s) :
    (encodeTo lib read ip p peer st).2 = some o ↔
      o.peer = peer ∧ (s.outbound.encodeIpInto ip.bytes []).2 = (o.datagram, .ok ()) ∧
      s.wire.encodeServer lib o.datagram read.sources = some o.frame ∧
      o.traffic = s.traffic ∧ o.payloadLength = ip.bytes.length := by
  simp only [encodeTo, encodeTunPacket, hs]
  rcases s.outbound.encodeIpInto ip.bytes [] with ⟨outbound, datagram, e | ⟨⟩⟩
  · simp
  · constructor
    · intro h
      cases hf : s.wire.encodeServer lib datagram read.sources with
      | none => simp [hf] at h
      | some frame =>
        simp only [hf, Option.map_some, Option.some.injEq] at h
        rw [← h]
        exact ⟨rfl, rfl, hf, rfl, rfl⟩
    · rintro ⟨hpeer, he, hf, htraffic, hlength⟩
      cases he
      simp only [hf, Option.map_some, ← hpeer, ← htraffic, ← hlength]

theorem serve_eq_some :
    (serve lib st read).2 = some o ↔ ∃ ip p found s, Passes lib st read o ip p found s := by
  unfold serve
  constructor
  · intro h
    cases hip : Ipv4Packet.parse read.packet with
    | error e => simp [hip] at h
    | ok ip =>
      simp only [hip] at h
      cases hp : (read.atFind st).sessions.byAddress.lookup ip.destination with
      | none => simp [hp] at h
      | some p =>
        simp only [hp, Bool.not_eq_eq_eq_not, Bool.not_true] at h
        split_ifs at h with hactive
        cases hfound : (read.atPeer st).heap[p]? with
        | none => simp [hfound] at h
        | some found =>
          simp only [hfound] at h
          cases hs : (read.atEncode st).heap[p]? with
          | none => simp [encodeTo, encodeTunPacket, hs] at h
          | some s =>
            obtain ⟨hpeer, he, hf, htraffic, hlength⟩ := (encodeTo_eq_some hs).mp h
            exact ⟨ip, p, found, s, hip, hp, by simpa using hactive, hfound, hpeer, hs, he, hf,
              htraffic, hlength⟩
  · rintro ⟨ip, p, found, s, hip, hp, hactive, hfound, hpeer, hs, he, hf, htraffic, hlength⟩
    simp only [hip, hp, hactive, Bool.not_true, Bool.false_eq_true, if_false, hfound]
    exact (encodeTo_eq_some hs).mpr ⟨hpeer, he, hf, htraffic, hlength⟩

theorem passed_cons (st : ServerState) (read : TunRead) (reads : List TunRead) :
    passed lib st (read :: reads) =
      (serve lib st read).2.toList ++ passed lib (serve lib st read).1 reads :=
  Machine.collect_cons _ _ st read reads

end Served

def Others.idle : Others := ⟨id, id, id, id⟩

end MouseVpn.Server
