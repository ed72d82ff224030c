import MouseVpn.DataPlane.Equivalence
import MouseVpn.Server.Downlink
import MouseVpn.Server.Ownership

/-!
# The slots of a batch follow its list

Whatever the slots of the TUN worker held before, their first entries are those of the
packets that pass, in order, in all of them alike. So the frames, the peers, the counters and
the lengths that are read by index afterwards belong together.
-/

namespace MouseVpn.Server

open MouseVpn.Lib MouseVpn.Crypto MouseVpn.DataPlane
open MouseVpn.Wire.Speedy (SpeedyCodec)

/-- The first slots hold the batch: entry `j` of each is that of the `j`-th datagram. -/
structure Aligned (w : TunWorker) (batch : List Outgoing) : Prop where
  frames : Slots.Holds Eq w.wireDatagrams (batch.map Outgoing.frame)
  peers : w.peers = batch.map Outgoing.peer
  traffic : w.traffic = batch.map Outgoing.traffic
  payloadLengths : w.payloadLengths = batch.map Outgoing.payloadLength

def SameReads (w w' : TunWorker) : Prop :=
  w'.packets = w.packets ∧ w'.packetLengths = w.packetLengths

section Slots

variable {lib : Libraries} {w : TunWorker} {batch : List Outgoing}

theorem Aligned.rewrite (h : Aligned w batch) (datagrams : Vector Bytes udpBatchSize)
    (frame : Bytes) :
    Aligned { w with
      datagrams
      wireDatagrams := w.wireDatagrams.setIfInBounds batch.length frame } batch := by
  refine ⟨h.frames.rewrite ?_ frame, h.peers, h.traffic, h.payloadLengths⟩
  rw [List.length_map]

theorem Aligned.push (h : Aligned w batch) (hlt : batch.length < udpBatchSize)
    (datagrams : Vector Bytes udpBatchSize) (o : Outgoing) :
    Aligned { w with
      datagrams
      wireDatagrams := w.wireDatagrams.setIfInBounds batch.length o.frame
      peers := w.peers ++ [o.peer]
      traffic := w.traffic ++ [o.traffic]
      payloadLengths := w.payloadLengths ++ [o.payloadLength] } (batch ++ [o]) := by
  have hframes := h.frames
  rw [← List.length_map Outgoing.frame] at hlt
  refine ⟨?_, ?_, ?_, ?_⟩
  · rw [List.map_append, List.map_singleton, ← List.length_map Outgoing.frame]
    exact hframes.push hlt rfl
  · rw [List.map_append, h.peers]
    rfl
  · rw [List.map_append, h.traffic]
    rfl
  · rw [List.map_append, h.payloadLengths]
    rfl

theorem encodeServer_eq_none {calls : SpeedyCodec → List SpeedyCodec.Call} {wire : WireMode}
    {inner output buffer : Bytes} {sources : FrameSources}
    (h : wire.encodeServerInto lib calls inner sources output = (buffer, .error ())) :
    wire.encodeServer lib inner sources = none := by
  cases hf : wire.encodeServer lib inner sources with
  | none => rfl
  | some frame =>
    rw [(WireMode.encodeServerInto_ok_iff lib calls output).mpr hf] at h
    cases h

theorem Aligned.encodeFor (h : Aligned w batch) (hlt : batch.length < udpBatchSize)
    (read : TunRead) (ip : Ipv4Packet) (p : ℕ) (peer : SocketAddr) (st : ServerState) :
    let r := encodeTo lib read ip p peer st
    ∃ w', w.encodeFor lib batch.length read ip p peer st =
        some (w', (batch ++ r.2.toList).length, r.1) ∧
      Aligned w' (batch ++ r.2.toList) ∧ SameReads w w' := by
  simp only [TunWorker.encodeFor, encodeTo, encodeTunPacket]
  cases hs : st.heap[p]? with
  | none => exact ⟨w, by simp, by simpa using h, rfl, rfl⟩
  | some s =>
    simp only [Vector.getElem?_eq_getElem hlt]
    rcases s.outbound.encodeIpInto_stale ip.bytes w.datagrams[batch.length] [] with
      ⟨outbound, buffer, buffer', e, hstale, hfresh⟩ | ⟨outbound, datagram, hstale, hfresh⟩
    · rw [hstale, hfresh]
      simp only [Option.map_none, Option.toList_none, List.append_nil]
      exact ⟨_, rfl, ⟨h.frames, h.peers, h.traffic, h.payloadLengths⟩, rfl, rfl⟩
    · rw [hstale, hfresh]
      simp only
      rcases hwire : s.wire.encodeServerInto lib read.calls datagram read.sources
        w.wireDatagrams[batch.length] with ⟨frame, ⟨⟩ | ⟨⟩⟩
      · rw [encodeServer_eq_none hwire]
        simp only [Option.map_none, Option.toList_none, List.append_nil]
        exact ⟨_, rfl, h.rewrite _ frame, rfl, rfl⟩
      · rw [(WireMode.encodeServerInto_ok_iff lib read.calls _).mp hwire]
        simp only [Option.map_some, Option.toList_some, List.length_append, List.length_singleton]
        exact ⟨_, rfl, h.push hlt _ ⟨peer, datagram, frame, s.traffic, ip.bytes.length⟩, rfl, rfl⟩

theorem Aligned.handleIndex (lib : Libraries) (h : Aligned w batch)
    (hlt : batch.length < udpBatchSize) {index : ℕ} {read : TunRead}
    (hpacket : w.packetAt index = some read.packet) (st : ServerState) :
    let r := serve lib st read
    ∃ w', w.handleIndex lib batch.length index read st =
        some (w', (batch ++ r.2.toList).length, r.1) ∧
      Aligned w' (batch ++ r.2.toList) ∧ SameReads w w' := by
  have hskip : ∀ st : ServerState, ∃ w', some (w, batch.length, st) =
      some (w', (batch ++ (none : Option Outgoing).toList).length, st) ∧
      Aligned w' (batch ++ (none : Option Outgoing).toList) ∧ SameReads w w' := by
    intro st
    simp only [Option.toList_none, List.append_nil]
    exact ⟨w, rfl, h, rfl, rfl⟩
  simp only [TunWorker.handleIndex, hpacket, serve]
  cases Ipv4Packet.parse read.packet with
  | error e => exact hskip _
  | ok ip =>
    simp only
    cases (read.atFind st).sessions.byAddress.lookup ip.destination with
    | none => exact hskip _
    | some p =>
      simp only
      by_cases hactive : (!(read.atCheck st).isActive p) = true
      · rw [if_pos hactive, if_pos hactive]
        exact hskip _
      · rw [if_neg hactive, if_neg hactive]
        cases (read.atPeer st).heap[p]? with
        | none => exact hskip _
        | some found => exact h.encodeFor hlt read ip p found.peer (read.atEncode st)

theorem SameReads.packetAt {w' : TunWorker} (h : SameReads w w') (index : ℕ) :
    w'.packetAt index = w.packetAt index := by
  rw [TunWorker.packetAt, TunWorker.packetAt, h.1, h.2]

theorem length_passed_le (st : ServerState) (reads : List TunRead) :
    (passed lib st reads).length ≤ reads.length := by
  calc (passed lib st reads).length
      ≤ (Machine.observe (serve lib) (fun st read => (serve lib st read).2) st reads).length :=
        List.reduceOption_length_le _
    _ = reads.length := Machine.observe_length _ _ st reads

theorem Aligned.handleFrom (lib : Libraries) (h : Aligned w batch) (reads : List TunRead)
    (index : ℕ)
    (hpackets : ∀ (i : ℕ) (read : TunRead), reads[i]? = some read →
      w.packetAt (index + i) = some read.packet)
    (hroom : batch.length + reads.length ≤ udpBatchSize) (st : ServerState) :
    ∃ w', w.handleFrom lib batch.length index st reads =
        some (w', (batch ++ passed lib st reads).length, Machine.run (serve lib) st reads) ∧
      Aligned w' (batch ++ passed lib st reads) := by
  induction reads generalizing w batch index st with
  | nil =>
    have hnone : passed lib st [] = [] := rfl
    rw [hnone, List.append_nil]
    exact ⟨w, rfl, h⟩
  | cons read reads ih =>
    rw [List.length_cons] at hroom
    have hpacket : w.packetAt index = some read.packet := hpackets 0 read rfl
    obtain ⟨w', hturn, haligned, hsame⟩ := h.handleIndex lib (by omega) hpacket st
    have hlater : ∀ (i : ℕ) (read : TunRead), reads[i]? = some read →
        w'.packetAt (index + 1 + i) = some read.packet := by
      intro i later hi
      rw [hsame.packetAt, Nat.add_assoc, Nat.add_comm 1 i]
      exact hpackets (i + 1) later hi
    have hshort : (serve lib st read).2.toList.length ≤ 1 := by
      cases (serve lib st read).2 <;> simp
    obtain ⟨w'', hrest, haligned'⟩ := ih haligned (index + 1) hlater
      (by rw [List.length_append]; omega) (serve lib st read).1
    rw [passed_cons, ← List.append_assoc]
    refine ⟨w'', ?_, haligned'⟩
    simp only [TunWorker.handleFrom, hturn, hrest, Machine.run_cons]

structure Received (w : TunWorker) (reads : List TunRead) : Prop where
  packets : Slots.Holds
    (fun buffer (read : TunRead) => buffer.toList.take read.packet.length = read.packet)
    w.packets reads
  lengths : Slots.Holds (fun length (read : TunRead) => length = read.packet.length)
    w.packetLengths reads

theorem Received.packetAt {reads : List TunRead} (h : Received w reads) {index : ℕ}
    {read : TunRead} (hr : reads[index]? = some read) : w.packetAt index = some read.packet := by
  obtain ⟨buffer, hbuffer, hbytes⟩ := h.packets index read hr
  obtain ⟨length, hlength, heq⟩ := h.lengths index read hr
  simp only [TunWorker.packetAt, hbuffer, hlength]
  rw [heq, if_pos read.fits, hbytes]

theorem Received.receiveFrom {done : List TunRead} (h : Received w done) (reads : List TunRead) :
    let taken := done ++ reads.take (udpBatchSize - done.length)
    (w.receiveFrom done.length reads).2 = taken.length ∧
      Received (w.receiveFrom done.length reads).1 taken := by
  induction reads generalizing w done with
  | nil => simpa [TunWorker.receiveFrom] using h
  | cons read reads ih =>
    simp only [TunWorker.receiveFrom]
    by_cases hlt : done.length < udpBatchSize
    · rw [dif_pos hlt]
      have hnext : Received
          { w with
            packets := w.packets.setIfInBounds done.length
              (Slots.fill (w.packets.get ⟨done.length, hlt⟩) read.packet)
            packetLengths := w.packetLengths.setIfInBounds done.length read.packet.length }
          (done ++ [read]) :=
        ⟨h.packets.push hlt (Slots.take_fill _ read.fits), h.lengths.push hlt rfl⟩
      have hrest := ih hnext
      rw [List.length_append, List.length_singleton] at hrest
      have htake : done ++ List.take (udpBatchSize - done.length) (read :: reads) =
          done ++ [read] ++ reads.take (udpBatchSize - (done.length + 1)) := by
        obtain ⟨k, hk⟩ : ∃ k, udpBatchSize - done.length = k + 1 :=
          ⟨udpBatchSize - done.length - 1, by omega⟩
        have hk' : udpBatchSize - (done.length + 1) = k := by omega
        rw [hk, hk', List.take_succ_cons, List.append_assoc, List.singleton_append]
      rw [htake]
      exact hrest
    · rw [dif_neg hlt, Nat.sub_eq_zero_of_le (by omega), List.take_zero, List.append_nil]
      exact ⟨rfl, h⟩

theorem Aligned.sendServerBatch (h : Aligned w batch) (hle : batch.length ≤ udpBatchSize) :
    sendServerBatch w.wireDatagrams w.peers batch.length =
      some (batch.map fun o => (o.frame, some o.peer)) := by
  rw [Server.sendServerBatch, if_pos hle, Option.some.injEq]
  apply List.ext_getElem?
  intro j
  rw [List.getElem?_map, List.getElem?_map]
  by_cases hj : j < batch.length
  · have ho := List.getElem?_eq_getElem hj
    obtain ⟨frame, hframe, heq⟩ := h.frames j batch[j].frame (by rw [List.getElem?_map, ho]; rfl)
    rw [List.getElem?_range hj, ho, Option.map_some, Option.map_some, hframe, heq, h.peers,
      List.getElem?_map, ho]
    rfl
  · rw [List.getElem?_eq_none (by simpa using hj), List.getElem?_eq_none (by simpa using hj)]
    rfl

theorem Aligned.recordDownloads (h : Aligned w batch) {sent : ℕ} (hle : sent ≤ batch.length) :
    recordDownloads sent w.traffic w.payloadLengths =
      some ((batch.take sent).map fun o => .addDownload o.traffic o.payloadLength) := by
  induction sent with
  | zero => rfl
  | succ sent ih =>
    have hlt : sent < batch.length := hle
    have hlast : recordDownload w.traffic w.payloadLengths sent =
        some (.addDownload batch[sent].traffic batch[sent].payloadLength) := by
      rw [recordDownload, h.traffic, h.payloadLengths, List.getElem?_map, List.getElem?_map,
        List.getElem?_eq_getElem hlt]
      rfl
    have hpast := ih (Nat.le_of_lt hlt)
    unfold Server.recordDownloads at hpast ⊢
    rw [List.range_succ, List.mapM_append, hpast, List.mapM_cons, hlast, List.take_add_one,
      List.getElem?_eq_getElem hlt, List.map_append]
    rfl

theorem TunWorker.round_eq (lib : Libraries) (w : TunWorker) (available : List TunRead)
    (outcome : SendOutcome) (st : ServerState) {batch : List Outgoing}
    (hbatch : passed lib st (available.take udpBatchSize) = batch)
    (hcount : ∀ count, outcome.count = some count → count ≤ batch.length) :
    ∃ w', w.round lib available outcome st =
      some (w', Machine.run (serve lib) st (available.take udpBatchSize),
        ⟨batch.map fun o => (o.frame, some o.peer),
          (batch.take (outcome.count.getD 0)).map fun o =>
            .addDownload o.traffic o.payloadLength⟩) := by
  have hempty : Received w [] := ⟨Slots.holds_nil _ _, Slots.holds_nil _ _⟩
  obtain ⟨hcountRead, hreceived⟩ := hempty.receiveFrom available
  rw [List.nil_append, List.length_nil, Nat.sub_zero] at hcountRead hreceived
  have hreads : available.take (w.receiveFrom 0 available).2 = available.take udpBatchSize := by
    rw [hcountRead, List.length_take, List.take_eq_take_iff, Nat.min_assoc, Nat.min_self]
  have hle : batch.length ≤ udpBatchSize := by
    rw [← hbatch]
    exact (length_passed_le st _).trans (List.length_take_le _ _)
  have hfront : Aligned { (w.receiveFrom 0 available).1 with
      peers := [], traffic := [], payloadLengths := [] } [] :=
    ⟨Slots.holds_nil _ _, rfl, rfl, rfl⟩
  have hslots : ∀ (i : ℕ) (read : TunRead), (available.take udpBatchSize)[i]? = some read →
      TunWorker.packetAt { (w.receiveFrom 0 available).1 with
        peers := [], traffic := [], payloadLengths := [] } (0 + i) = some read.packet := by
    intro i read hi
    rw [Nat.zero_add]
    exact hreceived.packetAt hi
  have hroom : ([] : List Outgoing).length + (available.take udpBatchSize).length ≤
      udpBatchSize := by
    rw [List.length_nil, Nat.zero_add]
    exact List.length_take_le _ _
  obtain ⟨w', hhandled, haligned⟩ := hfront.handleFrom lib _ 0 hslots hroom st
  rw [List.nil_append, hbatch, List.length_nil] at hhandled
  rw [List.nil_append, hbatch] at haligned
  simp only [TunWorker.round, hreads, hhandled]
  by_cases hnone : batch.length = 0
  · rw [if_pos hnone, List.length_eq_zero_iff.mp hnone, List.take_nil]
    exact ⟨w', rfl⟩
  · simp only [if_neg hnone, haligned.sendServerBatch hle]
    cases hsent : outcome.count with
    | none => exact ⟨w', rfl⟩
    | some sent =>
      simp only [haligned.recordDownloads (hcount sent hsent)]
      exact ⟨w', rfl⟩

end Slots

/-- For every batch, over whatever the slots held before: the kernel is handed, in order, the
frames of the packets that pass, each for the peer of its session, and of the datagrams that it
reports as sent the lengths are credited, each to the device of its session. -/
theorem downlink_aligned (lib : Libraries) (config : ValidatedServerConfig) (w : TunWorker)
    (available : List TunRead) (st : ServerState) :
    let reads := available.take udpBatchSize
    let batch := passed lib st reads
    (∀ outcome : SendOutcome, (∀ count, outcome.count = some count → count ≤ batch.length) →
      ∃ w', w.round lib available outcome st =
        some (w', Machine.run (serve lib) st reads,
          ⟨batch.map fun o => (o.frame, some o.peer),
            (batch.take (outcome.count.getD 0)).map fun o =>
              .addDownload o.traffic o.payloadLength⟩)) ∧
    (∀ st read o, (serve lib st read).2 = some o ↔
      ∃ ip p found s, Passes lib st read o ip p found s) ∧
    (∀ file seeds tunnelAddress prefixLen persist registry,
      DeviceRegistry.open lib file seeds tunnelAddress prefixLen persist = .ok registry →
      ∀ ms st read o ip p found s, Passes lib st read o ip p found s →
        read.atEncode st = (System.after config lib registry ms).core →
        o.traffic = encodePublicKey lib s.noiseKey) := by
  refine ⟨?_, ?_, ?_⟩
  · intro outcome hcount
    exact w.round_eq lib available outcome st rfl hcount
  · intro st read o
    exact serve_eq_some
  · intro file seeds tunnelAddress prefixLen persist registry hopen ms st read o ip p found s
      hpasses hreached
    have hnamed := DeviceRegistry.named_of_consistent (Consistent.of_open hopen)
    have howned := System.after_owned lib config hnamed ms
    have hs := hpasses.session
    rw [hreached] at hs
    rw [hpasses.traffic]
    exact howned.sessions p s hs

end MouseVpn.Server
