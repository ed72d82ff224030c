import MouseVpn.Windows.Capture
import MouseVpn.Windows.RoundTrip

/-!
# Every captured packet is handled once

The staging buffers hold a list of packets with their addresses. While the loop cuts a batch, the
flushes so far together with the staged packets are the packets that stay on the physical link, and
the remembered ranges hold the routed ones.
-/

namespace MouseVpn.Windows

open MouseVpn.Lib

variable {α : Type}

structure Fits (staged : List (Bytes × α)) : Prop where
  count : staged.length ≤ batchMax
  size : (staged.flatMap Prod.fst).length ≤ captureBuffer
  nonempty : ∀ x ∈ staged, x.1 ≠ []

structure Flush (α : Type) where
  group : List (Bytes × α)
  refused : Bool
  some_packet : group ≠ []
  fits : Fits group

def Flush.calls (f : Flush α) : List (DriverCall α) :=
  .sendBatch (f.group.flatMap Prod.fst) (f.group.map Prod.snd) f.refused ::
    if f.refused then f.group.map fun x => .send x.1 x.2 else []

namespace Reinject

def ofStaged (staged : List (Bytes × α)) : Reinject α :=
  ⟨staged.flatMap Prod.fst, staged.map Prod.snd, staged.map fun x => x.1.length⟩

structure Wf (r : Reinject α) : Prop where
  sum : r.lengths.sum = r.packets.length
  paired : r.lengths.length = r.addresses.length
  count : r.addresses.length ≤ batchMax
  size : r.packets.length ≤ captureBuffer

theorem wf_ofStaged {staged : List (Bytes × α)} (h : Fits staged) : (ofStaged staged).Wf :=
  { sum := by simp [ofStaged, List.length_flatMap]
    paired := by simp [ofStaged]
    count := by simpa [ofStaged] using h.count
    size := h.size }

theorem push_ofStaged (staged : List (Bytes × α)) (packet : Bytes) (address : α) :
    (ofStaged staged).push packet address = ofStaged (staged ++ [(packet, address)]) := by
  simp [push, ofStaged]

theorem slice_append (before middle after : Bytes) :
    slice (before ++ (middle ++ after)) (before.length, before.length + middle.length) =
      middle := by
  rw [slice, List.drop_left, Nat.add_sub_cancel_left, List.take_left]

theorem sendEach_ofStaged (before : Bytes) (staged : List (Bytes × α)) :
    sendEach (before ++ staged.flatMap Prod.fst) before.length
      ((staged.map fun x => x.1.length).zip (staged.map Prod.snd)) =
      staged.map fun x => .send x.1 x.2 := by
  induction staged generalizing before with
  | nil => rfl
  | cons x staged ih =>
    have hstop : min (before.length + x.1.length)
        (before ++ (x :: staged).flatMap Prod.fst).length = (before ++ x.1).length := by
      simp only [List.length_append, List.flatMap_cons]
      omega
    simp only [List.map_cons, List.zip_cons_cons, sendEach, hstop]
    rw [List.flatMap_cons, List.length_append, slice_append, ← List.append_assoc,
      ← List.length_append, ih]

theorem flushIndividually_ofStaged (staged : List (Bytes × α)) :
    (ofStaged staged).flushIndividually = staged.map fun x => .send x.1 x.2 :=
  sendEach_ofStaged [] staged

theorem flush_ofStaged (refuses : List (DriverCall α) → Bool) (calls : List (DriverCall α))
    {staged : List (Bytes × α)} (h : Fits staged) :
    ∃ flushes : List (Flush α), (ofStaged staged).flush refuses calls =
      (ofStaged [], calls ++ flushes.flatMap Flush.calls) ∧
      flushes.flatMap Flush.group = staged := by
  cases staged with
  | nil => exact ⟨[], by simp [flush, ofStaged], rfl⟩
  | cons x staged =>
    refine ⟨[⟨x :: staged, refuses calls, List.cons_ne_nil x staged, h⟩], ?_, by simp⟩
    have hx := h.nonempty x List.mem_cons_self
    have hsend : sendBatch refuses calls (ofStaged (x :: staged)).packets
        (ofStaged (x :: staged)).addresses =
        (calls ++ [.sendBatch ((x :: staged).flatMap Prod.fst) ((x :: staged).map Prod.snd)
          (refuses calls)], !refuses calls) := by
      simp [sendBatch, ofStaged, hx]
    have hne : (ofStaged (x :: staged)).addresses.isEmpty = false := rfl
    rw [flush, hne, hsend, flushIndividually_ofStaged]
    cases hrefused : refuses calls <;> simp [Flush.calls, new, ofStaged]

theorem stage_ofStaged (refuses : List (DriverCall α) → Bool) (calls : List (DriverCall α))
    {staged : List (Bytes × α)} (h : Fits staged) {packet : Bytes} (address : α)
    (hpacket : packet ≠ []) (hsize : packet.length ≤ captureBuffer) :
    ∃ (flushes : List (Flush α)) (staged' : List (Bytes × α)),
      (ofStaged staged).stage refuses calls packet address =
        (ofStaged staged', calls ++ flushes.flatMap Flush.calls) ∧
      flushes.flatMap Flush.group ++ staged' = staged ++ [(packet, address)] ∧ Fits staged' := by
  rw [stage]
  by_cases hfull : (ofStaged staged).isFull packet.length = true
  · obtain ⟨flushes, hflush, hgroups⟩ := flush_ofStaged refuses calls h
    refine ⟨flushes, [(packet, address)], ?_, by rw [hgroups], ?_⟩
    · rw [if_pos hfull, hflush, push_ofStaged]
      rfl
    · exact
        { count := by simp [batchMax]
          size := by simpa using hsize
          nonempty := by simpa using hpacket }
  · refine ⟨[], staged ++ [(packet, address)], ?_, rfl, ?_⟩
    · rw [if_neg hfull, push_ofStaged]
      simp
    · simp only [isFull, ofStaged, List.length_map, ge_iff_le, gt_iff_lt, decide_eq_true_eq, not_or,
        not_le, not_lt] at hfull
      exact
        { count := by
            rw [List.length_append]
            exact hfull.1
          size := by
            rw [List.flatMap_append, List.length_append]
            simpa using hfull.2
          nonempty := by
            intro x hx
            rcases List.mem_append.mp hx with hx | hx
            · exact h.nonempty x hx
            · rw [List.mem_singleton.mp hx]
              exact hpacket }

end Reinject

structure Captured (α : Type) where
  packet : Bytes
  address : α
  table : FlowTable

namespace Captured

def prepared (translation : Translation) (c : Captured α) : Bytes × Outcome :=
  prepareOutbound c.packet c.table translation

def passed (translation : Translation) (cs : List (Captured α)) : List (Bytes × α) :=
  (cs.filter fun c => (c.prepared translation).2 = .passThrough).map fun c => (c.packet, c.address)

def routed (d : Driver α) (translation : Translation) (cs : List (Captured α)) : List Bytes :=
  (cs.filter fun c => (c.prepared translation).2 = .tunnel).map fun c =>
    (d.calcChecksums (c.prepared translation).1 c.address).1

/-- The driver calculates the checksums if the packet goes into the tunnel. -/
def Checksummed (d : Driver α) (translation : Translation) (c : Captured α) : Prop :=
  (c.prepared translation).2 = .tunnel →
    (d.calcChecksums (c.prepared translation).1 c.address).2 = true

end Captured

def bytesOf (cs : List (Captured α)) : Bytes := cs.flatMap Captured.packet

def entriesOf (cs : List (Captured α)) : List (α × FlowTable) :=
  cs.map fun c => (c.address, c.table)

structure Batch.SplitsInto (d : Driver α) (batch : Batch α) (cs : List (Captured α)) : Prop where
  data : batch.data = bytesOf cs
  entries : batch.entries = entriesOf cs
  lengths : ∀ before c after, cs = before ++ c :: after →
    d.firstPacketLen (c.packet ++ bytesOf after) = some c.packet.length

theorem Driver.firstPacketLen_pos (d : Driver α) {bytes : Bytes} {length : ℕ}
    (h : d.firstPacketLen bytes = some length) : 0 < length := by
  rw [firstPacketLen] at h
  cases hparse : d.parsePacket bytes with
  | none => simp [hparse] at h
  | some remainder =>
    simp only [hparse] at h
    split_ifs at h with hlt
    have := Option.some.inj h
    omega

namespace Capture

theorem slice_within {before after after' : Bytes} {range : ℕ × ℕ} (h : range.2 ≤ before.length) :
    slice (before ++ after) range = slice (before ++ after') range := by
  refine List.ext_getElem? fun i => ?_
  simp only [slice, List.getElem?_take, List.getElem?_drop]
  split_ifs with hi
  · rw [List.getElem?_append_left (by omega), List.getElem?_append_left (by omega)]
  · rfl

theorem overwrite_middle (before after : Bytes) {old new : Bytes} (h : new.length = old.length) :
    Vec.overwrite (before ++ (old ++ after)) before.length new = before ++ (new ++ after) := by
  rw [Vec.overwrite, List.take_left, h, ← List.drop_drop, List.drop_left, List.drop_left,
    List.append_assoc]

/-- What the loop has done with the first packets of a batch: `done` is cut, `rest` is not. -/
structure Progress (d : Driver α) (translation : Translation) (calls : List (DriverCall α))
    (done : List (Captured α)) (rest tail : Bytes) (s : Capture α) : Prop where
  buffer : ∃ before, before.length = s.offset ∧ s.buffer = before ++ (rest ++ tail)
  offset : s.offset = (bytesOf done).length
  ranges : ∀ range ∈ s.tunnelled, range.2 ≤ s.offset
  routed : s.tunnelled.map (slice s.buffer) = Captured.routed d translation done
  staged : ∃ (flushes : List (Flush α)) (staged : List (Bytes × α)),
    s.calls = calls ++ flushes.flatMap Flush.calls ∧ s.reinject = .ofStaged staged ∧
    flushes.flatMap Flush.group ++ staged = Captured.passed translation done ∧ Fits staged

section Step

variable {d : Driver α} {translation : Translation} {calls : List (DriverCall α)}
  {done : List (Captured α)} {c : Captured α} {rest tail : Bytes} {s : Capture α}

theorem Progress.slice_eq (h : Progress d translation calls done (c.packet ++ rest) tail s) :
    slice s.buffer (s.offset, s.offset + c.packet.length) = c.packet := by
  obtain ⟨before, hoffset, hbuffer⟩ := h.buffer
  rw [hbuffer, ← hoffset, List.append_assoc]
  exact Reinject.slice_append ..

theorem Progress.edit (h : Progress d translation calls done (c.packet ++ rest) tail s)
    {e : Bytes} (hedited : e.length = c.packet.length) {buffer : Bytes}
    (hbuffer : buffer = Vec.overwrite s.buffer s.offset e) :
    (∃ before, before.length = s.offset + c.packet.length ∧ buffer = before ++ (rest ++ tail)) ∧
    s.tunnelled.map (slice buffer) = Captured.routed d translation done ∧
    slice buffer (s.offset, s.offset + c.packet.length) = e := by
  obtain ⟨before, hoffset, hbefore⟩ := h.buffer
  rw [hbefore, ← hoffset, List.append_assoc, overwrite_middle before _ hedited] at hbuffer
  refine ⟨⟨before ++ e, ?_, ?_⟩, ?_, ?_⟩
  · rw [List.length_append, hoffset, hedited]
  · rw [hbuffer, List.append_assoc]
  · rw [← h.routed]
    refine List.map_congr_left fun range hrange => ?_
    rw [hbuffer, hbefore]
    exact slice_within ((h.ranges range hrange).trans_eq hoffset.symm)
  · rw [hbuffer, ← hoffset, ← hedited]
    exact Reinject.slice_append ..

theorem passed_concat (translation : Translation) (done : List (Captured α)) (c : Captured α) :
    Captured.passed translation (done ++ [c]) =
    Captured.passed translation done ++
      if (c.prepared translation).2 = .passThrough then [(c.packet, c.address)] else [] := by
  rw [Captured.passed, List.filter_append, List.map_append]
  split_ifs with h <;> simp [Captured.passed, h]

theorem routed_concat (d : Driver α) (translation : Translation) (done : List (Captured α))
    (c : Captured α) : Captured.routed d translation (done ++ [c]) =
    Captured.routed d translation done ++
      if (c.prepared translation).2 = .tunnel then
        [(d.calcChecksums (c.prepared translation).1 c.address).1] else [] := by
  rw [Captured.routed, List.filter_append, List.map_append]
  split_ifs with h <;> simp [Captured.routed, h]

theorem prepared_bytes (c : Captured α) (translation : Translation) :
    ((c.prepared translation).2 ≠ .tunnel → (c.prepared translation).1 = c.packet) ∧
    (c.prepared translation).1.length = c.packet.length := by
  rcases prepareOutbound_cases c.packet c.table translation with
    ⟨-, hsame⟩ | ⟨packet, ports, translated, hin, hparse, -, -, htranslated, heq⟩
  · exact ⟨fun _ => hsame, congrArg List.length hsame⟩
  · rw [Captured.prepared, heq]
    refine ⟨fun h => absurd rfl h, ?_⟩
    rw [Packet.length_clampMss, htranslated, ← (parse_self hparse).1]
    exact Vec.overwrite_length hin

theorem bytesOf_concat (done : List (Captured α)) (c : Captured α) :
    (bytesOf (done ++ [c])).length = (bytesOf done).length + c.packet.length := by
  simp [bytesOf]

theorem Progress.skip (h : Progress d translation calls done (c.packet ++ rest) tail s)
    {e : Bytes} (hedited : e.length = c.packet.length) {ranges : List (ℕ × ℕ)}
    (hranges : ∀ range ∈ ranges, range = (s.offset, s.offset + c.packet.length))
    (hpass : (c.prepared translation).2 ≠ .passThrough)
    (hrouted : Captured.routed d translation (done ++ [c]) =
      Captured.routed d translation done ++ ranges.map fun _ => e) :
    Progress d translation calls (done ++ [c]) rest tail
      { s with
        buffer := Vec.overwrite s.buffer s.offset e
        offset := s.offset + c.packet.length
        tunnelled := s.tunnelled ++ ranges } := by
  obtain ⟨hbuffer, hold, hnew⟩ := h.edit hedited rfl
  obtain ⟨flushes, staged, hcalls, hreinject, hgroups, hfits⟩ := h.staged
  refine ⟨hbuffer, ?_, ?_, ?_, flushes, staged, hcalls, hreinject, ?_, hfits⟩
  · rw [bytesOf_concat, ← h.offset]
  · intro range hrange
    rcases List.mem_append.mp hrange with hrange | hrange
    · exact (h.ranges range hrange).trans (Nat.le_add_right ..)
    · rw [hranges range hrange]
  · rw [List.map_append, hrouted, hold]
    refine congrArg _ (List.map_congr_left fun range hrange => ?_)
    rw [hranges range hrange]
    exact hnew
  · rw [passed_concat, if_neg hpass, List.append_nil, hgroups]

theorem Progress.stage (h : Progress d translation calls done (c.packet ++ rest) tail s)
    (hpacket : c.packet ≠ []) (hsize : c.packet.length ≤ captureBuffer)
    (hpass : (c.prepared translation).2 = .passThrough) :
    Progress d translation calls (done ++ [c]) rest tail
      { s with
        buffer := Vec.overwrite s.buffer s.offset c.packet
        offset := s.offset + c.packet.length
        reinject := (s.reinject.stage d.refuses s.calls c.packet c.address).1
        calls := (s.reinject.stage d.refuses s.calls c.packet c.address).2 } := by
  obtain ⟨hbuffer, hold, -⟩ := h.edit (e := c.packet) rfl rfl
  obtain ⟨flushes, staged, hcalls, hreinject, hgroups, hfits⟩ := h.staged
  obtain ⟨more, staged', hstage, hmore, hfits'⟩ :=
    Reinject.stage_ofStaged d.refuses s.calls hfits c.address hpacket hsize
  rw [hreinject, hstage]
  refine ⟨hbuffer, ?_, ?_, ?_, flushes ++ more, staged', ?_, rfl, ?_, hfits'⟩
  · rw [bytesOf_concat, ← h.offset]
  · exact fun range hrange => (h.ranges range hrange).trans (Nat.le_add_right ..)
  · rw [routed_concat, if_neg (by rw [hpass]; nofun), List.append_nil]
    exact hold
  · rw [hcalls, List.flatMap_append, List.append_assoc]
  · rw [List.flatMap_append, List.append_assoc, hmore, ← List.append_assoc, hgroups,
      passed_concat, if_pos hpass]

theorem Progress.handle (h : Progress d translation calls done (c.packet ++ rest) tail s)
    (hpacket : c.packet ≠ []) (hsize : c.packet.length ≤ captureBuffer) {bytes : ℕ}
    (hbytes : s.offset + c.packet.length ≤ bytes)
    (hchecksums : c.Checksummed d translation) :
    Progress d translation calls (done ++ [c]) rest tail
      (s.handle d translation bytes c.packet.length c.address c.table) := by
  obtain ⟨hsame, hlength⟩ := prepared_bytes c translation
  have hrouted := routed_concat d translation done c
  rw [Capture.handle, Nat.min_eq_left hbytes, h.slice_eq]
  cases hc : prepareOutbound c.packet c.table translation with
  | mk packet outcome =>
  have hprepared : c.prepared translation = (packet, outcome) := hc
  rw [Captured.Checksummed, hprepared] at hchecksums
  rw [hprepared] at hsame hlength hrouted
  cases outcome with
  | passThrough =>
    obtain rfl : packet = c.packet := hsame nofun
    exact h.stage hpacket hsize (by rw [hprepared])
  | discard =>
    have hskip := h.skip hlength (List.forall_mem_nil _) (by rw [hprepared]; nofun)
      (by simpa using hrouted)
    rw [List.append_nil] at hskip
    exact hskip
  | tunnel =>
    replace hchecksums := hchecksums rfl
    have hchecked := (d.inPlace packet c.address).trans hlength
    revert hrouted hchecked hchecksums
    dsimp only
    generalize d.calcChecksums packet c.address = checked
    intro hrouted hchecksums hchecked
    obtain ⟨checked, ok⟩ := checked
    obtain rfl : ok = true := hchecksums
    refine h.skip hchecked (List.forall_mem_singleton.mpr rfl) (by rw [hprepared]; nofun) ?_
    simpa using hrouted

theorem Progress.scan {cs : List (Captured α)} {more : Bytes}
    (h : Progress d translation calls done (bytesOf cs ++ more) tail s) {bytes : ℕ}
    (hbytes : bytes = s.offset + (bytesOf cs ++ more).length) (hfit : bytes ≤ captureBuffer)
    (hlengths : ∀ before c after, cs = before ++ c :: after →
      d.firstPacketLen (c.packet ++ (bytesOf after ++ more)) = some c.packet.length)
    (hchecksums : ∀ c ∈ cs, c.Checksummed d translation) :
    Progress d translation calls (done ++ cs) more tail
      (Capture.scan d translation bytes (entriesOf cs) s) := by
  induction cs generalizing done s with
  | nil => simpa [entriesOf, Capture.scan, bytesOf] using h
  | cons c cs ih =>
    have hbytesOf : bytesOf (c :: cs) ++ more = c.packet ++ (bytesOf cs ++ more) := by
      rw [bytesOf, List.flatMap_cons, List.append_assoc]
      rfl
    rw [hbytesOf] at h hbytes
    have hfirst := hlengths [] c cs rfl
    have hpos := d.firstPacketLen_pos hfirst
    have hpacket := List.length_pos_iff.mp hpos
    rw [List.length_append] at hbytes
    have hslice : slice s.buffer (s.offset, bytes) = c.packet ++ (bytesOf cs ++ more) := by
      obtain ⟨before, hoffset, hbuffer⟩ := h.buffer
      rw [hbuffer, hbytes, ← hoffset, ← List.length_append]
      exact Reinject.slice_append ..
    rw [entriesOf, List.map_cons, Capture.scan, if_neg (by omega), hslice, hfirst]
    have hstep := h.handle hpacket (by omega) (show s.offset + c.packet.length ≤ bytes by omega)
      (hchecksums c List.mem_cons_self)
    have hrest := ih hstep ?_ ?_ fun c' hc' => hchecksums c' (List.mem_cons_of_mem c hc')
    · rw [List.append_assoc] at hrest
      exact hrest
    · rw [hstep.offset, bytesOf_concat, ← h.offset, hbytes]
      omega
    · intro before c' after hcs
      exact hlengths (c :: before) c' after (by rw [hcs, List.cons_append])

end Step

structure Idle (s : Capture α) : Prop where
  reinject : s.reinject = .ofStaged []
  tunnelled : s.tunnelled = []
  buffer : s.buffer.length = captureBuffer

theorem idle_start : Idle (start : Capture α) :=
  ⟨rfl, rfl, List.length_replicate ..⟩

/-- The calls of one batch: the packets that stay are offered in batches, packet by packet
after a refusal, and then the routed ones go to the data plane. -/
def Handled (d : Driver α) (translation : Translation) (cs : List (Captured α))
    (log : List (DriverCall α)) : Prop :=
  ∃ flushes : List (Flush α),
    log = flushes.flatMap Flush.calls ++ (Captured.routed d translation cs).map .sink ∧
    flushes.flatMap Flush.group = Captured.passed translation cs

section Batches

variable {d : Driver α} {s : Capture α} {batch : Batch α} {cs : List (Captured α)}

theorem Idle.receive (h : Idle s) (batch : Batch α) :
    Progress d batch.translation s.calls [] batch.data (s.buffer.drop batch.data.length)
      (s.receive batch) := by
  refine ⟨⟨[], rfl, ?_⟩, rfl, ?_, ?_, [], [], ?_, h.reinject, rfl, ?_⟩
  · simp [Capture.receive, Vec.overwrite]
  · rw [Capture.receive, h.tunnelled]
    exact List.forall_mem_nil _
  · rw [Capture.receive, h.tunnelled]
    rfl
  · simp [Capture.receive]
  · exact ⟨Nat.zero_le _, Nat.zero_le _, List.forall_mem_nil _⟩

theorem Idle.scan_take (h : Idle s) (hsplit : batch.SplitsInto d cs)
    (hchecksums : ∀ c ∈ cs, c.Checksummed d batch.translation) (k : ℕ) :
    Progress d batch.translation s.calls (cs.take k) (bytesOf (cs.drop k))
      (s.buffer.drop batch.data.length)
      (scan d batch.translation batch.data.length (batch.entries.take k) (s.receive batch)) := by
  have hdata : batch.data = bytesOf (cs.take k) ++ bytesOf (cs.drop k) := by
    rw [hsplit.data, bytesOf, bytesOf, bytesOf, ← List.flatMap_append, List.take_append_drop]
  have hstart := h.receive (d := d) batch
  rw [hdata] at hstart
  have hlength : batch.data.length =
      (s.receive batch).offset + (bytesOf (cs.take k) ++ bytesOf (cs.drop k)).length := by
    rw [← hdata]
    exact (Nat.zero_add _).symm
  have hscan := hstart.scan hlength batch.fits ?_
    fun c hc => hchecksums c (List.mem_of_mem_take hc)
  · rw [List.nil_append, ← hdata] at hscan
    rw [hsplit.entries, entriesOf, ← List.map_take]
    exact hscan
  · intro before c after hcs
    have hwhole : cs = before ++ c :: (after ++ cs.drop k) := by
      rw [← List.cons_append, ← List.append_assoc, ← hcs, List.take_append_drop]
    rw [bytesOf, bytesOf, ← List.flatMap_append]
    exact hsplit.lengths before c _ hwhole

theorem Progress.finish {translation : Translation} {calls : List (DriverCall α)} {tail : Bytes}
    (h : Progress d translation calls cs [] tail s) :
    (s.finish d).reinject = .ofStaged [] ∧
      ∃ log, (s.finish d).calls = calls ++ log ∧ Handled d translation cs log := by
  obtain ⟨flushes, staged, hcalls, hreinject, hgroups, hfits⟩ := h.staged
  obtain ⟨last, hflush, hlast⟩ := Reinject.flush_ofStaged d.refuses s.calls hfits
  rw [Capture.finish, hreinject, hflush]
  refine ⟨rfl, _, ?_, flushes ++ last, rfl, ?_⟩
  · dsimp only
    rw [← h.routed, List.map_map, hcalls, List.flatMap_append, List.append_assoc, List.append_assoc,
      List.append_assoc]
    rfl
  · rw [List.flatMap_append, hlast, hgroups]

theorem Idle.capture (h : Idle s) (hsplit : batch.SplitsInto d cs)
    (hchecksums : ∀ c ∈ cs, c.Checksummed d batch.translation) :
    Idle (s.capture d batch) ∧
      ∃ log, (s.capture d batch).calls = s.calls ++ log ∧ Handled d batch.translation cs log := by
  have hscan := h.scan_take hsplit hchecksums cs.length
  have hentries : batch.entries.length = cs.length := by
    rw [hsplit.entries, entriesOf, List.length_map]
  rw [List.take_length, List.drop_length, ← hentries, List.take_length] at hscan
  obtain ⟨hreinject, hlog⟩ := hscan.finish
  refine ⟨⟨hreinject, rfl, ?_⟩, hlog⟩
  obtain ⟨before, hbefore, hbuffer⟩ := hscan.buffer
  have hfits := batch.fits
  have hsize := h.buffer
  have hoffset := hscan.offset
  rw [← hsplit.data] at hoffset
  refine (congrArg List.length hbuffer).trans ?_
  rw [List.length_append, List.length_append, List.length_drop, hbefore, hoffset]
  simp only [bytesOf, List.flatMap_nil, List.length_nil]
  omega

theorem Idle.run {batches : List (Batch α × List (Captured α))} (h : Idle s)
    (hsplit : ∀ b ∈ batches, b.1.SplitsInto d b.2)
    (hchecksums : ∀ b ∈ batches, ∀ c ∈ b.2, c.Checksummed d b.1.translation) :
    Idle ((batches.map Prod.fst).foldl (Capture.capture d) s) ∧
      ∃ logs : List (List (DriverCall α)),
        ((batches.map Prod.fst).foldl (Capture.capture d) s).calls = s.calls ++ logs.flatten ∧
        List.Forall₂ (fun b log => Handled d b.1.translation b.2 log) batches logs := by
  induction batches generalizing s with
  | nil => exact ⟨h, [], by simp, .nil⟩
  | cons b batches ih =>
    obtain ⟨hidle, log, hcalls, hhandled⟩ :=
      h.capture (hsplit b List.mem_cons_self) (hchecksums b List.mem_cons_self)
    obtain ⟨hend, logs, hmore, hall⟩ := ih hidle
      (fun b' hb => hsplit b' (List.mem_cons_of_mem b hb))
      (fun b' hb => hchecksums b' (List.mem_cons_of_mem b hb))
    refine ⟨hend, log :: logs, ?_, .cons hhandled hall⟩
    rw [List.map_cons, List.foldl_cons, hmore, hcalls, List.flatten_cons, List.append_assoc]

/-- Of every captured batch, each packet is handled once and in order: it is offered to the
driver as it was captured, goes to the data plane behind all of these, or is dropped. At every
packet the staged bytes are within the limits and are what the recorded lengths add up to. -/
theorem batches_handled_once (d : Driver α) (batches : List (Batch α × List (Captured α)))
    (hsplit : ∀ b ∈ batches, b.1.SplitsInto d b.2)
    (hchecksums : ∀ b ∈ batches, ∀ c ∈ b.2, c.Checksummed d b.1.translation) :
    (∃ logs : List (List (DriverCall α)),
      (Capture.run d (batches.map Prod.fst)).calls = logs.flatten ∧
      List.Forall₂ (fun b log => Handled d b.1.translation b.2 log) batches logs) ∧
    ∀ before b after, batches = before ++ b :: after → ∀ k,
      (scan d b.1.translation b.1.data.length (b.1.entries.take k)
        ((Capture.run d (before.map Prod.fst)).receive b.1)).reinject.Wf := by
  refine ⟨?_, ?_⟩
  · obtain ⟨-, logs, hcalls, hall⟩ := idle_start.run hsplit hchecksums
    exact ⟨logs, hcalls, hall⟩
  · intro before b after hbatches k
    have hb : b ∈ batches := by simp [hbatches]
    have hbefore : ∀ b' ∈ before, b' ∈ batches := by
      intro b' hb'
      simp [hbatches, hb']
    obtain ⟨hidle, -⟩ := idle_start.run (fun b' hb' => hsplit b' (hbefore b' hb'))
      (fun b' hb' => hchecksums b' (hbefore b' hb'))
    obtain ⟨flushes, staged, -, hreinject, -, hfits⟩ :=
      (hidle.scan_take (hsplit b hb) (hchecksums b hb) k).staged
    rw [Capture.run, hreinject]
    exact Reinject.wf_ofStaged hfits

end Batches

section Sample

def sampleDriver : Driver ℕ :=
  { parsePacket := fun bytes => if 44 ≤ bytes.length then some (bytes.length - 44) else none
    calcChecksums := fun packet _ => (packet, true)
    inPlace := fun _ _ => rfl
    refuses := fun calls => calls.isEmpty }

def sampleCaptured : List (Captured ℕ) :=
  [⟨multihomed.bytes, 1, multihomedTable⟩, ⟨multihomed.bytes, 2, ⟨∅⟩⟩]

def sampleBatch : Batch ℕ :=
  { data := bytesOf sampleCaptured
    entries := entriesOf sampleCaptured
    translation := sampleTranslation
    fits := by decide }

theorem sampleBatch_splits : sampleBatch.SplitsInto sampleDriver sampleCaptured := by
  refine ⟨rfl, rfl, fun before c after hcs => ?_⟩
  have hlength : ∀ c ∈ sampleCaptured, c.packet.length = 44 := by decide
  have hc := hlength c (by rw [hcs]; simp)
  simp [Driver.firstPacketLen, sampleDriver, hc]

theorem sampleBatch_handled :
    sampleBatch.SplitsInto sampleDriver sampleCaptured ∧
    ∃ logs : List (List (DriverCall ℕ)),
      (Capture.run sampleDriver [sampleBatch]).calls = logs.flatten ∧
      List.Forall₂ (fun b log => Handled sampleDriver b.1.translation b.2 log)
        [(sampleBatch, sampleCaptured)] logs := by
  refine ⟨sampleBatch_splits, ?_⟩
  have h := batches_handled_once sampleDriver [(sampleBatch, sampleCaptured)]
    (List.forall_mem_singleton.mpr sampleBatch_splits)
    (List.forall_mem_singleton.mpr fun _ _ _ => rfl)
  exact h.1

end Sample

end Capture

end MouseVpn.Windows
