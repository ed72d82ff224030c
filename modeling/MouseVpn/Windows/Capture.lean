import MouseVpn.Windows.Divert

/-!
# The capture loop of the split tunnel

The driver hands over a batch of packets in one buffer, without framing. The loop cuts it,
edits the routed packets in place and remembers where they are. The others are staged and
handed back to the driver in batches. A batch that the driver refuses is sent again packet by
packet. The routed packets go to the data plane at the end.
-/

namespace MouseVpn.Windows

open MouseVpn.Lib

def batchMax : ℕ := 0xFF

def captureBuffer : ℕ := 512 * 1024

inductive DriverCall (α : Type)
  | sendBatch (packets : Bytes) (addresses : List α) (refused : Bool)
  | send (packet : Bytes) (address : α)
  | sink (packet : Bytes)
  deriving DecidableEq

structure Reinject (α : Type) where
  packets : Bytes
  addresses : List α
  lengths : List ℕ

variable {α : Type}

/-- `&bytes[start..stop]`. -/
def slice (bytes : Bytes) (range : ℕ × ℕ) : Bytes := (bytes.drop range.1).take (range.2 - range.1)

/-- `Handle::send_batch`, for a driver that refuses batches depending on the calls before. -/
def sendBatch (refuses : List (DriverCall α) → Bool) (calls : List (DriverCall α)) (packets : Bytes)
    (addresses : List α) : List (DriverCall α) × Bool :=
  if addresses.isEmpty ∨ packets.isEmpty then (calls, true)
  else (calls ++ [.sendBatch packets addresses (refuses calls)], !refuses calls)

namespace Reinject

def new : Reinject α := ⟨[], [], []⟩

def isFull (r : Reinject α) (length : ℕ) : Bool :=
  r.addresses.length ≥ batchMax ∨ r.packets.length + length > captureBuffer

def push (r : Reinject α) (packet : Bytes) (address : α) : Reinject α :=
  ⟨r.packets ++ packet, r.addresses ++ [address], r.lengths ++ [packet.length]⟩

/-- The loop of `flush_individually`; whether a packet is lost is only counted. -/
def sendEach (packets : Bytes) : ℕ → List (ℕ × α) → List (DriverCall α)
  | _, [] => []
  | offset, (length, address) :: rest =>
    let stop := min (offset + length) packets.length
    .send (slice packets (offset, stop)) address :: sendEach packets stop rest

def flushIndividually (r : Reinject α) : List (DriverCall α) :=
  sendEach r.packets 0 (r.lengths.zip r.addresses)

def flush (refuses : List (DriverCall α) → Bool) (r : Reinject α) (calls : List (DriverCall α)) :
    Reinject α × List (DriverCall α) :=
  if r.addresses.isEmpty then (r, calls)
  else
    match sendBatch refuses calls r.packets r.addresses with
    | (calls, true) => (new, calls)
    | (calls, false) => (new, calls ++ r.flushIndividually)

def stage (refuses : List (DriverCall α) → Bool) (r : Reinject α) (calls : List (DriverCall α))
    (packet : Bytes) (address : α) : Reinject α × List (DriverCall α) :=
  if r.isFull packet.length then
    ((r.flush refuses calls).1.push packet address, (r.flush refuses calls).2)
  else (r.push packet address, calls)

end Reinject

structure Driver (α : Type) where
  parsePacket : Bytes → Option ℕ
  calcChecksums : Bytes → α → Bytes × Bool
  inPlace : ∀ packet address, (calcChecksums packet address).1.length = packet.length
  refuses : List (DriverCall α) → Bool

def Driver.firstPacketLen (d : Driver α) (bytes : Bytes) : Option ℕ :=
  match d.parsePacket bytes with
  | none => none
  | some remainder => if remainder < bytes.length then some (bytes.length - remainder) else none

/-- What `recv_batch` has filled in. Each address comes with the flow table as it is when the
packet is looked up, because the watchers go on meanwhile. -/
structure Batch (α : Type) where
  data : Bytes
  entries : List (α × FlowTable)
  translation : Translation
  fits : data.length ≤ captureBuffer

structure Capture (α : Type) where
  buffer : Bytes
  offset : ℕ
  reinject : Reinject α
  tunnelled : List (ℕ × ℕ)
  calls : List (DriverCall α)

namespace Capture

def start : Capture α :=
  { buffer := List.replicate captureBuffer 0
    offset := 0
    reinject := .new
    tunnelled := []
    calls := [] }

/-- One packet of the batch, which ends behind `length` bytes. -/
def handle (d : Driver α) (translation : Translation) (bytes : ℕ) (s : Capture α) (length : ℕ)
    (address : α) (table : FlowTable) : Capture α :=
  let stop := min (s.offset + length) bytes
  match prepareOutbound (slice s.buffer (s.offset, stop)) table translation with
  | (packet, .passThrough) =>
    { s with
      buffer := Vec.overwrite s.buffer s.offset packet
      offset := stop
      reinject := (s.reinject.stage d.refuses s.calls packet address).1
      calls := (s.reinject.stage d.refuses s.calls packet address).2 }
  | (packet, .discard) =>
    { s with
      buffer := Vec.overwrite s.buffer s.offset packet
      offset := stop }
  | (packet, .tunnel) =>
    match d.calcChecksums packet address with
    | (packet, false) =>
      { s with
        buffer := Vec.overwrite s.buffer s.offset packet
        offset := stop }
    | (packet, true) =>
      { s with
        buffer := Vec.overwrite s.buffer s.offset packet
        offset := stop
        tunnelled := s.tunnelled ++ [(s.offset, stop)] }

def scan (d : Driver α) (translation : Translation) (bytes : ℕ) :
    List (α × FlowTable) → Capture α → Capture α
  | [], s => s
  | (address, table) :: entries, s =>
    if s.offset ≥ bytes then s
    else
      match d.firstPacketLen (slice s.buffer (s.offset, bytes)) with
      | none => s
      | some length => scan d translation bytes entries
          (s.handle d translation bytes length address table)

def receive (s : Capture α) (batch : Batch α) : Capture α :=
  { s with
    buffer := Vec.overwrite s.buffer 0 batch.data
    offset := 0 }

/-- The staged packets are handed back before `sink` gets the routed ones. -/
def finish (d : Driver α) (s : Capture α) : Capture α :=
  { s with
    reinject := (s.reinject.flush d.refuses s.calls).1
    tunnelled := []
    calls := (s.reinject.flush d.refuses s.calls).2 ++
      s.tunnelled.map fun range => .sink (slice s.buffer range) }

def capture (d : Driver α) (s : Capture α) (batch : Batch α) : Capture α :=
  (scan d batch.translation batch.data.length batch.entries (s.receive batch)).finish d

def run (d : Driver α) (batches : List (Batch α)) : Capture α := batches.foldl (capture d) start

end Capture

end MouseVpn.Windows
