import MouseVpn.Lib.RustStd

/-!
# Packets as the split tunnel edits them

`Packet.parse` finds the end of the IP header, and refuses a header that is cut short and
an IPv6 packet whose transport header does not come first. A `Packet` carries the bounds
that the parser has checked, so that every access below is inside the buffer.
-/

namespace MouseVpn.Windows

open MouseVpn.Lib MouseVpn.Lib.BigEndian

inductive Version
  | v4
  | v6
  deriving DecidableEq, Repr

namespace Version

/-- `v4::MIN_HEADER` and `v6::HEADER`. -/
def minHeader : Version → ℕ
  | v4 => 20
  | v6 => 40

def sourceOffset : Version → ℕ
  | v4 => 12
  | v6 => 8

def destinationOffset : Version → ℕ
  | v4 => 16
  | v6 => 24

def addressLength : Version → ℕ
  | v4 => 4
  | v6 => 16

theorem twenty_le_minHeader (v : Version) : 20 ≤ v.minHeader := by
  cases v <;> decide

theorem source_inBounds (v : Version) : v.sourceOffset + v.addressLength ≤ v.minHeader := by
  cases v <;> decide

theorem destination_inBounds (v : Version) :
    v.destinationOffset + v.addressLength ≤ v.minHeader := by
  cases v <;> decide

end Version

def protocolTcp : UInt8 := 6
def protocolUdp : UInt8 := 17

def fragmentOffsetMask : UInt16 := 0x1fff

def fromBeBytes (high low : UInt8) : UInt16 := UInt16.ofNat (beNat [high, low])

def toBeBytes (x : UInt16) : Bytes := beBytes 2 x.toNat

theorem fromBeBytes_toBeBytes (x : UInt16) :
    fromBeBytes (UInt8.ofNat (x.toNat / 256 ^ 1)) (UInt8.ofNat (x.toNat / 256 ^ 0)) = x := by
  have hx : beNat (beBytes 2 x.toNat) = x.toNat := beNat_beBytes_of_lt x.toNat_lt
  simp only [beBytes] at hx
  rw [fromBeBytes, hx]
  exact UInt16.ofNat_toNat

structure Packet where
  bytes : Bytes
  headerLength : ℕ
  version : Version
  minimum : version.minHeader ≤ headerLength
  inBounds : headerLength ≤ bytes.length
  deriving DecidableEq

namespace Packet

def declaredHeader (bytes : Bytes) (first : UInt8) :
    (version : Version) → Option { n : ℕ // version.minHeader ≤ n }
  | .v4 =>
    let length := (first &&& 0x0f).toNat * 4
    if h : length < Version.v4.minHeader then none else some ⟨length, not_lt.mp h⟩
  | .v6 =>
    match bytes[6]? with
    | none => none
    | some next =>
      if next = protocolTcp ∨ next = protocolUdp then some ⟨Version.v6.minHeader, le_rfl⟩ else none

def parseVersion (first : UInt8) : Option Version :=
  if first >>> 4 = 4 then some .v4 else if first >>> 4 = 6 then some .v6 else none

def parse (bytes : Bytes) : Option Packet := do
  let first ← bytes.head?
  let version ← parseVersion first
  let ⟨headerLength, hmin⟩ ← declaredHeader bytes first version
  if h : headerLength ≤ bytes.length then some ⟨bytes, headerLength, version, hmin, h⟩ else none

theorem minHeader_le (p : Packet) : p.version.minHeader ≤ p.bytes.length :=
  p.minimum.trans p.inBounds

theorem twenty_le (p : Packet) : 20 ≤ p.bytes.length :=
  p.version.twenty_le_minHeader.trans p.minHeader_le

def protocol (p : Packet) : UInt8 :=
  have := p.twenty_le
  match p.version with
  | .v4 => p.bytes[9]
  | .v6 => p.bytes[6]

def address (p : Packet) (offset : ℕ)
    (h : offset + p.version.addressLength ≤ p.version.minHeader) : IpAddr :=
  have hlen := h.trans p.minHeader_le
  match hv : p.version with
  | .v4 =>
    have : offset + 4 ≤ p.bytes.length := by simpa [hv, Version.addressLength] using hlen
    .v4 ⟨p.bytes[offset], p.bytes[offset + 1], p.bytes[offset + 2], p.bytes[offset + 3]⟩
  | .v6 =>
    have : offset + 16 ≤ p.bytes.length := by simpa [hv, Version.addressLength] using hlen
    .v6 ⟨(p.bytes.drop offset).take 16, by
      rw [List.length_take, List.length_drop]
      omega⟩

def source (p : Packet) : IpAddr := p.address p.version.sourceOffset p.version.source_inBounds

def destination (p : Packet) : IpAddr :=
  p.address p.version.destinationOffset p.version.destination_inBounds

/-- `copy_from_slice` into a part of the packet. -/
def write (p : Packet) (start : ℕ) (written : Bytes)
    (h : start + written.length ≤ p.bytes.length) : Packet :=
  { p with
    bytes := Vec.overwrite p.bytes start written
    inBounds := by
      rw [Vec.overwrite_length h]
      exact p.inBounds }

def setAddress (p : Packet) (offset : ℕ)
    (h : offset + p.version.addressLength ≤ p.version.minHeader) (address : IpAddr) :
    Packet × Bool :=
  have hlen := h.trans p.minHeader_le
  match hv : p.version, address with
  | .v4, .v4 ip =>
    (p.write offset ip.octets (by
      simpa [hv, Version.addressLength, Ipv4Addr.octets] using hlen), true)
  | .v6, .v6 ip =>
    (p.write offset ip.octets (by
      rw [ip.size]
      simpa [hv, Version.addressLength] using hlen), true)
  | _, _ => (p, false)

def setSource (p : Packet) (address : IpAddr) : Packet × Bool :=
  p.setAddress p.version.sourceOffset p.version.source_inBounds address

def setDestination (p : Packet) (address : IpAddr) : Packet × Bool :=
  p.setAddress p.version.destinationOffset p.version.destination_inBounds address

def isFirstFragment (p : Packet) : Bool :=
  have := p.twenty_le
  match p.version with
  | .v4 => fromBeBytes p.bytes[6] p.bytes[7] &&& fragmentOffsetMask = 0
  | .v6 => true

def ports (p : Packet) : Option (UInt16 × UInt16) :=
  if ¬ (p.protocol = protocolTcp ∨ p.protocol = protocolUdp) ∨ ¬ p.isFirstFragment then none
  else
    match p.bytes.drop p.headerLength with
    | a :: b :: c :: d :: _ => some (fromBeBytes a b, fromBeBytes c d)
    | _ => none

/-- The option walk of `clamp_mss`, from `index` up to the end of the TCP header. -/
def clampOptions (p : Packet) (limit : UInt16) (stop : ℕ) (hstop : stop ≤ p.bytes.length)
    (index : ℕ) : Packet × Bool :=
  if hindex : index < stop then
    let kind := p.bytes[index]
    if kind = 0 then (p, false)
    else if kind = 1 then p.clampOptions limit stop hstop (index + 1)
    else
      match p.bytes[index + 1]? with
      | none => (p, false)
      | some length =>
        if hlength : length.toNat < 2 ∨ index + length.toNat > stop then (p, false)
        else if hmss : kind = 2 ∧ length.toNat = 4 then
          if fromBeBytes p.bytes[index + 2] p.bytes[index + 3] ≤ limit then (p, false)
          else
            (p.write (index + 2) (toBeBytes limit) (by
              simp only [toBeBytes, beBytes_length]
              omega), true)
        else p.clampOptions limit stop hstop (index + length.toNat)
  else (p, false)
termination_by stop - index

def clampMss (p : Packet) (limit : UInt16) : Packet × Bool :=
  if p.protocol ≠ protocolTcp ∨ ¬ p.isFirstFragment then (p, false)
  else
    let transport := p.bytes.drop p.headerLength
    if h : transport.length < 20 then (p, false)
    else if transport[13] &&& 0x02 = 0 then (p, false)
    else
      let dataOffset := (transport[12] >>> 4).toNat * 4
      if hend : dataOffset ≤ 20 ∨ dataOffset > transport.length then (p, false)
      else
        p.clampOptions limit (p.headerLength + dataOffset)
          (by
            have := p.inBounds
            simp only [transport, List.length_drop] at hend
            omega)
          (p.headerLength + 20)

end Packet

end MouseVpn.Windows
