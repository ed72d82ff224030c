import MouseVpn.Windows.Packet

/-!
# What an edit of a packet leaves alone

Each field that the client reads is a function of a few bytes of the packet: the parser, the
protocol and the fragment field look at the bytes in front of the source address, an address
is a slice of the header, the ports are the first bytes behind it. A write elsewhere is not
seen by them.
-/

namespace MouseVpn.Windows

open MouseVpn.Lib MouseVpn.Lib.BigEndian

def addressVersion : IpAddr → Version
  | .v4 _ => .v4
  | .v6 _ => .v6

def addressOctets : IpAddr → Bytes
  | .v4 ip => ip.octets
  | .v6 ip => ip.octets

theorem addressOctets_length (address : IpAddr) :
    (addressOctets address).length = (addressVersion address).addressLength := by
  cases address with
  | v4 ip => rfl
  | v6 ip => exact ip.size

theorem addressOctets_injective : Function.Injective addressOctets := by
  intro x y h
  have hlen := congrArg List.length h
  cases x with
  | v4 x =>
    cases y with
    | v4 y =>
      simp only [addressOctets, Ipv4Addr.octets, List.cons.injEq, and_true] at h
      obtain ⟨ha, hb, hc, hd⟩ := h
      exact congrArg IpAddr.v4 (Ipv4Addr.mk.injEq .. |>.mpr ⟨ha, hb, hc, hd⟩)
    | v6 y =>
      have hy := y.size
      simp only [addressOctets, Ipv4Addr.octets, List.length_cons, List.length_nil] at hlen
      omega
  | v6 x =>
    cases y with
    | v4 y =>
      have hx := x.size
      simp only [addressOctets, Ipv4Addr.octets, List.length_cons, List.length_nil] at hlen
      omega
    | v6 y => exact congrArg IpAddr.v6 (Ipv6Addr.mk.injEq .. |>.mpr h)

namespace Version

/-- `v4::PROTOCOL` and `v6::NEXT_HEADER`. -/
def protocolOffset : Version → ℕ
  | v4 => 9
  | v6 => 6

theorem protocolOffset_lt (v : Version) : v.protocolOffset < v.sourceOffset := by
  cases v <;> decide

theorem source_le_destination (v : Version) : v.sourceOffset ≤ v.destinationOffset := by
  cases v <;> decide

theorem eight_le_sourceOffset (v : Version) : 8 ≤ v.sourceOffset := by
  cases v <;> decide

end Version

namespace Packet

variable {p q : Packet}

theorem sourceOffset_le_headerLength (p : Packet) :
    p.version.sourceOffset + p.version.addressLength ≤ p.headerLength :=
  p.version.source_inBounds.trans p.minimum

theorem destinationOffset_le_headerLength (p : Packet) :
    p.version.destinationOffset + p.version.addressLength ≤ p.headerLength :=
  p.version.destination_inBounds.trans p.minimum

theorem getElem?_protocol (p : Packet) :
    p.bytes[p.version.protocolOffset]? = some p.protocol := by
  have hlen := p.twenty_le
  obtain ⟨bytes, headerLength, version, hmin, hin⟩ := p
  cases version with
  | v4 => exact List.getElem?_eq_getElem (show 9 < bytes.length by exact hlen.trans' (by decide))
  | v6 => exact List.getElem?_eq_getElem (show 6 < bytes.length by exact hlen.trans' (by decide))

theorem isFirstFragment_eq (p : Packet) : p.isFirstFragment = (decide (p.version = .v6) ||
    decide (fromBeBytes (p.bytes.getD 6 0) (p.bytes.getD 7 0) &&& fragmentOffsetMask = 0)) := by
  have hlen := p.twenty_le
  have h6 : 6 < p.bytes.length := by omega
  have h7 : 7 < p.bytes.length := by omega
  rw [isFirstFragment, List.getD_eq_getElem?_getD, List.getD_eq_getElem?_getD,
    List.getElem?_eq_getElem h6, List.getElem?_eq_getElem h7]
  cases p.version <;> simp

theorem protocol_congr (hversion : q.version = p.version)
    (h : ∀ i < p.version.sourceOffset, q.bytes[i]? = p.bytes[i]?) : q.protocol = p.protocol := by
  refine Option.some.inj ?_
  rw [← getElem?_protocol, ← getElem?_protocol, hversion]
  exact h _ p.version.protocolOffset_lt

theorem isFirstFragment_congr (hversion : q.version = p.version)
    (h : ∀ i < p.version.sourceOffset, q.bytes[i]? = p.bytes[i]?) :
    q.isFirstFragment = p.isFirstFragment := by
  have height := p.version.eight_le_sourceOffset
  rw [isFirstFragment_eq, isFirstFragment_eq, hversion, List.getD_eq_getElem?_getD,
    List.getD_eq_getElem?_getD, List.getD_eq_getElem?_getD, List.getD_eq_getElem?_getD,
    h 6 (by omega), h 7 (by omega)]

theorem declaredHeader_congr {bytes bytes' : Bytes} (h : bytes'[6]? = bytes[6]?) (first : UInt8)
    (v : Version) : declaredHeader bytes' first v = declaredHeader bytes first v := by
  cases v with
  | v4 => rfl
  | v6 => simp only [declaredHeader, h]

theorem parse_eq_some_iff {bytes : Bytes} : parse bytes = some p ↔
    p.bytes = bytes ∧ ∃ first, bytes[0]? = some first ∧ parseVersion first = some p.version ∧
      (declaredHeader bytes first p.version).map Subtype.val = some p.headerLength := by
  unfold parse
  simp only [Option.bind_eq_bind, Option.bind_eq_some_iff, List.head?_eq_getElem?]
  constructor
  · intro h
    obtain ⟨first, hfirst, version, hversion, ⟨headerLength, hmin⟩, hheader, h⟩ := h
    split_ifs at h with hlen
    obtain rfl := Option.some.inj h
    exact ⟨rfl, first, hfirst, hversion, by rw [hheader]; rfl⟩
  · intro h
    obtain ⟨rfl, first, hfirst, hversion, h⟩ := h
    obtain ⟨⟨headerLength, hmin⟩, hheader, hlen⟩ := Option.map_eq_some_iff.mp h
    refine ⟨first, hfirst, p.version, hversion, ⟨headerLength, hmin⟩, hheader, ?_⟩
    obtain rfl : headerLength = p.headerLength := hlen
    exact dif_pos p.inBounds

theorem parse_congr (h : parse p.bytes = some p) (hlength : q.headerLength = p.headerLength)
    (hversion : q.version = p.version)
    (hbytes : ∀ i < p.version.sourceOffset, q.bytes[i]? = p.bytes[i]?) :
    parse q.bytes = some q := by
  have height := p.version.eight_le_sourceOffset
  obtain ⟨-, first, hfirst, hfamily, hheader⟩ := parse_eq_some_iff.mp h
  refine parse_eq_some_iff.mpr ⟨rfl, first, ?_, ?_, ?_⟩
  · rw [hbytes 0 (by omega), hfirst]
  · rw [hversion, hfamily]
  · rw [hversion, hlength, declaredHeader_congr (hbytes 6 (by omega)), hheader]

theorem address_version (packet : Packet) (offset : ℕ)
    (h : offset + packet.version.addressLength ≤ packet.version.minHeader) :
    addressVersion (packet.address offset h) = packet.version := by
  unfold Packet.address
  split
  · rename_i hv
    exact hv.symm
  · rename_i hv
    exact hv.symm

theorem take_four_drop {bytes : Bytes} {offset : ℕ} (h : offset + 4 ≤ bytes.length) :
    (bytes.drop offset).take 4 =
      [bytes[offset], bytes[offset + 1], bytes[offset + 2], bytes[offset + 3]] := by
  rw [← List.getElem_cons_drop (by omega), ← List.getElem_cons_drop (by omega),
    ← List.getElem_cons_drop (by omega), ← List.getElem_cons_drop (by omega)]
  rfl

theorem address_octets (p : Packet) (offset : ℕ)
    (h : offset + p.version.addressLength ≤ p.version.minHeader) :
    addressOctets (p.address offset h) = (p.bytes.drop offset).take p.version.addressLength := by
  have hlen := h.trans p.minHeader_le
  obtain ⟨bytes, headerLength, version, hmin, hin⟩ := p
  cases version with
  | v4 => exact (take_four_drop hlen).symm
  | v6 => rfl

theorem address_eq_iff {offset : ℕ}
    {h : offset + p.version.addressLength ≤ p.version.minHeader} {a : IpAddr} :
    p.address offset h = a ↔
      (p.bytes.drop offset).take p.version.addressLength = addressOctets a := by
  rw [← address_octets p offset h, addressOctets_injective.eq_iff]

theorem setAddress_of_version {offset : ℕ}
    (h : offset + p.version.addressLength ≤ p.version.minHeader) {a : IpAddr}
    (ha : addressVersion a = p.version) :
    ∃ hlen, p.setAddress offset h a = (p.write offset (addressOctets a) hlen, true) := by
  have hlen := h.trans p.minHeader_le
  rw [← ha, ← addressOctets_length] at hlen
  refine ⟨hlen, ?_⟩
  obtain ⟨bytes, headerLength, version, hmin, hin⟩ := p
  obtain rfl := ha
  cases a <;> rfl

theorem setAddress_of_ne {offset : ℕ}
    (h : offset + p.version.addressLength ≤ p.version.minHeader) {a : IpAddr}
    (ha : addressVersion a ≠ p.version) : p.setAddress offset h a = (p, false) := by
  obtain ⟨bytes, headerLength, version, hmin, hin⟩ := p
  cases version <;> cases a
  · exact absurd rfl ha
  · rfl
  · rfl
  · exact absurd rfl ha

def portsOf : Bytes → Option (UInt16 × UInt16)
  | a :: b :: c :: d :: _ => some (fromBeBytes a b, fromBeBytes c d)
  | _ => none

theorem ports_eq (p : Packet) : p.ports =
    if ¬ (p.protocol = protocolTcp ∨ p.protocol = protocolUdp) ∨ ¬ p.isFirstFragment then none
    else portsOf (p.bytes.drop p.headerLength) := rfl

theorem portsOf_take (transport : Bytes) : portsOf (transport.take 4) = portsOf transport := by
  rcases transport with _ | ⟨a, _ | ⟨b, _ | ⟨c, _ | ⟨d, rest⟩⟩⟩⟩ <;> rfl

theorem ports_congr (hprotocol : q.protocol = p.protocol)
    (hfirst : q.isFirstFragment = p.isFirstFragment)
    (hbytes : (q.bytes.drop q.headerLength).take 4 = (p.bytes.drop p.headerLength).take 4) :
    q.ports = p.ports := by
  rw [ports_eq, ports_eq, hprotocol, hfirst, ← portsOf_take, hbytes, portsOf_take]

section Write

variable {start : ℕ} {written : Bytes} {h : start + written.length ≤ p.bytes.length}

theorem write_before (hstart : p.version.sourceOffset ≤ start) :
    ∀ i < p.version.sourceOffset, (p.write start written h).bytes[i]? = p.bytes[i]? := by
  intro i hi
  exact (Vec.getElem?_overwrite h i).trans (if_neg (by omega))

theorem parse_write (hp : parse p.bytes = some p) (hstart : p.version.sourceOffset ≤ start) :
    parse (p.write start written h).bytes = some (p.write start written h) :=
  parse_congr hp rfl rfl (write_before hstart)

theorem protocol_write (hstart : p.version.sourceOffset ≤ start) :
    (p.write start written h).protocol = p.protocol :=
  protocol_congr rfl (write_before hstart)

theorem isFirstFragment_write (hstart : p.version.sourceOffset ≤ start) :
    (p.write start written h).isFirstFragment = p.isFirstFragment :=
  isFirstFragment_congr rfl (write_before hstart)

theorem address_write {offset : ℕ}
    (hoffset : offset + p.version.addressLength ≤ p.version.minHeader)
    (hd : offset + p.version.addressLength ≤ start ∨ start + written.length ≤ offset) :
    (p.write start written h).address offset hoffset = p.address offset hoffset := by
  refine address_eq_iff.mpr ?_
  rw [address_octets]
  exact Vec.slice_overwrite_of_disjoint h hd

theorem address_write_self {a : IpAddr} (ha : addressVersion a = p.version)
    (hoffset : start + p.version.addressLength ≤ p.version.minHeader)
    {h : start + (addressOctets a).length ≤ p.bytes.length} :
    (p.write start (addressOctets a) h).address start hoffset = a := by
  have hlen : (addressOctets a).length = p.version.addressLength := by
    rw [addressOctets_length, ha]
  refine address_eq_iff.mpr (Eq.trans ?_ (Vec.slice_overwrite h))
  rw [hlen]
  rfl

theorem ports_write (hstart : p.version.sourceOffset ≤ start)
    (hd : start + written.length ≤ p.headerLength ∨ p.headerLength + 4 ≤ start) :
    (p.write start written h).ports = p.ports :=
  ports_congr (protocol_write hstart) (isFirstFragment_write hstart)
    (Vec.slice_overwrite_of_disjoint h hd.symm)

end Write

end Packet

end MouseVpn.Windows
