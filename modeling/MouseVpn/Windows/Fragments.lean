import Mathlib.Data.List.TakeDrop
import MouseVpn.Windows.Divert

/-!
# Datagrams in pieces

A TCP or UDP datagram of a routed flow may reach the capture loop whole, as IPv4 fragments,
or behind IPv6 extension headers. The ports stand at the front of the transport header,
which only some of these packets show. The others cannot be matched with their flow and
are handed back to the physical link.
-/

namespace MouseVpn.Windows

open MouseVpn.Lib MouseVpn.Lib.BigEndian

structure Ipv4Header where
  typeOfService : UInt8
  totalLength : UInt16
  identification : UInt16
  fragment : UInt16
  timeToLive : UInt8
  protocol : UInt8
  checksum : UInt16
  source : Ipv4Addr
  destination : Ipv4Addr
  options : Bytes
  words : 4 ∣ options.length
  short : options.length ≤ 40

namespace Ipv4Header

def length (h : Ipv4Header) : ℕ := 20 + h.options.length

def offset (h : Ipv4Header) : ℕ := (h.fragment &&& fragmentOffsetMask).toNat * 8

def moreFragments (h : Ipv4Header) : Bool := h.fragment &&& 0x2000 ≠ 0

def encode (h : Ipv4Header) : Bytes :=
  UInt8.ofNat (0x40 + h.length / 4) :: h.typeOfService ::
    toBeBytes h.totalLength ++ toBeBytes h.identification ++ toBeBytes h.fragment ++
    h.timeToLive :: h.protocol :: toBeBytes h.checksum ++ h.source.octets ++
    h.destination.octets ++ h.options

theorem encode_length (h : Ipv4Header) : h.encode.length = h.length := by
  simp [encode, length, toBeBytes, Ipv4Addr.octets]
  omega

theorem first_byte (h : Ipv4Header) :
    Packet.parseVersion (UInt8.ofNat (0x40 + h.length / 4)) = some .v4 ∧
      (UInt8.ofNat (0x40 + h.length / 4) &&& 0x0f).toNat * 4 = h.length := by
  obtain ⟨k, hk⟩ := h.words
  have hshort := h.short
  have hbytes : ∀ k < 11, Packet.parseVersion (UInt8.ofNat (0x45 + k)) = some .v4 ∧
      (UInt8.ofNat (0x45 + k) &&& 0x0f).toNat = 5 + k := by
    decide
  have hwords : 0x40 + h.length / 4 = 0x45 + k := by
    rw [length]
    omega
  have hfirst := hbytes k (by omega)
  rw [hwords]
  refine ⟨hfirst.1, ?_⟩
  rw [hfirst.2, length]
  omega

theorem minimum (h : Ipv4Header) : Version.v4.minHeader ≤ h.length := Nat.le_add_right ..

theorem inBounds (h : Ipv4Header) (data : Bytes) : h.length ≤ (h.encode ++ data).length := by
  simp [encode_length]

def packet (h : Ipv4Header) (data : Bytes) : Packet :=
  ⟨h.encode ++ data, h.length, .v4, h.minimum, h.inBounds data⟩

theorem parse_encode (h : Ipv4Header) (data : Bytes) :
    Packet.parse (h.encode ++ data) = some (h.packet data) := by
  have hmin : ¬ h.length < Version.v4.minHeader := not_lt.mpr h.minimum
  have hlen := h.inBounds data
  have hhead : (h.encode ++ data).head? = some (UInt8.ofNat (0x40 + h.length / 4)) := rfl
  simp only [Packet.parse, hhead, h.first_byte.1, Packet.declaredHeader, h.first_byte.2,
    Option.bind_eq_bind, Option.bind_some, dif_neg hmin, dif_pos hlen]
  rfl

theorem packet_isFirstFragment (h : Ipv4Header) (data : Bytes) :
    (h.packet data).isFirstFragment = true ↔ h.offset = 0 := by
  have hfield : (h.packet data).isFirstFragment =
      decide (fromBeBytes (UInt8.ofNat (h.fragment.toNat / 256 ^ 1))
        (UInt8.ofNat (h.fragment.toNat / 256 ^ 0)) &&& fragmentOffsetMask = 0) := rfl
  rw [hfield, fromBeBytes_toBeBytes, decide_eq_true_eq, offset, ← UInt16.toNat_inj]
  simp

theorem packet_transport (h : Ipv4Header) (data : Bytes) :
    (h.packet data).bytes.drop (h.packet data).headerLength = data := by
  simp only [packet, ← h.encode_length, List.drop_left]

end Ipv4Header

structure Ipv6Header where
  trafficClass : UInt8
  flowLabel : BitVec 20
  payloadLength : UInt16
  hopLimit : UInt8
  source : Ipv6Addr
  destination : Ipv6Addr

namespace Ipv6Header

def encode (h : Ipv6Header) (nextHeader : UInt8) : Bytes :=
  ((0x60 : UInt8) ||| h.trafficClass >>> 4) ::
    (h.trafficClass <<< 4 ||| UInt8.ofNat (h.flowLabel.toNat / 65536)) ::
    beBytes 2 h.flowLabel.toNat ++ toBeBytes h.payloadLength ++ nextHeader :: h.hopLimit ::
    h.source.octets ++ h.destination.octets

theorem encode_length (h : Ipv6Header) (nextHeader : UInt8) :
    (h.encode nextHeader).length = 40 := by
  simp [encode, toBeBytes, h.source.size, h.destination.size]

theorem first_byte (h : Ipv6Header) :
    Packet.parseVersion ((0x60 : UInt8) ||| h.trafficClass >>> 4) = some .v6 := by
  obtain ⟨⟨t⟩⟩ := h.trafficClass
  revert t
  decide +kernel

theorem parse_eq_none (h : Ipv6Header) {nextHeader : UInt8} (data : Bytes)
    (hnext : ¬ (nextHeader = protocolTcp ∨ nextHeader = protocolUdp)) :
    Packet.parse (h.encode nextHeader ++ data) = none := by
  have hhead : (h.encode nextHeader ++ data).head? =
    some ((0x60 : UInt8) ||| h.trafficClass >>> 4) := rfl
  have hsix : (h.encode nextHeader ++ data)[6]? = some nextHeader := rfl
  simp only [Packet.parse, hhead, h.first_byte, Packet.declaredHeader, hsix, if_neg hnext,
    Option.bind_eq_bind, Option.bind_some, Option.bind_none]

theorem minimum : Version.v6.minHeader ≤ 40 := le_rfl

theorem inBounds (h : Ipv6Header) (nextHeader : UInt8) (data : Bytes) :
    40 ≤ (h.encode nextHeader ++ data).length := by
  simp [encode_length]

def packet (h : Ipv6Header) (nextHeader : UInt8) (data : Bytes) : Packet :=
  ⟨h.encode nextHeader ++ data, 40, .v6, minimum, h.inBounds nextHeader data⟩

theorem parse_encode (h : Ipv6Header) {nextHeader : UInt8} (data : Bytes)
    (hnext : nextHeader = protocolTcp ∨ nextHeader = protocolUdp) :
    Packet.parse (h.encode nextHeader ++ data) = some (h.packet nextHeader data) := by
  have hhead : (h.encode nextHeader ++ data).head? =
    some ((0x60 : UInt8) ||| h.trafficClass >>> 4) := rfl
  have hsix : (h.encode nextHeader ++ data)[6]? = some nextHeader := rfl
  have hlen : Version.v6.minHeader ≤ (h.encode nextHeader ++ data).length :=
    h.inBounds nextHeader data
  simp only [Packet.parse, hhead, h.first_byte, Packet.declaredHeader, hsix, if_pos hnext,
    Option.bind_eq_bind, Option.bind_some, dif_pos hlen]
  rfl

theorem packet_transport (h : Ipv6Header) (nextHeader : UInt8) (data : Bytes) :
    (h.packet nextHeader data).bytes.drop (h.packet nextHeader data).headerLength = data := by
  simp only [packet, ← h.encode_length nextHeader, List.drop_left]

theorem packet_source (h : Ipv6Header) (nextHeader : UInt8) (data : Bytes) :
    (h.packet nextHeader data).source = .v6 h.source := by
  refine congrArg IpAddr.v6 ?_
  rw [Ipv6Addr.mk.injEq]
  change (h.source.octets ++ h.destination.octets ++ data).take 16 = h.source.octets
  rw [List.append_assoc, ← h.source.size, List.take_left]

theorem packet_destination (h : Ipv6Header) (nextHeader : UInt8) (data : Bytes) :
    (h.packet nextHeader data).destination = .v6 h.destination := by
  refine congrArg IpAddr.v6 ?_
  rw [Ipv6Addr.mk.injEq]
  change ((h.source.octets ++ h.destination.octets ++ data).drop 16).take 16 = h.destination.octets
  rw [List.append_assoc, ← h.source.size, List.drop_left, h.source.size, ← h.destination.size,
    List.take_left]

end Ipv6Header

/-- A header between the IPv6 header and the transport header. The first byte of its
encoding announces what follows. -/
structure ExtensionHeader where
  number : UInt8
  body : Bytes
  notTransport : ¬ (number = protocolTcp ∨ number = protocolUdp)

def extensionChain (protocol : UInt8) : List ExtensionHeader → UInt8 × Bytes
  | [] => (protocol, [])
  | extension :: extensions =>
    let (next, bytes) := extensionChain protocol extensions
    (extension.number, next :: extension.body ++ bytes)

inductive Piece
  | v4 (header : Ipv4Header) (data : Bytes)
  | v6 (header : Ipv6Header) (extensions : List ExtensionHeader) (protocol : UInt8) (data : Bytes)

def Piece.bytes : Piece → Bytes
  | v4 header data => header.encode ++ data
  | v6 header extensions protocol data =>
    let (next, chain) := extensionChain protocol extensions
    header.encode next ++ (chain ++ data)

structure Datagram where
  protocol : UInt8
  source : IpAddr
  destination : IpAddr
  transport : Bytes
  isTransport : protocol = protocolTcp ∨ protocol = protocolUdp
  hasHeader : 8 ≤ transport.length

namespace Datagram

def ports (d : Datagram) : UInt16 × UInt16 :=
  have := d.hasHeader
  (fromBeBytes d.transport[0] d.transport[1], fromBeBytes d.transport[2] d.transport[3])

def flow (d : Datagram) : FlowKey :=
  { protocol := d.protocol
    localAddress := d.source
    localPort := d.ports.1
    remoteAddress := d.destination
    remotePort := d.ports.2 }

end Datagram

/-- A packet of the datagram. An IPv4 packet has the part of the transport bytes that begins
at its offset and ends with them unless more fragments follow. -/
def Piece.Presents (d : Datagram) : Piece → Prop
  | v4 header data =>
    header.protocol = d.protocol ∧ .v4 header.source = d.source ∧
      .v4 header.destination = d.destination ∧
      data = (d.transport.drop header.offset).take data.length ∧
      if header.moreFragments then 0 < data.length ∧ 8 ∣ data.length
      else header.offset + data.length = d.transport.length
  | v6 header _ protocol data =>
    protocol = d.protocol ∧ .v6 header.source = d.source ∧
      .v6 header.destination = d.destination ∧ data = d.transport

def Piece.Detached : Piece → Prop
  | v4 header _ => header.offset ≠ 0
  | v6 _ extensions _ _ => extensions ≠ []

section Outcome

variable {table : FlowTable} {translation : Translation} {d : Datagram}

theorem ports_of_transport {packet : Packet} (hprotocol : packet.protocol = d.protocol)
    (hfirst : packet.isFirstFragment = true) {n : ℕ} (hn : 4 ≤ n)
    (hdrop : packet.bytes.drop packet.headerLength = d.transport.take n) :
    packet.ports = some d.ports := by
  have hcond : ¬ (¬ (packet.protocol = protocolTcp ∨ packet.protocol = protocolUdp) ∨
      ¬ packet.isFirstFragment = true) := by
    rw [hprotocol, hfirst]
    exact not_or.mpr ⟨not_not.mpr d.isTransport, not_not.mpr rfl⟩
  rw [Packet.ports, if_neg hcond, hdrop]
  obtain ⟨m, rfl⟩ := Nat.exists_eq_add_of_le' hn
  obtain ⟨_, _, _, transport, _, hheader⟩ := d
  match transport, hheader with
  | _ :: _ :: _ :: _ :: _, _ => rfl

theorem shown_not_passed {bytes : Bytes} {packet : Packet}
    (hflow : table.lookup d.flow = some .tunnel) (hparse : Packet.parse bytes = some packet)
    (hprotocol : packet.protocol = d.protocol) (hsource : packet.source = d.source)
    (hdestination : packet.destination = d.destination)
    (hports : packet.ports = some d.ports) :
    (prepareOutbound bytes table translation).2 ≠ .passThrough := by
  refine prepareOutbound_routed hparse hports ?_
  rw [Packet.flowKey, hprotocol, hsource, hdestination]
  exact hflow

theorem v4_detached_passed {header : Ipv4Header} {data : Bytes} (h : header.offset ≠ 0) :
    prepareOutbound (header.encode ++ data) table translation =
      (header.encode ++ data, .passThrough) := by
  refine prepareOutbound_of_ports_none (header.parse_encode data) ?_
  rw [Packet.ports, if_pos]
  exact Or.inr fun hfirst => h ((header.packet_isFirstFragment data).mp hfirst)

theorem v4_attached_not_passed {header : Ipv4Header} {data : Bytes}
    (hflow : table.lookup d.flow = some .tunnel) (hp : (Piece.v4 header data).Presents d)
    (h : header.offset = 0) :
    (prepareOutbound (header.encode ++ data) table translation).2 ≠ .passThrough := by
  obtain ⟨hprotocol, hsource, hdestination, hdata, hend⟩ := hp
  -- the first fragment has at least the eight bytes that a fragment offset counts
  have hlen : 4 ≤ data.length := by
    have hheader := d.hasHeader
    split_ifs at hend
    · obtain ⟨hpos, k, hk⟩ := hend
      omega
    · omega
  rw [h, List.drop_zero] at hdata
  refine shown_not_passed hflow (header.parse_encode data) hprotocol hsource hdestination ?_
  refine ports_of_transport hprotocol ((header.packet_isFirstFragment data).mpr h) hlen ?_
  rw [header.packet_transport]
  exact hdata

theorem v6_detached_passed {header : Ipv6Header} {extensions : List ExtensionHeader}
    {protocol : UInt8} {data : Bytes} (h : extensions ≠ []) :
    prepareOutbound (Piece.v6 header extensions protocol data).bytes table translation =
      ((Piece.v6 header extensions protocol data).bytes, .passThrough) := by
  cases extensions with
  | nil => exact absurd rfl h
  | cons extension extensions =>
    exact prepareOutbound_of_parse_none (header.parse_eq_none _ extension.notTransport)

theorem v6_attached_not_passed {header : Ipv6Header} {protocol : UInt8} {data : Bytes}
    (hflow : table.lookup d.flow = some .tunnel)
    (hp : (Piece.v6 header [] protocol data).Presents d) :
    (prepareOutbound (Piece.v6 header [] protocol data).bytes table translation).2 ≠
      .passThrough := by
  obtain ⟨rfl, hsource, hdestination, rfl⟩ := hp
  refine shown_not_passed hflow (header.parse_encode _ d.isTransport) rfl
    ((header.packet_source _ _).trans hsource)
    ((header.packet_destination _ _).trans hdestination) ?_
  refine ports_of_transport rfl rfl (d.hasHeader.trans' (by decide)) ?_
  rw [header.packet_transport, List.take_length]
  rfl

/-- The packets of a routed datagram that are handed back to the physical link, unchanged,
are the fragments behind the first and those with IPv6 extension headers. -/
theorem handed_back_iff (table : FlowTable) (translation : Translation) (d : Datagram)
    (hflow : table.lookup d.flow = some .tunnel) (pieces : List Piece)
    (hpieces : ∀ piece ∈ pieces, piece.Presents d) :
    (∀ piece ∈ pieces, piece.Detached →
      prepareOutbound piece.bytes table translation = (piece.bytes, .passThrough)) ∧
    ((∀ piece ∈ pieces, (prepareOutbound piece.bytes table translation).2 ≠ .passThrough) ↔
      ∀ piece ∈ pieces, ¬ piece.Detached) := by
  have hdetached : ∀ piece ∈ pieces, piece.Detached →
      prepareOutbound piece.bytes table translation = (piece.bytes, .passThrough) := by
    intro piece _ h
    cases piece with
    | v4 header data => exact v4_detached_passed h
    | v6 header extensions protocol data => exact v6_detached_passed h
  refine ⟨hdetached, ?_, ?_⟩
  · intro hkept piece hmem h
    exact hkept piece hmem (congrArg Prod.snd (hdetached piece hmem h))
  · intro hattached piece hmem
    have hp := hpieces piece hmem
    have h := hattached piece hmem
    cases piece with
    | v4 header data => exact v4_attached_not_passed hflow hp (not_not.mp h)
    | v6 header extensions protocol data =>
      obtain rfl : extensions = [] := not_not.mp h
      exact v6_attached_not_passed hflow hp

end Outcome

section Sample

def sampleTransport : Bytes :=
  toBeBytes 54518 ++ toBeBytes 443 ++ toBeBytes 24 ++ toBeBytes 0 ++ List.replicate 16 7

def sampleDatagram : Datagram :=
  { protocol := protocolUdp
    source := .v4 ⟨192, 168, 0, 189⟩
    destination := .v4 ⟨1, 1, 1, 1⟩
    transport := sampleTransport
    isTransport := Or.inr rfl
    hasHeader := by decide }

def sampleHeader (totalLength fragment : UInt16) : Ipv4Header :=
  { typeOfService := 0
    totalLength
    identification := 1
    fragment
    timeToLive := 64
    protocol := protocolUdp
    checksum := 0
    source := ⟨192, 168, 0, 189⟩
    destination := ⟨1, 1, 1, 1⟩
    options := []
    words := ⟨0, rfl⟩
    short := by decide }

def firstFragment : Piece := .v4 (sampleHeader 36 0x2000) (sampleTransport.take 16)

def lastFragment : Piece := .v4 (sampleHeader 28 2) (sampleTransport.drop 16)

def sampleIpv6Address : Ipv6Addr := ⟨List.replicate 15 0 ++ [1], rfl⟩

def sampleIpv6Datagram : Datagram :=
  { sampleDatagram with
    source := .v6 sampleIpv6Address
    destination := .v6 sampleIpv6Address }

def sampleOptions : ExtensionHeader :=
  { number := 60, body := [0, 1, 4, 0, 0, 0, 0], notTransport := by decide }

def sampleIpv6Piece (extensions : List ExtensionHeader) : Piece :=
  .v6 ⟨0, 0, 32, 64, sampleIpv6Address, sampleIpv6Address⟩ extensions protocolUdp sampleTransport

def sampleTable : FlowTable :=
  ⟨((∅ : HashMap FlowKey Disposition).insert sampleDatagram.flow .tunnel).insert
    sampleIpv6Datagram.flow .tunnel⟩

def sampleTranslation : Translation :=
  Translation.new (.v4 ⟨192, 168, 0, 189⟩) (.v4 ⟨10, 77, 0, 22⟩) (.v4 ⟨10, 77, 0, 1⟩) 1280

theorem firstFragment_presents : firstFragment.Presents sampleDatagram :=
  ⟨rfl, rfl, rfl, rfl, by decide⟩

theorem lastFragment_presents : lastFragment.Presents sampleDatagram :=
  ⟨rfl, rfl, rfl, rfl, by decide⟩

theorem handed_back_iff_sample :
    sampleTable.lookup sampleDatagram.flow = some .tunnel ∧ firstFragment.Presents sampleDatagram ∧
    (prepareOutbound firstFragment.bytes sampleTable sampleTranslation).2 ≠ .passThrough := by
  have hflow : sampleTable.lookup sampleDatagram.flow = some .tunnel := by decide +kernel
  refine ⟨hflow, firstFragment_presents, ?_⟩
  have hiff := (handed_back_iff sampleTable sampleTranslation sampleDatagram hflow [firstFragment]
    (by simpa using firstFragment_presents)).2
  refine hiff.mpr ?_ firstFragment List.mem_cons_self
  intro piece hmem
  rw [List.mem_singleton] at hmem
  rw [hmem]
  exact not_not.mpr rfl

/-- Of two fragments of a routed datagram one goes to the tunnel and the other back to the
physical link. A routed IPv6 datagram is discarded, but not if an options header comes
before its ports. -/
theorem lastFragment_handed_back :
    sampleTable.lookup sampleDatagram.flow = some .tunnel ∧
    firstFragment.Presents sampleDatagram ∧ lastFragment.Presents sampleDatagram ∧
    sampleTransport.take 16 ++ sampleTransport.drop 16 = sampleDatagram.transport ∧
    (prepareOutbound firstFragment.bytes sampleTable sampleTranslation).2 = .tunnel ∧
    prepareOutbound lastFragment.bytes sampleTable sampleTranslation =
      (lastFragment.bytes, .passThrough) ∧
    sampleTable.lookup sampleIpv6Datagram.flow = some .tunnel ∧
    (sampleIpv6Piece [sampleOptions]).Presents sampleIpv6Datagram ∧
    (prepareOutbound (sampleIpv6Piece []).bytes sampleTable sampleTranslation).2 = .discard ∧
    prepareOutbound (sampleIpv6Piece [sampleOptions]).bytes sampleTable sampleTranslation =
      ((sampleIpv6Piece [sampleOptions]).bytes, .passThrough) := by
  refine ⟨by decide +kernel, firstFragment_presents, lastFragment_presents,
    List.take_append_drop 16 _, by decide +kernel, by decide +kernel, by decide +kernel,
    ⟨rfl, rfl, rfl, rfl⟩, by decide +kernel, by decide +kernel⟩

end Sample

end MouseVpn.Windows
