import MouseVpn.Lib.AddressText
import MouseVpn.Windows.Fragments
import MouseVpn.Windows.PacketFrame

/-!
# The capture filter of the split tunnel

The filter is handed to the driver as text. It is read here as an expression over the
direction of a packet, its address family, its transport protocol and its destination. A
packet that it does not match never reaches `prepareOutbound` and takes the physical link.
-/

namespace MouseVpn.Windows

open MouseVpn.Lib

inductive Transport
  | tcp (destinationPort : UInt16)
  | udp (destinationPort : UInt16)
  | other
  deriving DecidableEq, Repr

def Transport.isTcp : Transport → Bool
  | .tcp _ => true
  | _ => false

def Transport.isUdp : Transport → Bool
  | .udp _ => true
  | _ => false

structure PacketView where
  outbound : Bool
  loopback : Bool
  destination : IpAddr
  transport : Transport
  deriving DecidableEq

def Version.keyword : Version → String
  | .v4 => "ip"
  | .v6 => "ipv6"

/-- The expressions of the language that the client writes. Negation applies to a single
test, and parentheses are part of the expression. -/
inductive Filter
  | outbound
  | notLoopback
  | family (version : Version)
  | tcp
  | udp
  | dstAddrNe (version : Version) (address : IpAddr)
  | dstPortNe (port : UInt16)
  | and (left right : Filter)
  | or (left right : Filter)
  | group (inner : Filter)

namespace Filter

def text : Filter → String
  | outbound => "outbound"
  | notLoopback => "!loopback"
  | family version => version.keyword
  | tcp => "tcp"
  | udp => "udp"
  | dstAddrNe version address => version.keyword ++ ".DstAddr != " ++ address.text
  | dstPortNe port => "udp.DstPort != " ++ port.toNat.repr
  | and left right => left.text ++ " and " ++ right.text
  | or left right => left.text ++ " or " ++ right.text
  | group inner => "(" ++ inner.text ++ ")"

def accepts (p : PacketView) : Filter → Bool
  | outbound => p.outbound
  | notLoopback => !p.loopback
  | family version => addressVersion p.destination = version
  | tcp => p.transport.isTcp
  | udp => p.transport.isUdp
  | dstAddrNe version address => addressVersion p.destination = version && p.destination ≠ address
  | dstPortNe port => p.transport.isUdp && p.transport ≠ .udp port
  | and left right => left.accepts p && right.accepts p
  | or left right => left.accepts p || right.accepts p
  | group inner => inner.accepts p

end Filter

def serverVersion (server : SocketAddr) : Version := if server.isIpv4 then .v4 else .v6

def filter (server : SocketAddr) : String :=
  let family := if server.isIpv4 then "ip" else "ipv6"
  "outbound and !loopback and " ++ family ++ " and (tcp or (udp and (" ++ family ++
    ".DstAddr != " ++ server.ip.text ++ " or udp.DstPort != " ++ server.port.toNat.repr ++ ")))"

/-- The expression that the text of `filter` denotes. -/
def filterExpr (server : SocketAddr) : Filter :=
  let family := serverVersion server
  .and .outbound (.and .notLoopback (.and (.family family)
    (.group (.or .tcp (.group (.and .udp
      (.group (.or (.dstAddrNe family server.ip) (.dstPortNe server.port)))))))))

theorem filterExpr_text (server : SocketAddr) : (filterExpr server).text = filter server := by
  have hkeyword : (serverVersion server).keyword = if server.isIpv4 then "ip" else "ipv6" := by
    unfold serverVersion
    split <;> rfl
  unfold filter
  simp only [filterExpr, Filter.text, hkeyword]
  generalize (if server.isIpv4 then "ip" else "ipv6") = family
  generalize server.ip.text = address
  generalize server.port.toNat.repr = port
  rw [← String.toList_inj]
  simp

def PacketView.AddressedTo (p : PacketView) (server : SocketAddr) : Prop :=
  p.transport = .udp server.port ∧ p.destination = server.ip

theorem filterExpr_accepts_iff {server : SocketAddr} {p : PacketView} (hout : p.outbound = true)
    (hloop : p.loopback = false) (htransport : p.transport ≠ .other)
    (hother : ¬ p.AddressedTo server) :
    (filterExpr server).accepts p = true ↔ addressVersion p.destination = serverVersion server := by
  have hport : ∀ port, p.transport = .udp port → port = server.port →
      p.destination ≠ server.ip := by
    intro port ht hp hd
    apply hother
    rw [PacketView.AddressedTo, ht, hp]
    exact ⟨rfl, hd⟩
  simp only [filterExpr, Filter.accepts, hout, hloop, Bool.not_false, Bool.true_and,
    Bool.and_eq_true, decide_eq_true_eq, Bool.or_eq_true]
  refine ⟨fun h => h.1, fun hv => ⟨hv, ?_⟩⟩
  cases ht : p.transport with
  | other => exact absurd ht htransport
  | tcp port => exact Or.inl rfl
  | udp port =>
    refine Or.inr ⟨rfl, ?_⟩
    by_cases hp : port = server.port
    · exact Or.inl ⟨hv, hport port ht hp⟩
    · refine Or.inr ⟨rfl, ?_⟩
      intro heq
      exact hp (Transport.udp.inj heq)

inductive Fate
  | physical (bytes : Bytes)
  | tunnel (bytes : Bytes)
  | dropped
  deriving DecidableEq, Repr

/-- A matched packet goes through the capture loop of `Diverter::run`, any other stays on
its way to the physical link. -/
def fate (server : SocketAddr) (table : FlowTable) (translation : Translation) (p : PacketView)
    (bytes : Bytes) : Fate :=
  if (filterExpr server).accepts p then
    match prepareOutbound bytes table translation with
    | (bytes, .passThrough) => .physical bytes
    | (bytes, .tunnel) => .tunnel bytes
    | (_, .discard) => .dropped
  else .physical bytes

def transportOf (protocol : UInt8) (destinationPort : UInt16) : Transport :=
  if protocol = protocolTcp then .tcp destinationPort
  else if protocol = protocolUdp then .udp destinationPort
  else .other

def Packet.sent (packet : Packet) (destinationPort : UInt16) : PacketView :=
  { outbound := true
    loopback := false
    destination := packet.destination
    transport := transportOf packet.protocol destinationPort }

theorem transportOf_ne_other {protocol : UInt8} (port : UInt16)
    (h : protocol = protocolTcp ∨ protocol = protocolUdp) : transportOf protocol port ≠ .other := by
  rcases h with rfl | rfl <;> simp [transportOf, protocolTcp, protocolUdp]

theorem Packet.setSource_v6_v4 {packet : Packet} (h : packet.version = .v6) (ip : Ipv4Addr) :
    packet.setSource (.v4 ip) = (packet, false) := by
  refine Packet.setAddress_of_ne _ ?_
  rw [h]
  nofun

section Routed

variable {bytes : Bytes} {table : FlowTable} {translation : Translation} {packet : Packet}
  {sourcePort destinationPort : UInt16} {tunnel : Ipv4Addr}

theorem prepareOutbound_v6_discard (hparse : Packet.parse bytes = some packet)
    (hports : packet.ports = some (sourcePort, destinationPort)) (hversion : packet.version = .v6)
    (hflow : table.lookup (packet.flowKey sourcePort destinationPort) = some .tunnel)
    (htunnel : translation.tunnel = .v4 tunnel) :
    prepareOutbound bytes table translation = (packet.bytes, .discard) := by
  rw [prepareOutbound, hparse]
  simp only [hports, not_true_eq_false, hflow, ne_eq, and_false, if_false,
    if_neg (not_not.mpr (protocol_of_ports hports)), htunnel, Packet.setSource_v6_v4 hversion]

theorem fate_routed_v6 (server : SocketAddr) (hparse : Packet.parse bytes = some packet)
    (hports : packet.ports = some (sourcePort, destinationPort)) (hversion : packet.version = .v6)
    (hflow : table.lookup (packet.flowKey sourcePort destinationPort) = some .tunnel)
    (htunnel : translation.tunnel = .v4 tunnel)
    (hother : ¬ (packet.sent destinationPort).AddressedTo server) :
    fate server table translation (packet.sent destinationPort) bytes =
      if server.isIpv4 then .physical bytes else .dropped := by
  have hiff := filterExpr_accepts_iff (p := packet.sent destinationPort) rfl rfl
    (transportOf_ne_other destinationPort (protocol_of_ports hports)) hother
  have hfamily : addressVersion (packet.sent destinationPort).destination = .v6 := by
    rw [← hversion]
    exact packet.address_version _ packet.version.destination_inBounds
  rw [hfamily] at hiff
  cases server with
  | v4 ip port =>
    have hno : ¬ (filterExpr (.v4 ip port)).accepts (packet.sent destinationPort) = true := by
      intro hyes
      exact Version.noConfusion (hiff.mp hyes)
    rw [fate, if_neg hno]
    rfl
  | v6 ip port flowinfo scopeId =>
    rw [fate, if_pos (hiff.mpr rfl),
      prepareOutbound_v6_discard hparse hports hversion hflow htunnel]
    rfl

end Routed

/-- The filter covers the address family of the server and no packet of the other family, so
an IPv6 packet of a routed flow is discarded only if the server is reached over IPv6. -/
theorem covered_iff_sameFamily (server : SocketAddr) :
    (filterExpr server).text = filter server ∧
    (∀ p : PacketView, p.outbound = true → p.loopback = false → p.transport ≠ .other →
      ¬ p.AddressedTo server →
      ((filterExpr server).accepts p = true ↔
        addressVersion p.destination = serverVersion server)) ∧
    (∀ (bytes : Bytes) (table : FlowTable) (translation : Translation) (packet : Packet)
      (sourcePort destinationPort : UInt16) (tunnel : Ipv4Addr),
      Packet.parse bytes = some packet → packet.ports = some (sourcePort, destinationPort) →
      packet.version = .v6 →
      table.lookup (packet.flowKey sourcePort destinationPort) = some .tunnel →
      translation.tunnel = .v4 tunnel → ¬ (packet.sent destinationPort).AddressedTo server →
      (prepareOutbound bytes table translation).2 = .discard ∧
      fate server table translation (packet.sent destinationPort) bytes =
        if server.isIpv4 then .physical bytes else .dropped) := by
  refine ⟨filterExpr_text server, ?_, ?_⟩
  · intro p hout hloop htransport hother
    exact filterExpr_accepts_iff hout hloop htransport hother
  · intro bytes table translation packet sourcePort destinationPort tunnel hparse hports hversion
      hflow htunnel hother
    refine ⟨?_, fate_routed_v6 server hparse hports hversion hflow htunnel hother⟩
    rw [prepareOutbound_v6_discard hparse hports hversion hflow htunnel]

section Sample

def documentationAddress (last : UInt8) : Ipv6Addr :=
  ⟨[0x20, 0x01, 0x0d, 0xb8] ++ List.replicate 11 0 ++ [last], rfl⟩

def leakedDatagram : Datagram :=
  { sampleDatagram with
    source := .v6 (documentationAddress 7)
    destination := .v6 (documentationAddress 1) }

def leakedPiece : Piece :=
  .v6 ⟨0, 0, 24, 64, documentationAddress 7, documentationAddress 1⟩ [] protocolUdp sampleTransport

def leakedTable : FlowTable :=
  ⟨(∅ : HashMap FlowKey Disposition).insert leakedDatagram.flow .tunnel⟩

def leakedView : PacketView :=
  { outbound := true
    loopback := false
    destination := .v6 (documentationAddress 1)
    transport := .udp 443 }

def sampleServer : SocketAddr := .v4 ⟨203, 0, 113, 10⟩ 51820

example : filter sampleServer = "outbound and !loopback and ip and (tcp or (udp and " ++
    "(ip.DstAddr != 203.0.113.10 or udp.DstPort != 51820)))" := by
  decide +kernel

/-- The packet belongs to a routed flow and `prepareOutbound` would discard it, but with an
IPv4 server the driver never captures it. -/
theorem routed_ipv6_leaves_in_clear :
    leakedPiece.Presents leakedDatagram ∧
    leakedTable.lookup leakedDatagram.flow = some .tunnel ∧
    ¬ leakedView.AddressedTo sampleServer ∧
    (prepareOutbound leakedPiece.bytes leakedTable sampleTranslation).2 = .discard ∧
    (filterExpr sampleServer).accepts leakedView = false ∧
    fate sampleServer leakedTable sampleTranslation leakedView leakedPiece.bytes =
      .physical leakedPiece.bytes := by
  refine ⟨⟨rfl, rfl, rfl, rfl⟩, by decide +kernel, ?_, by decide +kernel, by decide +kernel, ?_⟩
  · intro h
    exact absurd h.2 (by decide)
  · decide +kernel

end Sample

end MouseVpn.Windows
