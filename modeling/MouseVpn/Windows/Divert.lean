import MouseVpn.Lib.HashMap
import MouseVpn.Windows.Packet

/-!
# The address translation of the split tunnel

A captured packet is looked up in the table of classified flows. A packet of a routed flow
gets the tunnel's source address or, if it belongs to the other address family, is
discarded. Everything else is handed back as it was captured. A packet from the tunnel is
delivered if it is addressed to the tunnel's address, which is replaced by the physical one.
-/

namespace MouseVpn.Windows

open MouseVpn.Lib

structure FlowKey where
  protocol : UInt8
  localAddress : IpAddr
  localPort : UInt16
  remoteAddress : IpAddr
  remotePort : UInt16
  deriving DecidableEq

inductive Disposition
  | tunnel
  | direct
  deriving DecidableEq, Repr

structure FlowTable where
  entries : HashMap FlowKey Disposition

def FlowTable.lookup (table : FlowTable) (key : FlowKey) : Option Disposition :=
  table.entries.lookup key

def dnsPort : UInt16 := 53

inductive Outcome
  | tunnel
  | passThrough
  | discard
  deriving DecidableEq, Repr

structure Translation where
  physical : IpAddr
  tunnel : IpAddr
  resolver : IpAddr
  maxSegmentSize : UInt16

def Translation.new (physical tunnel resolver : IpAddr) (tunnelMtu : UInt16) : Translation :=
  let headers : UInt16 := 40
  { physical, tunnel, resolver
    maxSegmentSize := if tunnelMtu < headers then 0 else tunnelMtu - headers }

def Packet.flowKey (packet : Packet) (sourcePort destinationPort : UInt16) : FlowKey :=
  { protocol := packet.protocol
    localAddress := packet.source
    localPort := sourcePort
    remoteAddress := packet.destination
    remotePort := destinationPort }

def prepareOutbound (bytes : Bytes) (table : FlowTable) (translation : Translation) :
    Bytes × Outcome :=
  match Packet.parse bytes with
  | none => (bytes, .passThrough)
  | some packet =>
    if ¬ (packet.protocol = protocolTcp ∨ packet.protocol = protocolUdp) then (bytes, .passThrough)
    else
      match packet.ports with
      | none => (bytes, .passThrough)
      | some (sourcePort, destinationPort) =>
        let key := packet.flowKey sourcePort destinationPort
        let resolving := packet.destination = translation.resolver ∧ destinationPort = dnsPort
        if ¬ resolving ∧ table.lookup key ≠ some .tunnel then (bytes, .passThrough)
        else
          match packet.setSource translation.tunnel with
          | (packet, false) => (packet.bytes, .discard)
          | (packet, true) => ((packet.clampMss translation.maxSegmentSize).1.bytes, .tunnel)

def prepareInbound (bytes : Bytes) (translation : Translation) : Bytes × Bool :=
  match Packet.parse bytes with
  | none => (bytes, false)
  | some packet =>
    if packet.destination ≠ translation.tunnel then (bytes, false)
    else
      match packet.setDestination translation.physical with
      | (packet, false) => (packet.bytes, false)
      | (packet, true) => ((packet.clampMss translation.maxSegmentSize).1.bytes, true)

variable {bytes : Bytes} {table : FlowTable} {translation : Translation} {packet : Packet}

theorem prepareOutbound_of_parse_none (h : Packet.parse bytes = none) :
    prepareOutbound bytes table translation = (bytes, .passThrough) := by
  rw [prepareOutbound, h]

theorem prepareOutbound_of_ports_none (h : Packet.parse bytes = some packet)
    (hports : packet.ports = none) :
    prepareOutbound bytes table translation = (bytes, .passThrough) := by
  rw [prepareOutbound, h]
  simp only [hports, ite_self]

theorem protocol_of_ports {sourcePort destinationPort : UInt16}
    (h : packet.ports = some (sourcePort, destinationPort)) :
    packet.protocol = protocolTcp ∨ packet.protocol = protocolUdp := by
  unfold Packet.ports at h
  split_ifs at h with hcond
  rw [not_or, not_not] at hcond
  exact hcond.1

theorem prepareOutbound_routed {sourcePort destinationPort : UInt16}
    (h : Packet.parse bytes = some packet)
    (hports : packet.ports = some (sourcePort, destinationPort))
    (hflow : table.lookup (packet.flowKey sourcePort destinationPort) = some .tunnel) :
    (prepareOutbound bytes table translation).2 ≠ .passThrough := by
  rw [prepareOutbound, h]
  simp only [hports, not_true_eq_false, hflow, ne_eq, and_false, if_false,
    if_neg (not_not.mpr (protocol_of_ports hports))]
  split <;> simp

end MouseVpn.Windows
