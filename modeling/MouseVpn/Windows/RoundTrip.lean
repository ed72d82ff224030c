import MouseVpn.Windows.Fragments
import MouseVpn.Windows.MssClamp

/-!
# Replies to translated packets

Outbound, the source address of a routed packet is replaced and forgotten. Inbound, the
destination is replaced by the one physical address of the translation. A reply therefore
comes back to the address that the application has sent from only if it is this one.
-/

namespace MouseVpn.Windows

open MouseVpn.Lib

variable {bytes : Bytes} {table : FlowTable} {translation : Translation} {packet : Packet}

theorem parse_self {bytes : Bytes} (h : Packet.parse bytes = some packet) :
    packet.bytes = bytes ∧ Packet.parse packet.bytes = some packet := by
  obtain rfl := (Packet.parse_eq_some_iff.mp h).1
  exact ⟨rfl, h⟩

theorem prepareOutbound_cases (bytes : Bytes) (table : FlowTable) (translation : Translation) :
    ((prepareOutbound bytes table translation).2 ≠ .tunnel ∧
      (prepareOutbound bytes table translation).1 = bytes) ∨
    ∃ packet ports translated h, Packet.parse bytes = some packet ∧ packet.ports = some ports ∧
      addressVersion translation.tunnel = packet.version ∧
      translated = packet.write packet.version.sourceOffset (addressOctets translation.tunnel) h ∧
      prepareOutbound bytes table translation =
        ((translated.clampMss translation.maxSegmentSize).1.bytes, .tunnel) := by
  cases hparse : Packet.parse bytes with
  | none =>
    rw [prepareOutbound_of_parse_none hparse]
    exact Or.inl ⟨by simp, rfl⟩
  | some packet =>
    cases hports : packet.ports with
    | none =>
      rw [prepareOutbound_of_ports_none hparse hports]
      exact Or.inl ⟨by simp, rfl⟩
    | some ports =>
      rw [prepareOutbound, hparse]
      dsimp only
      rw [if_neg (not_not.mpr (protocol_of_ports hports)), hports]
      dsimp only
      by_cases hrouted : ¬ (packet.destination = translation.resolver ∧ ports.2 = dnsPort) ∧
          table.lookup (packet.flowKey ports.1 ports.2) ≠ some .tunnel
      · rw [if_pos hrouted]
        exact Or.inl ⟨by simp, rfl⟩
      rw [if_neg hrouted]
      by_cases hversion : addressVersion translation.tunnel = packet.version
      · obtain ⟨h, hset⟩ := Packet.setAddress_of_version packet.version.source_inBounds hversion
        refine Or.inr ⟨packet, ports, _, h, rfl, hports, hversion, rfl, ?_⟩
        rw [Packet.setSource, hset]
      · rw [Packet.setSource, Packet.setAddress_of_ne _ hversion]
        exact Or.inl ⟨by simp, (parse_self hparse).1⟩

theorem prepareInbound_refuses (h : ∀ packet, Packet.parse bytes = some packet →
    packet.destination ≠ translation.tunnel) :
    prepareInbound bytes translation = (bytes, false) := by
  rw [prepareInbound]
  cases hparse : Packet.parse bytes with
  | none => rfl
  | some packet => exact if_pos (h packet hparse)

theorem prepareInbound_other_family (hparse : Packet.parse bytes = some packet)
    (hversion : addressVersion translation.physical ≠ packet.version) :
    prepareInbound bytes translation = (bytes, false) := by
  rw [prepareInbound, hparse]
  dsimp only
  split_ifs
  · rfl
  · rw [Packet.setDestination, Packet.setAddress_of_ne _ hversion]
    exact congrArg (·, false) (parse_self hparse).1

theorem prepareInbound_delivers (hparse : Packet.parse bytes = some packet)
    (hdestination : packet.destination = translation.tunnel)
    (hversion : addressVersion translation.physical = packet.version) :
    ∃ delivered : Packet, prepareInbound bytes translation = (delivered.bytes, true) ∧
      Packet.parse delivered.bytes = some delivered ∧
      delivered.destination = translation.physical ∧ delivered.ports = packet.ports := by
  obtain ⟨h, hset⟩ := Packet.setAddress_of_version packet.version.destination_inBounds hversion
  have hstart := packet.version.source_le_destination
  have hlength : (addressOctets translation.physical).length = packet.version.addressLength := by
    rw [addressOctets_length, hversion]
  refine ⟨((packet.write packet.version.destinationOffset (addressOctets translation.physical)
    h).clampMss translation.maxSegmentSize).1, ?_, ?_, ?_, ?_⟩
  · rw [prepareInbound, hparse]
    dsimp only
    rw [if_neg (not_not.mpr hdestination), Packet.setDestination, hset]
  · exact Packet.parse_clampMss _ _ (Packet.parse_write (parse_self hparse).2 (by omega))
  · rw [Packet.destination_clampMss]
    exact Packet.address_write_self hversion packet.version.destination_inBounds
  · rw [Packet.ports_clampMss]
    refine Packet.ports_write (by omega) (Or.inl ?_)
    rw [hlength]
    exact packet.destinationOffset_le_headerLength

/-- A reply to `sent` comes from where it has been sent to. -/
structure Packet.Mirrors (reply sent : Packet) : Prop where
  source : reply.source = sent.destination
  destination : reply.destination = sent.source
  ports : ∀ sourcePort destinationPort, sent.ports = some (sourcePort, destinationPort) →
    reply.ports = some (destinationPort, sourcePort)

def Delivers (translation : Translation) (bytes : Bytes) (address : IpAddr) (port : UInt16) :
    Prop :=
  (prepareInbound bytes translation).2 = true ∧
    ∃ delivered remotePort, Packet.parse (prepareInbound bytes translation).1 = some delivered ∧
      delivered.destination = address ∧ delivered.ports = some (remotePort, port)

theorem delivers_iff {remotePort port : UInt16} (hparse : Packet.parse bytes = some packet)
    (hdestination : packet.destination = translation.tunnel)
    (hports : packet.ports = some (remotePort, port)) {address : IpAddr}
    (haddress : addressVersion address = packet.version) :
    Delivers translation bytes address port ↔ address = translation.physical := by
  by_cases hversion : addressVersion translation.physical = packet.version
  · obtain ⟨delivered, hinbound, hself, hphysical, hsame⟩ :=
      prepareInbound_delivers hparse hdestination hversion
    rw [Delivers, hinbound]
    constructor
    · intro ⟨_, delivered', _, hparse', hto, _⟩
      rw [Option.some.inj (hself.symm.trans hparse')] at hphysical
      rw [← hto, hphysical]
    · intro h
      exact ⟨rfl, delivered, remotePort, hself, hphysical.trans h.symm, hsame.trans hports⟩
  · rw [Delivers, prepareInbound_other_family hparse hversion]
    refine iff_of_false (fun h => Bool.false_ne_true h.1) fun h => hversion ?_
    rw [← h, haddress]

theorem prepareOutbound_sent (h : (prepareOutbound bytes table translation).2 = .tunnel) :
    ∃ packet ports sent, Packet.parse bytes = some packet ∧ packet.ports = some ports ∧
      Packet.parse (prepareOutbound bytes table translation).1 = some sent ∧
      addressVersion translation.tunnel = packet.version ∧ sent.source = translation.tunnel ∧
      sent.ports = some ports ∧
      (∀ i, sent.bytes[i]? ≠ bytes[i]? →
        (packet.version.sourceOffset ≤ i ∧
          i < packet.version.sourceOffset + packet.version.addressLength) ∨
        ∃ k, packet.FirstMss k ∧ (i = k + 2 ∨ i = k + 3)) ∧
      ∀ k, packet.FirstMss k → (mss sent.bytes k).toNat =
        min (mss bytes k).toNat translation.maxSegmentSize.toNat := by
  rcases prepareOutbound_cases bytes table translation with
    ⟨hne, -⟩ | ⟨packet, ports, translated, hin, hparse, hports, hversion, htranslated, heq⟩
  · exact absurd h hne
  obtain ⟨rfl, hself⟩ := parse_self hparse
  have hlength : (addressOctets translation.tunnel).length = packet.version.addressLength := by
    rw [addressOctets_length, hversion]
  have hend : packet.version.sourceOffset + (addressOctets translation.tunnel).length ≤
      packet.headerLength := by
    rw [hlength]
    exact packet.sourceOffset_le_headerLength
  have hread : ∀ i, ¬ (packet.version.sourceOffset ≤ i ∧ i < packet.version.sourceOffset +
      (addressOctets translation.tunnel).length) → translated.bytes[i]? = packet.bytes[i]? := by
    intro i hi
    rw [htranslated]
    exact (Vec.getElem?_overwrite hin i).trans (if_neg hi)
  have hfirst : ∀ k, translated.FirstMss k ↔ packet.FirstMss k := by
    rw [htranslated]
    exact fun k => Packet.firstMss_write_header hin le_rfl hend
  refine ⟨packet, ports, (translated.clampMss translation.maxSegmentSize).1, hparse, hports, ?_,
    hversion, ?_, ?_, ?_, ?_⟩
  · rw [heq, htranslated]
    exact Packet.parse_clampMss _ _ (Packet.parse_write hself le_rfl)
  · rw [Packet.source_clampMss, htranslated]
    exact Packet.address_write_self hversion packet.version.source_inBounds
  · rw [Packet.ports_clampMss, htranslated, Packet.ports_write le_rfl (Or.inl hend), hports]
  · intro i hi
    rw [← hlength]
    by_cases hclamped :
        (translated.clampMss translation.maxSegmentSize).1.bytes[i]? = translated.bytes[i]?
    · rw [hclamped] at hi
      exact Or.inl (not_not.mp fun hout => hi (hread i hout))
    · obtain ⟨k, hk, hi⟩ := Packet.clampMss_frame _ _ hclamped
      exact Or.inr ⟨k, (hfirst k).mp hk, hi⟩
  · intro k hk
    have hbounds := hk.bounds.1
    rw [Packet.mss_clampMss _ _ ((hfirst k).mpr hk), mss, mss, List.getD_eq_getElem?_getD,
      List.getD_eq_getElem?_getD, hread _ (by omega), hread _ (by omega),
      ← List.getD_eq_getElem?_getD, ← List.getD_eq_getElem?_getD]

/-- A packet that is not for the tunnel is not changed, a packet for the tunnel only in its
source address and segment size. A reply to it reaches the sender exactly if the sender has
used the physical address of the translation. -/
theorem reply_delivered_iff (bytes : Bytes) (table : FlowTable) (translation : Translation) :
    ((prepareOutbound bytes table translation).2 ≠ .tunnel →
      (prepareOutbound bytes table translation).1 = bytes) ∧
    ((prepareOutbound bytes table translation).2 = .tunnel →
      ∃ packet sourcePort destinationPort sent, Packet.parse bytes = some packet ∧
        packet.ports = some (sourcePort, destinationPort) ∧
        Packet.parse (prepareOutbound bytes table translation).1 = some sent ∧
        sent.source = translation.tunnel ∧
        (∀ i, sent.bytes[i]? ≠ bytes[i]? →
          (packet.version.sourceOffset ≤ i ∧
            i < packet.version.sourceOffset + packet.version.addressLength) ∨
          ∃ k, packet.FirstMss k ∧ (i = k + 2 ∨ i = k + 3)) ∧
        (∀ k, packet.FirstMss k → (mss sent.bytes k).toNat =
          min (mss bytes k).toNat translation.maxSegmentSize.toNat) ∧
        ∀ answer reply, Packet.parse answer = some reply → reply.Mirrors sent →
          (Delivers translation answer packet.source sourcePort ↔
            packet.source = translation.physical)) ∧
    ∀ inbound, (∀ packet, Packet.parse inbound = some packet →
      packet.destination ≠ translation.tunnel) →
        prepareInbound inbound translation = (inbound, false) := by
  refine ⟨?_, ?_, fun inbound h => prepareInbound_refuses h⟩
  · intro h
    rcases prepareOutbound_cases bytes table translation with
      ⟨-, hsame⟩ | ⟨packet, ports, translated, hin, -, -, -, -, heq⟩
    · exact hsame
    · exact absurd (congrArg Prod.snd heq) h
  · intro h
    obtain ⟨packet, ⟨sourcePort, destinationPort⟩, sent, hparse, hports, hsent, hversion, hsource,
      hsame, hframe, hmss⟩ := prepareOutbound_sent h
    refine ⟨packet, sourcePort, destinationPort, sent, hparse, hports, hsent, hsource, hframe, hmss,
      ?_⟩
    intro answer reply hreply hmirrors
    have hto : reply.destination = translation.tunnel := hmirrors.destination.trans hsource
    -- the reply has the family of the tunnel address, which is that of the packet
    have hfamily : packet.version = reply.version := by
      rw [← hversion, ← hto, Packet.destination, Packet.address_version]
    refine delivers_iff hreply hto (hmirrors.ports _ _ hsame) ?_
    rw [Packet.source, Packet.address_version, hfamily]

section Sample

def datagram (source destination : Ipv4Addr) (transport : Bytes) : Packet :=
  { sampleHeader 44 0 with source, destination }.packet transport

def replyTransport : Bytes :=
  toBeBytes 443 ++ toBeBytes 54518 ++ toBeBytes 24 ++ toBeBytes 0 ++ List.replicate 16 7

def multihomed : Packet := datagram ⟨10, 0, 0, 5⟩ ⟨1, 1, 1, 1⟩ sampleTransport

def translatedSample : Packet := datagram ⟨10, 77, 0, 22⟩ ⟨1, 1, 1, 1⟩ sampleTransport

def replySample : Packet := datagram ⟨1, 1, 1, 1⟩ ⟨10, 77, 0, 22⟩ replyTransport

def multihomedTable : FlowTable :=
  ⟨(∅ : HashMap FlowKey Disposition).insert (multihomed.flowKey 54518 443) .tunnel⟩

theorem replySample_mirrors : replySample.Mirrors translatedSample := by
  have hsent : translatedSample.ports = some (54518, 443) := by decide
  refine ⟨by decide, by decide, fun sourcePort destinationPort h => ?_⟩
  rw [hsent, Option.some.injEq, Prod.mk.injEq] at h
  rw [← h.1, ← h.2]
  decide

/-- The packet goes through the tunnel, and the reply is delivered to the other interface. -/
theorem multihomed_reply_misdelivered :
    Packet.parse multihomed.bytes = some multihomed ∧
    multihomed.ports = some (54518, 443) ∧ multihomed.source = .v4 ⟨10, 0, 0, 5⟩ ∧
    prepareOutbound multihomed.bytes multihomedTable sampleTranslation =
      (translatedSample.bytes, .tunnel) ∧
    Packet.parse translatedSample.bytes = some translatedSample ∧
    Packet.parse replySample.bytes = some replySample ∧ replySample.Mirrors translatedSample ∧
    ¬ Delivers sampleTranslation replySample.bytes multihomed.source 54518 ∧
    Delivers sampleTranslation replySample.bytes (.v4 ⟨192, 168, 0, 189⟩) 54518 := by
  have hreply : Packet.parse replySample.bytes = some replySample := by decide
  have hto : replySample.destination = sampleTranslation.tunnel := by decide
  have hports : replySample.ports = some (443, 54518) := by decide
  refine ⟨by decide, by decide, by decide, by decide +kernel, by decide, hreply,
    replySample_mirrors, ?_, ?_⟩
  · rw [delivers_iff hreply hto hports (by decide)]
    decide
  · rw [delivers_iff hreply hto hports (by decide)]
    decide

end Sample

end MouseVpn.Windows
