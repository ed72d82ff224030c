import MouseVpn.Client.SessionMtu

/-!
# The MTU of the Android interface

`calculateTunnelMtu` subtracts one constant per wire mode from the MTU of the physical link.
The constant must cover what the tunnel encoder and the frame encoder add to a packet, with the
longest padding that the frame encoder can draw.
-/

namespace MouseVpn.Android

open MouseVpn.Lib MouseVpn.Client MouseVpn.Crypto MouseVpn.DataPlane MouseVpn.Protocol
open MouseVpn.Wire
open MouseVpn.Wire.Morph (IdealAead MorphCodec)
open MouseVpn.Wire.Speedy (SpeedyCodec)

variable {lib : Libraries}

def tunnelOverhead (morph : Bool) : ℤ := 65 + if morph then 73 else 0

/-- The link MTU is positive where it is subtracted from, so that no `Int` wraps here. -/
def calculateTunnelMtu (serverMtu : ℤ) (underlyingMtu : Option ℤ) (morph : Bool) :
    Except String ℤ :=
  match underlyingMtu with
  | none => .ok serverMtu
  | some link =>
    if link ≤ 0 then .ok serverMtu
    else
      let fits := link - tunnelOverhead morph
      if fits ≥ 576 then .ok (min serverMtu fits)
      else .error "MTU физической сети слишком мал для VPN"

theorem calculateTunnelMtu_ok_iff {serverMtu link mtu : ℤ} {morph : Bool} (hlink : 0 < link) :
    calculateTunnelMtu serverMtu (some link) morph = .ok mtu ↔
      576 ≤ link - tunnelOverhead morph ∧ mtu = min serverMtu (link - tunnelOverhead morph) := by
  simp only [calculateTunnelMtu, if_neg (not_le.mpr hlink)]
  split_ifs with hfits
  · constructor
    · intro h
      cases h
      exact ⟨hfits, rfl⟩
    · intro h
      rw [h.2]
  · constructor
    · intro h
      cases h
    · intro h
      exact absurd h.1 hfits

def Flagged (morph : Bool) : ClientWire → Prop
  | .legacy => morph = false
  | .morph _ => morph = true
  | .speedy _ => False

def udpHeaderLen : ℕ := 8

def ipv4HeaderLen : ℕ := 20

def outerLength (frame : Bytes) : ℕ := ipv4HeaderLen + udpHeaderLen + frame.length

theorem call_length_of_le {s : TunnelSender} {rx : StatelessTransportState}
    (ht : PairedTransports s.crypto.transport rx) {packet output datagram : Bytes}
    (h : (s.call (.ip packet output)).2 = .ok datagram) : datagram.length ≤ packet.length + 37 := by
  have hoverhead : headerLen + 1 + authTagLen = 37 := rfl
  have hcut : (EncodeCall.ip packet output).payload.length ≤ packet.length := by
    rw [EncodeCall.payload, List.length_take]
    exact min_le_right _ _
  have hlen := (TunnelSender.call_length ht h).1
  omega

theorem encodeInto_length (ha : IdealAead lib) {wire : ClientWire} {morph : Bool}
    (hw : Flagged morph wire) {calls : List SpeedyCodec.Call} {inner output frame : Bytes}
    {now : ClockReading} {random : Except String (Vector UInt8 Morph.frameRandomLen)}
    (h : wire.encodeInto lib calls inner now random output = (frame, .ok ())) :
    frame.length ≤ inner.length + if morph then 73 else 0 := by
  cases wire with
  | legacy =>
    cases hw
    obtain rfl : inner = frame := by simpa [ClientWire.encodeInto, Vec.clear] using h
    simp
  | morph codec =>
    cases hw
    have he := (MorphCodec.encodePayloadInto_ok_iff output).mp (ClientWire.encodeInto_morph h)
    exact Morph.encodeFrame_overhead ha he
  | speedy codec => exact hw.elim

theorem outerLength_le (ha : IdealAead lib) {wire : ClientWire} {morph : Bool}
    (hw : Flagged morph wire) {s : TunnelSender} {rx : StatelessTransportState}
    (ht : PairedTransports s.crypto.transport rx) {calls : List SpeedyCodec.Call}
    {packet buffer datagram output frame : Bytes} {now : ClockReading}
    {random : Except String (Vector UInt8 Morph.frameRandomLen)}
    (hd : (s.call (.ip packet buffer)).2 = .ok datagram)
    (hf : wire.encodeInto lib calls datagram now random output = (frame, .ok ())) :
    (outerLength frame : ℤ) ≤ packet.length + tunnelOverhead morph := by
  have hheaders : ipv4HeaderLen + udpHeaderLen = 28 := rfl
  have hdatagram := call_length_of_le ht hd
  have hframe := encodeInto_length ha hw hf
  rw [outerLength, tunnelOverhead]
  cases morph with
  | false =>
    simp only [Bool.false_eq_true, if_false] at hframe ⊢
    omega
  | true =>
    simp only [if_true] at hframe ⊢
    omega

/-- An interface MTU that the policy returns for a known link is within the MTU of the server,
is cut no lower than 576, and keeps every outer datagram within the MTU of the link. -/
theorem tunnel_mtu_sufficient (ha : IdealAead lib) {serverMtu link mtu : ℤ} {morph : Bool}
    (hlink : 0 < link) (h : calculateTunnelMtu serverMtu (some link) morph = .ok mtu) :
    mtu ≤ serverMtu ∧ (mtu < serverMtu → 576 ≤ mtu) ∧
      ∀ (s : TunnelSender) (rx : StatelessTransportState) (wire : ClientWire)
        (packet buffer datagram : Bytes) (calls : List SpeedyCodec.Call) (now : ClockReading)
        (random : Except String (Vector UInt8 Morph.frameRandomLen)) (output frame : Bytes),
        PairedTransports s.crypto.transport rx → Flagged morph wire →
        (packet.length : ℤ) ≤ mtu → (s.call (.ip packet buffer)).2 = .ok datagram →
        wire.encodeInto lib calls datagram now random output = (frame, .ok ()) →
        (outerLength frame : ℤ) ≤ link := by
  obtain ⟨hfits, rfl⟩ := (calculateTunnelMtu_ok_iff hlink).mp h
  refine ⟨min_le_left _ _, ?_, ?_⟩
  · intro hcut
    rw [min_lt_iff] at hcut
    have hlt : link - tunnelOverhead morph < serverMtu := hcut.resolve_left (lt_irrefl _)
    rw [min_eq_right hlt.le]
    exact hfits
  · intro s rx wire packet buffer datagram calls now random output frame ht hw hp hd hf
    have houter := outerLength_le ha hw ht hd hf
    have hpacket : (packet.length : ℤ) ≤ link - tunnelOverhead morph :=
      hp.trans (min_le_right _ _)
    omega

def balancedWire : ClientWire := .morph ⟨⟨Vector.replicate 32 0⟩, .balanced⟩

/-- Behind a link of 1380 bytes MouseMorph leaves 1242 for the interface. -/
theorem tunnel_mtu_of_narrow_link :
    calculateTunnelMtu 1280 (some 1380) true = .ok 1242 ∧
      ∀ packet datagram calls now random frame, packet.length ≤ 1242 →
        ((samplePlane 1280).split.1.call (.ip packet [])).2 = .ok datagram →
        balancedWire.encodeInto clearLibraries calls datagram now random [] = (frame, .ok ()) →
        outerLength frame ≤ 1380 := by
  have h : calculateTunnelMtu 1280 (some 1380) true = .ok 1242 := by decide
  refine ⟨h, ?_⟩
  intro packet datagram calls now random frame hp hd hf
  obtain ⟨-, -, hall⟩ := tunnel_mtu_sufficient MorphCodec.clearLibraries_idealAead (by decide) h
  exact Int.ofNat_le.mp (hall _ clearTransport balancedWire packet [] datagram calls now random []
    frame clearTransport_paired rfl (by exact_mod_cast hp) hd hf)

end MouseVpn.Android
