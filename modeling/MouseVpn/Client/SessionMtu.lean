import MouseVpn.Client.Interop
import MouseVpn.DataPlane.Delivery
import MouseVpn.Server.Config

/-!
# The session MTU across the layers

The MTU of a session is the configured one, cut to what the wire mode can carry. The
session parameters bring it to the client, both tunnel ends compare packets with it, and a
packet within it always fits the wire encoding of the mode. What it does not bound is the
buffer into which the clients receive.
-/

namespace MouseVpn.Client

open MouseVpn.Lib MouseVpn.Lib.BigEndian MouseVpn.Crypto MouseVpn.DataPlane MouseVpn.Protocol
open MouseVpn.Server MouseVpn.Wire
open MouseVpn.Wire.Morph (IdealAead MorphCodec)
open MouseVpn.Wire.Speedy (SpeedyCodec)

variable {lib : Libraries} {config : ValidatedServerConfig}

theorem sessionMtu_bounds (wire : WireMode) {configured : UInt16} (hmin : 576 ≤ configured)
    (hmax : configured ≤ 9000) :
    576 ≤ wire.sessionMtu configured ∧ wire.sessionMtu configured ≤ 9000 := by
  have hmorph : Morph.safeTunMtu.toNat = 1280 := rfl
  have hspeedy : Speedy.safeTunMtu.toNat = 1391 := rfl
  have hlow : (576 : UInt16).toNat = 576 := rfl
  have hhigh : (9000 : UInt16).toNat = 9000 := rfl
  rw [UInt16.le_iff_toNat_le] at hmin hmax ⊢
  rw [UInt16.le_iff_toNat_le]
  cases wire with
  | legacy => exact ⟨hmin, hmax⟩
  | speedy publicKey codec =>
    rw [WireMode.sessionMtu, UInt16.toNat_min]
    omega
  | morph publicKey codec =>
    rw [WireMode.sessionMtu, UInt16.toNat_min]
    omega

theorem decode_sessionParameters (hs : ServerConfig.Sound lib config) (wire : WireMode)
    (lease : DeviceLease) :
    SessionParameters.decode (sessionParameters config wire lease).encode =
      .ok (sessionParameters config wire lease) := by
  obtain ⟨hmin, hmax⟩ := sessionMtu_bounds wire hs.mtu.1 hs.mtu.2
  refine SessionParameters.decode_encode _ (UInt8.not_lt.mpr hs.prefixLen) ?_
  rw [not_or]
  exact ⟨UInt16.not_lt.mpr hmin, UInt16.not_lt.mpr hmax⟩

def Takes (wire : WireMode) (datagram : Bytes) : Prop :=
  match wire with
  | .legacy => True
  | .morph _ _ => Morph.minFrameLen + datagram.length ≤ Morph.maxDatagramLen
  | .speedy _ _ => ∀ direction, Speedy.validateInner datagram direction = .ok ()

theorem validateInner_of_call {s : TunnelSender} {c : EncodeCall} {datagram : Bytes}
    (h : (s.call c).2 = .ok datagram)
    (hlen : headerLen + Speedy.sampleLen ≤ datagram.length ∧
      datagram.length ≤ Speedy.maxInnerDatagramLen) (direction : Speedy.Direction) :
    Speedy.validateInner datagram direction = .ok () := by
  obtain ⟨-, -, ciphertext, -, -, -, rfl⟩ := TunnelSender.call_ok h
  rw [Speedy.validateInner, if_neg (by omega), Datagram.decode_encode]
  cases c <;> rfl

theorem takes_of_call {wire : WireMode} {configured : UInt16} {s : TunnelSender}
    {rx : StatelessTransportState} (ht : PairedTransports s.crypto.transport rx)
    (hmtu : s.mtu = (wire.sessionMtu configured).toNat) {c : EncodeCall} {datagram : Bytes}
    (h : (s.call c).2 = .ok datagram) : Takes wire datagram := by
  obtain ⟨hlen, hle⟩ := TunnelSender.call_length ht h
  have hoverhead : headerLen + 1 + authTagLen = 37 := rfl
  rw [hmtu] at hle
  cases wire with
  | legacy => trivial
  | morph publicKey codec =>
    rw [WireMode.sessionMtu, UInt16.toNat_min] at hle
    have hsafe : Morph.safeTunMtu.toNat = 1280 := rfl
    have hmin : Morph.minFrameLen = 42 := rfl
    have hmax : Morph.maxDatagramLen = 1472 := rfl
    simp only [Takes]
    omega
  | speedy publicKey codec =>
    rw [WireMode.sessionMtu, UInt16.toNat_min] at hle
    have hsafe : Speedy.safeTunMtu.toNat = 1391 := rfl
    have hmin : headerLen + Speedy.sampleLen = 36 := rfl
    have hmax : Speedy.maxInnerDatagramLen = 1428 := rfl
    exact validateInner_of_call h (by omega)

section Encoders

variable {datagram : Bytes} (sent : UInt64) (random : Vector UInt8 Morph.frameRandomLen)

theorem encodePayloadInto_of_fits (ha : IdealAead lib) (codec : MorphCodec)
    (direction : Morph.Direction)
    (h : Morph.minFrameLen + datagram.length ≤ Morph.maxDatagramLen) (buffer : Bytes) :
    ∃ frame, codec.encodePayloadInto lib datagram direction (some sent) (.ok random) buffer =
      (frame, .ok ()) := by
  obtain ⟨nonce, padding, ciphertext, tag, -, -, -, -, he⟩ :=
    Morph.encodeFrame_ok ha codec.key codec.profile .payload direction sent random h
  exact ⟨_, (MorphCodec.encodePayloadInto_ok_iff buffer).mpr he⟩

theorem encodeInto_of_valid (lib : Libraries) (sent : UInt64) (codec : SpeedyCodec)
    (calls : List SpeedyCodec.Call)
    {direction : Speedy.Direction} (h : Speedy.validateInner datagram direction = .ok ())
    (buffer : Bytes) :
    (codec.encodeInto lib (codec.cacheAfter lib calls) datagram direction (some sent) buffer).2 =
      (codec.frameAt lib direction (sent / Speedy.epochSeconds) datagram, .ok ()) :=
  (SpeedyCodec.encodeInto_ok_iff (codec.valid_cacheAfter lib calls) buffer).mpr
    ⟨sent, rfl, h, rfl⟩

theorem encodeServerInto_of_takes (ha : IdealAead lib) {wire : WireMode}
    (h : Takes wire datagram) (calls : SpeedyCodec → List SpeedyCodec.Call) (buffer : Bytes) :
    ∃ frame, wire.encodeServerInto lib calls datagram ⟨some sent, .ok random⟩ buffer =
      (frame, .ok ()) := by
  cases wire with
  | legacy => exact ⟨_, rfl⟩
  | morph publicKey codec =>
    obtain ⟨frame, he⟩ := encodePayloadInto_of_fits sent random ha codec .serverToClient h buffer
    exact ⟨frame, by simp only [WireMode.encodeServerInto, he]⟩
  | speedy publicKey codec =>
    have he := encodeInto_of_valid lib sent codec (calls codec) (h .serverToClient) buffer
    exact ⟨codec.frameAt lib .serverToClient (sent / Speedy.epochSeconds) datagram, by
      simp only [WireMode.encodeServerInto, he]⟩

theorem encodeInto_of_takes (ha : IdealAead lib) {wire : ClientWire} {device : PublicKey}
    (h : Takes (wire.serverMode device) datagram) (calls : List SpeedyCodec.Call)
    (buffer : Bytes) :
    ∃ frame, wire.encodeInto lib calls datagram (some sent) (.ok random) buffer =
      (frame, .ok ()) := by
  cases wire with
  | legacy => exact ⟨_, rfl⟩
  | morph codec =>
    obtain ⟨frame, he⟩ := encodePayloadInto_of_fits sent random ha codec .clientToServer h buffer
    exact ⟨frame, by simp only [ClientWire.encodeInto, he]⟩
  | speedy codec =>
    have he := encodeInto_of_valid lib sent codec calls (h .clientToServer) buffer
    exact ⟨codec.frameAt lib .clientToServer (sent / Speedy.epochSeconds) datagram, by
      simp only [ClientWire.encodeInto, he]⟩

end Encoders

def Seals (tx : StatelessTransportState) : Prop :=
  ∀ nonce plaintext capacity, plaintext.length + authTagLen ≤ capacity →
    plaintext.length ≤ maxPlaintextLen → ∃ ciphertext,
      tx.writeMessage nonce plaintext capacity = .ok ciphertext

/-- An IPv4 packet of `n` bytes: a header without options and zeros. -/
def blankPacket (n : ℕ) : Bytes := [0x45, 0] ++ beBytes 2 n ++ List.replicate (n - 4) 0

theorem blankPacket_length {n : ℕ} (h : 4 ≤ n) : (blankPacket n).length = n := by
  simp only [blankPacket, List.length_append, List.length_cons, List.length_nil, beBytes_length,
    List.length_replicate]
  omega

theorem parseWithinMtu_blankPacket {n mtu : ℕ} (hmin : 20 ≤ n) (hmax : n < 65536) (hle : n ≤ mtu) :
    ∃ ip, parseWithinMtu mtu (blankPacket n) = .ok ip ∧ ip.bytes = blankPacket n := by
  have hlen : (blankPacket n).length = n := blankPacket_length (by omega)
  have htotal : totalLength (blankPacket n) = n := beNat_beBytes_of_lt (n := 2) hmax
  have hfirst : (blankPacket n).getD 0 0 = 0x45 := rfl
  have hversion : (0x45 : UInt8) >>> 4 = 4 := by decide
  have hheader : ((0x45 : UInt8) &&& 0x0f).toNat * 4 = 20 := by decide
  have hbytes : (blankPacket n).take n = blankPacket n := List.take_of_length_le hlen.le
  simp only [parseWithinMtu, Ipv4Packet.parse, hlen, htotal, hfirst, hversion, hheader, hbytes,
    minimumHeaderLen]
  rw [if_neg (by omega), if_neg (by simp), if_neg (by omega), if_neg (by omega)]
  simp only [hlen]
  rw [if_neg (by omega)]
  exact ⟨_, rfl, rfl⟩

theorem call_blankPacket {s : TunnelSender} (hseals : Seals s.crypto.transport)
    (hnext : checkedAdd s.nextSequence 1 ≠ none) {n : ℕ} (hmin : 20 ≤ n) (hmax : n < 65000)
    (hle : n ≤ s.mtu) : ∃ datagram, (s.call (.ip (blankPacket n) [])).2 = .ok datagram ∧
      (EncodeCall.ip (blankPacket n) []).payload.length = n := by
  obtain ⟨ip, hp, hb⟩ := parseWithinMtu_blankPacket hmin (by omega) hle
  have hlen : ip.bytes.length = n := hb ▸ blankPacket_length (by omega)
  have hplain : (InnerPacketKind.data.toByte :: ip.bytes).length ≤ maxPlaintextLen := by
    have : maxPlaintextLen = 65519 := rfl
    simp only [List.length_cons]
    omega
  obtain ⟨ciphertext, hw⟩ := hseals s.nextSequence (InnerPacketKind.data.toByte :: ip.bytes)
    (ip.bytes.length + 1 + authTagLen) (by simp) hplain
  have henc : s.crypto.encryptInto s.nextSequence (InnerPacketKind.data.toByte :: ip.bytes)
      (ip.bytes.length + 1 + authTagLen) = .ok ciphertext := encryptInto_ok_iff.mpr ⟨hplain, hw⟩
  simp only [TunnelSender.call, TunnelSender.encodeIpInto, hp]
  rcases s.encodeInto_cases .data .data ip.bytes [] with
    ⟨hn, -⟩ | ⟨e, -, he, -⟩ | ⟨next, c, -, -, he⟩
  · exact absurd hn hnext
  · rw [henc] at he
    cases he
  · have hpayload := (Ipv4Packet.parse_ok (parseWithinMtu_ok hp)).1
    refine ⟨_, by rw [he]; rfl, ?_⟩
    rw [EncodeCall.payload, ← hpayload, hlen]

theorem sessionMtu_of_speedy {config : ValidatedServerConfig} {device : PublicKey}
    {mode : WireMode} (h : deviceMode lib config device .speedy = .ok mode) (mtu : UInt16) :
    mode.sessionMtu mtu = min mtu Speedy.safeTunMtu := by
  simp only [deviceMode, ClientProtocol.morphProfile, if_true] at h
  cases hcodec : deviceSpeedyCodec lib config device with
  | error e => simp [hcodec, Except.map] at h
  | ok codec =>
    rw [hcodec] at h
    cases h
    rfl

/-- Both ends agree on the MTU, and every packet within it passes both wire encoders and
both decoders and comes out of the tunnel as it went in. -/
theorem mtu_agreement (ha : IdealAead lib) (hdh : X25519Commutes lib) {raw : ServerConfig}
    {validated : ServerConfig.Validated} (hconfig : raw.validate lib = .ok validated)
    {client : ValidatedClientConfig} (hserver : client.serverPublicKey = validated.serverPublicKey)
    {wire : ClientWire} (hwire : ClientWire.fromConfig lib client = .ok wire) :
    let config := validated.toValidatedServerConfig
    let device := client.device lib
    ∃ mode, deviceMode lib config device client.protocol = .ok mode ∧
    (∀ lease, SessionParameters.decode (sessionParameters config mode lease).encode =
      .ok (sessionParameters config mode lease)) ∧
    ∀ (s : TunnelSender) (r : TunnelReceiver) (c : EncodeCall) (datagram : Bytes),
      s.mtu = (mode.sessionMtu config.tun.mtu).toNat → Connected s r →
      (s.call c).2 = .ok datagram →
      (∀ calls sent random buffer, ∃ frame,
        mode.encodeServerInto lib calls datagram ⟨some sent, .ok random⟩ buffer =
          (frame, .ok ()) ∧
        ∀ clientCalls now output, wire.EpochsAgree (some sent) now →
          wire.decodeInto lib clientCalls frame now output = (datagram, .ok true)) ∧
      (∀ clientCalls sent random buffer, ∃ frame,
        wire.encodeInto lib clientCalls datagram (some sent) (.ok random) buffer =
          (frame, .ok ()) ∧
        ∀ (m : Reception) calls output, m.Ready lib config wire device (some sent) frame →
          m.decode lib config calls frame output = (datagram, some mode)) ∧
      ∀ output, ∃ d, Datagram.decode datagram = .ok d ∧
        (r.decodeInto d output).2.2 = .ok c.meaning := by
  intro config device
  have hs := ServerConfig.sound_of_validate hconfig
  have hmode := ClientWire.deviceMode_of_fromConfig hdh ⟨hs.keyPair, hserver⟩ hwire
  refine ⟨_, hmode, decode_sessionParameters hs _, fun s r c datagram hmtu hc h => ?_⟩
  have htakes := takes_of_call hc.transports hmtu h
  refine ⟨fun calls sent random buffer => ?_, fun clientCalls sent random buffer => ?_,
    fun output => hc.deliver h output⟩
  · obtain ⟨frame, he⟩ := encodeServerInto_of_takes sent random ha htakes calls buffer
    exact ⟨frame, he, fun clientCalls now output hf =>
      ClientWire.to_client ha device calls clientCalls hf he output⟩
  · obtain ⟨frame, he⟩ := encodeInto_of_takes sent random ha htakes clientCalls buffer
    exact ⟨frame, he, fun m calls output hm => ClientWire.to_server ha hmode hm he output⟩

section Sample

def rawConfig (mtu : UInt16) : ServerConfig :=
  { serverPublicKey := encodePublicKey clearLibraries ClientWire.pairedConfig.serverPublicKey
    serverPrivateKey :=
      clearLibraries.base64Encode ClientWire.pairedConfig.serverPrivateKey.bytes.toList
    tun := { sampleConfig.tun with mtu }
    clients := [⟨"device", ClientWire.sampleDevice.publicKey, ClientWire.sampleDevice.address⟩] }

theorem rawConfig_validate {mtu : UInt16} (h : mtu = 1280 ∨ mtu = 1500) :
    ∃ validated, (rawConfig mtu).validate clearLibraries = .ok validated ∧
      validated.tun.mtu = mtu ∧
      validated.serverPublicKey = ClientWire.pairedConfig.serverPublicKey := by
  have hcheck : isOkAnd ((rawConfig mtu).validate clearLibraries) (fun validated =>
      validated.tun.mtu = mtu ∧
        validated.serverPublicKey = ClientWire.pairedConfig.serverPublicKey) = true := by
    rcases h with rfl | rfl <;> decide +kernel
  obtain ⟨validated, hv, hfields⟩ := isOkAnd_iff.mp hcheck
  exact ⟨validated, hv, of_decide_eq_true hfields⟩

def samplePlane (mtu : ℕ) : TunnelDataPlane :=
  TunnelDataPlane.new 1 mtu (SecureSession.new clearTransport (sampleKey 2))

theorem samplePlane_connected (mtu : ℕ) :
    Connected (samplePlane mtu).split.1 (samplePlane mtu).split.2 :=
  ⟨clearTransport_paired, rfl, rfl, show ReplayWindow.default.ensureAcceptable 0 = _ by decide⟩

theorem clearTransport_seals : Seals clearTransport := by
  intro nonce plaintext capacity hc _
  exact ⟨_, if_neg (not_lt.mpr hc)⟩

/-- A packet of 1391 bytes fills the datagram of a Speedy session. -/
theorem mtu_agreement_sample :
    ∃ validated mode datagram frame,
      (rawConfig 1500).validate clearLibraries = .ok validated ∧
      deviceMode clearLibraries validated.toValidatedServerConfig
        (ClientWire.sampleClient.device clearLibraries) .speedy = .ok mode ∧
      ((samplePlane 1391).split.1.call (.ip (blankPacket 1391) [])).2 = .ok datagram ∧
      datagram.length = Speedy.maxInnerDatagramLen ∧
      mode.encodeServerInto clearLibraries (fun _ => []) datagram
        ⟨some 1000, .ok (Vector.replicate _ 0)⟩ [] = (frame, .ok ()) ∧
      ∃ d, Datagram.decode datagram = .ok d ∧
        ((samplePlane 1391).split.2.decodeInto d []).2.2 =
          .ok (EncodeCall.ip (blankPacket 1391) []).meaning := by
  obtain ⟨validated, hv, hmtu, hkey⟩ := rawConfig_validate (Or.inr rfl)
  obtain ⟨mode, hmode, -, hsession⟩ := mtu_agreement MorphCodec.clearLibraries_idealAead
    ClientWire.clearLibraries_x25519Commutes hv hkey.symm ClientWire.fromConfig_sample
  have hspeedy : (mode.sessionMtu validated.tun.mtu).toNat = 1391 := by
    rw [sessionMtu_of_speedy hmode, hmtu]
    rfl
  obtain ⟨datagram, hsent, hpayload⟩ := call_blankPacket
    (show Seals (samplePlane 1391).split.1.crypto.transport from clearTransport_seals) (by decide)
    (show 20 ≤ 1391 by decide) (by decide) (Nat.le_refl _)
  have hlength := (TunnelSender.call_length clearTransport_paired hsent).1
  rw [hpayload] at hlength
  obtain ⟨hserver, -, hdecoded⟩ := hsession _ _ _ _ hspeedy.symm (samplePlane_connected 1391) hsent
  obtain ⟨frame, hframe, -⟩ := hserver (fun _ => []) 1000 (Vector.replicate _ 0) []
  exact ⟨validated, mode, datagram, frame, hv, hmode, hsent, hlength, hframe, hdecoded []⟩

end Sample

def receiveInto (capacity : ℕ) (datagram : Bytes) : Bytes := datagram.take capacity

theorem receiveInto_eq_self {capacity : ℕ} {datagram : Bytes} :
    receiveInto capacity datagram = datagram ↔ datagram.length ≤ capacity :=
  List.take_eq_self_iff datagram

theorem encodeServerInto_length (ha : IdealAead lib) {wire : WireMode} (hw : wire ≠ .legacy)
    {calls : SpeedyCodec → List SpeedyCodec.Call} {datagram buffer frame : Bytes}
    {sources : FrameSources}
    (h : wire.encodeServerInto lib calls datagram sources buffer = (frame, .ok ())) :
    frame.length ≤ maxWireDatagramLen := by
  cases wire with
  | legacy => exact absurd rfl hw
  | morph publicKey codec =>
    have he := (WireMode.encodeServerInto_morph lib calls).mp h
    exact Morph.encodeFrame_length ha ((MorphCodec.encodePayloadInto_ok_iff buffer).mp he)
  | speedy publicKey codec =>
    have he := (WireMode.encodeServerInto_speedy lib calls).mp h
    obtain ⟨seconds, -, hv, rfl⟩ :=
      (SpeedyCodec.encodeInto_ok_iff (codec.valid_cacheAfter lib _) buffer).mp he
    have hmax := (Speedy.length_of_validateInner hv).2
    rw [SpeedyCodec.frameAt_length]
    have hlimit : Speedy.maxInnerDatagramLen + Speedy.overhead = 1452 := rfl
    have hbuffer : maxWireDatagramLen = 1472 := rfl
    omega

/-- The clients receive every datagram of the session whole exactly when the session is
masked or its MTU leaves room for the overhead. -/
theorem received_whole_iff (ha : IdealAead lib) {raw : ServerConfig}
    {validated : ServerConfig.Validated} (hconfig : raw.validate lib = .ok validated)
    (mode : WireMode) {s : TunnelSender}
    (hmtu : s.mtu = (mode.sessionMtu validated.tun.mtu).toNat) {rx : StatelessTransportState}
    (ht : PairedTransports s.crypto.transport rx) (hseals : Seals s.crypto.transport)
    (hnext : checkedAdd s.nextSequence 1 ≠ none) :
    (∀ packet output datagram calls sources buffer frame,
      (s.call (.ip packet output)).2 = .ok datagram →
      mode.encodeServerInto lib calls datagram sources buffer = (frame, .ok ()) →
      receiveInto maxWireDatagramLen frame = frame) ↔
      (mode = .legacy → validated.tun.mtu.toNat ≤ 1435) := by
  have hoverhead : headerLen + 1 + authTagLen = 37 := rfl
  have hbuffer : maxWireDatagramLen = 1472 := rfl
  constructor
  · rintro h rfl
    by_contra hlarge
    have hmax := UInt16.le_iff_toNat_le.mp (ServerConfig.sound_of_validate hconfig).mtu.2
    obtain ⟨datagram, hd, hpayload⟩ := call_blankPacket hseals hnext (n := validated.tun.mtu.toNat)
      (by omega) (lt_of_le_of_lt hmax (by decide)) hmtu.ge
    have hwhole := h _ _ datagram (fun _ => []) ⟨none, .error ""⟩ [] datagram hd rfl
    rw [receiveInto_eq_self, (TunnelSender.call_length ht hd).1] at hwhole
    omega
  · intro h packet output datagram calls sources buffer frame hd he
    rw [receiveInto_eq_self]
    by_cases hw : mode = .legacy
    · subst hw
      obtain rfl : datagram = frame := by
        simpa [WireMode.encodeServerInto, Vec.clear] using he
      obtain ⟨hlen, hle⟩ := TunnelSender.call_length ht hd
      have := h rfl
      rw [hmtu, WireMode.sessionMtu] at hle
      omega
    · exact encodeServerInto_length ha hw he

section Sample

theorem received_whole_sample :
    ∃ validated, (rawConfig 1280).validate clearLibraries = .ok validated ∧
      ∀ packet output datagram calls sources buffer frame,
        ((samplePlane 1280).split.1.call (.ip packet output)).2 = .ok datagram →
        WireMode.legacy.encodeServerInto clearLibraries calls datagram sources buffer =
          (frame, .ok ()) →
        receiveInto maxWireDatagramLen frame = frame := by
  obtain ⟨validated, hv, hmtu, -⟩ := rawConfig_validate (Or.inl rfl)
  refine ⟨validated, hv, (received_whole_iff MorphCodec.clearLibraries_idealAead hv .legacy ?_
    clearTransport_paired clearTransport_seals (by decide)).mpr fun _ => ?_⟩
  · rw [hmtu]
    rfl
  · rw [hmtu]
    decide

def jumboSender : TunnelSender := { (samplePlane 1500).split.1 with nextSequence := 1 }

def jumboDatagram : Bytes := (jumboSender.call (.ip (blankPacket 1500) [])).2.toOption.getD []

/-- A server with an MTU of 1500 sends 1537 bytes in a legacy session. The client keeps 1472 of
them, and its receiver refuses those. -/
theorem truncated_datagram :
    ∃ validated d, (rawConfig 1500).validate clearLibraries = .ok validated ∧
      jumboSender.mtu = (WireMode.legacy.sessionMtu validated.tun.mtu).toNat ∧
      (jumboSender.call (.ip (blankPacket 1500) [])).2 = .ok jumboDatagram ∧
      WireMode.legacy.encodeServerInto clearLibraries (fun _ => []) jumboDatagram
        ⟨none, .error ""⟩ [] = (jumboDatagram, .ok ()) ∧
      jumboDatagram.length = 1537 ∧
      (receiveInto maxWireDatagramLen jumboDatagram).length = 1472 ∧
      Datagram.decode (receiveInto maxWireDatagramLen jumboDatagram) = .ok d ∧
      ((samplePlane 1500).split.2.decodeInto d []).2.2 = .error (.crypto (.noise .decrypt)) := by
  have hreject : isOkAnd (Datagram.decode (receiveInto maxWireDatagramLen jumboDatagram)) (fun d =>
      ((samplePlane 1500).split.2.decodeInto d []).2.2 = .error (.crypto (.noise .decrypt))) =
        true := by
    decide +kernel
  obtain ⟨validated, hv, hmtu, -⟩ := rawConfig_validate (Or.inr rfl)
  obtain ⟨d, hd, hrefused⟩ := isOkAnd_iff.mp hreject
  refine ⟨validated, d, hv, ?_, by decide +kernel, ?_, by decide +kernel, by decide +kernel,
    hd, of_decide_eq_true hrefused⟩
  · rw [hmtu]
    rfl
  · simp only [WireMode.encodeServerInto, Vec.clear, List.nil_append]

end Sample

end MouseVpn.Client
