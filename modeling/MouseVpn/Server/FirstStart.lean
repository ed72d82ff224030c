import MouseVpn.Server.AddressAllocation
import MouseVpn.Server.Config
import MouseVpn.Server.RegistryHistory

/-!
# The first start of a configured server

Without a store file the daemon opens the device registry with the clients of its configuration.
The validators of the two agree on addresses, subnets and keys. They differ on the prefix length,
where the registry asks for room to allocate, and on the names, which only the registry checks.
-/

namespace MouseVpn.Server

open MouseVpn.Lib MouseVpn.Crypto

inductive ServerDaemonError
  | configuration (error : String)
  deriving DecidableEq, Repr

def seedDevice (client : ValidatedAuthorizedClient) : SeedDevice :=
  ⟨client.name, client.publicKey, client.address⟩

/-- `file` is what the store path has, and `persist` the outcome of writing it. -/
def openDeviceRegistry (lib : Libraries) (file : Option StoreFile)
    (config : ServerConfig.Validated) (persist : Except String Unit) :
    Except ServerDaemonError DeviceRegistry :=
  match DeviceRegistry.open lib file (config.clients.map seedDevice) config.tun.address
      config.tun.prefixLen persist with
  | .error error => .error (.configuration error.message)
  | .ok registry => .ok registry

def DecodesEncoded (lib : Libraries) : Prop :=
  ∀ bytes, lib.base64Decode (lib.base64Encode bytes) = some bytes

variable {lib : Libraries}

theorem CanonicalBase64.decodesEncoded (h : CanonicalBase64 lib) : DecodesEncoded lib :=
  fun bytes => (h _ bytes).mpr rfl

theorem decodePublicKey_encode (h : DecodesEncoded lib) (key : PublicKey) :
    decodePublicKey lib (encodePublicKey lib key) = .ok key :=
  decodePublicKey_eq_ok.mpr (h _)

theorem buildLeases_isOk {devices : List DeviceRecord}
    (h : ∀ device ∈ devices, ∃ key, decodePublicKey lib device.publicKey = .ok key)
    (leases : HashMap PublicKey DeviceLease) (flags : List Bool) :
    ∃ built, DeviceRegistry.buildLeases lib leases flags devices = .ok built := by
  induction devices generalizing leases flags with
  | nil => exact ⟨_, rfl⟩
  | cons device devices ih =>
    obtain ⟨key, hkey⟩ := h device List.mem_cons_self
    rw [DeviceRegistry.buildLeases, hkey]
    exact ih (fun other hother => h other (List.mem_cons_of_mem _ hother)) _ _

theorem open_seeds_ok_iff {seeds : List SeedDevice} {tunnelAddress : Ipv4Addr}
    {prefixLen : UInt8} :
    (∃ registry, DeviceRegistry.open lib none seeds tunnelAddress prefixLen (.ok ()) =
        .ok registry) ↔
      validateDevices lib (seeds.map (DeviceRegistry.seedRecord lib)) tunnelAddress prefixLen =
        .ok () := by
  constructor
  · rintro ⟨registry, h⟩
    unfold DeviceRegistry.open at h
    obtain ⟨devices, hdevices, h⟩ := bind_eq_ok.mp h
    obtain rfl := Except.ok.inj hdevices
    obtain ⟨⟨⟩, hvalid, -⟩ := bind_eq_ok.mp h
    exact hvalid
  · intro hvalid
    obtain ⟨⟨leases, flags⟩, hbuilt⟩ :=
      buildLeases_isOk (validateDevices_ok hvalid).decodes ∅ []
    unfold DeviceRegistry.open
    refine ⟨_, bind_eq_ok.mpr ⟨_, rfl, bind_eq_ok.mpr ⟨(), hvalid,
      bind_eq_ok.mpr ⟨_, hbuilt, bind_eq_ok.mpr ⟨_, rfl, rfl⟩⟩⟩⟩⟩

theorem openDeviceRegistry_ok_iff {config : ServerConfig.Validated} :
    (∃ registry, openDeviceRegistry lib none config (.ok ()) = .ok registry) ↔
      validateDevices lib
        (config.clients.map fun client => DeviceRegistry.seedRecord lib (seedDevice client))
        config.tun.address config.tun.prefixLen = .ok () := by
  have hseeds :
      config.clients.map (fun client => DeviceRegistry.seedRecord lib (seedDevice client)) =
      (config.clients.map seedDevice).map (DeviceRegistry.seedRecord lib) := by
    rw [List.map_map]
    rfl
  rw [hseeds, ← open_seeds_ok_iff, openDeviceRegistry]
  cases DeviceRegistry.open lib none (config.clients.map seedDevice) config.tun.address
      config.tun.prefixLen (.ok ()) with
  | error error => simp
  | ok registry => simp

namespace ServerConfig

structure ClientsChecked (tun : ServerTunConfig) (addresses : List Ipv4Addr)
    (keys : List PublicKey) (clients : List AuthorizedClientConfig)
    (validated : List ValidatedAuthorizedClient) : Prop where
  names : validated.map ValidatedAuthorizedClient.name = clients.map AuthorizedClientConfig.name
  subnet : ∀ client ∈ validated, client.address ≠ tun.address ∧
    sameSubnet client.address tun.address tun.prefixLen = true
  fresh : ∀ client ∈ validated, client.address ∉ addresses ∧ client.publicKey ∉ keys
  addresses : (validated.map ValidatedAuthorizedClient.address).Nodup
  keys : (validated.map ValidatedAuthorizedClient.publicKey).Nodup

theorem validateClients_ok {tun : ServerTunConfig} {addresses : List Ipv4Addr}
    {keys : List PublicKey} {clients : List AuthorizedClientConfig}
    {validated : List ValidatedAuthorizedClient}
    (h : validateClients lib tun addresses keys clients = .ok validated) :
    ClientsChecked tun addresses keys clients validated := by
  induction clients generalizing addresses keys validated with
  | nil =>
    obtain rfl := Except.ok.inj h
    exact ⟨rfl, List.forall_mem_nil _, List.forall_mem_nil _, List.nodup_nil, List.nodup_nil⟩
  | cons client clients ih =>
    unfold validateClients at h
    split_ifs at h with htunnel hsubnet haddress
    obtain ⟨publicKey, -, h⟩ := bind_eq_ok.mp h
    split_ifs at h with hkey
    obtain ⟨rest, hrest, h⟩ := bind_eq_ok.mp h
    obtain rfl := Except.ok.inj h
    have hchecked := ih hrest
    refine ⟨?_, ?_, ?_, ?_, ?_⟩
    · rw [List.map_cons, List.map_cons, hchecked.names]
    · rintro other (_ | ⟨_, hother⟩)
      · exact ⟨htunnel, by simpa using hsubnet⟩
      · exact hchecked.subnet other hother
    · rintro other (_ | ⟨_, hother⟩)
      · exact ⟨haddress, hkey⟩
      · obtain ⟨hfresh, hkeys⟩ := hchecked.fresh other hother
        exact ⟨fun hmem => hfresh (List.mem_cons_of_mem _ hmem),
          fun hmem => hkeys (List.mem_cons_of_mem _ hmem)⟩
    · rw [List.map_cons, List.nodup_cons]
      refine ⟨?_, hchecked.addresses⟩
      intro hmem
      obtain ⟨other, hother, heq⟩ := List.mem_map.mp hmem
      exact (hchecked.fresh other hother).1 (heq ▸ List.mem_cons_self)
    · rw [List.map_cons, List.nodup_cons]
      refine ⟨?_, hchecked.keys⟩
      intro hmem
      obtain ⟨other, hother, heq⟩ := List.mem_map.mp hmem
      exact (hchecked.fresh other hother).2 (heq ▸ List.mem_cons_self)

theorem validate_ok {config : ServerConfig} {validated : Validated}
    (h : config.validate lib = .ok validated) :
    validated.tun = config.tun ∧ config.clients ≠ [] ∧
      ClientsChecked config.tun [] [] config.clients validated.clients := by
  unfold validate at h
  split_ifs at h with hclients hprefix hmtu
  obtain ⟨serverPublicKey, -, h⟩ := bind_eq_ok.mp h
  obtain ⟨serverPrivateKey, -, h⟩ := bind_eq_ok.mp h
  split_ifs at h with hpair
  obtain ⟨clients, hvalidated, h⟩ := bind_eq_ok.mp h
  obtain rfl := Except.ok.inj h
  exact ⟨rfl, by simpa using hclients, validateClients_ok hvalidated⟩

end ServerConfig

theorem sameSubnet_iff {prefixLen : UInt8} {mask : UInt32}
    (hmask : prefixMask prefixLen = .ok mask) {left right : Ipv4Addr} :
    sameSubnet left right prefixLen = true ↔
      left.toUInt32 &&& mask = right.toUInt32 &&& mask := by
  unfold prefixMask at hmask
  split_ifs at hmask with hlen
  obtain rfl := Except.ok.inj hmask
  rw [not_or] at hlen
  simp only [sameSubnet, if_neg hlen.1, decide_eq_true_iff]

theorem prefixMask_isOk_iff {prefixLen : UInt8} :
    (∃ mask, prefixMask prefixLen = .ok mask) ↔ 1 ≤ prefixLen.toNat ∧ prefixLen.toNat ≤ 30 := by
  constructor
  · rintro ⟨mask, h⟩
    unfold prefixMask at h
    split_ifs at h with hlen
    rw [not_or, gt_iff_lt, UInt8.not_lt, UInt8.le_iff_toNat_le] at hlen
    have hzero : prefixLen.toNat ≠ 0 := fun h0 => hlen.1 (UInt8.toNat_inj.mp h0)
    exact ⟨Nat.one_le_iff_ne_zero.mpr hzero, hlen.2⟩
  · intro hlen
    obtain ⟨k, -, hmask⟩ := prefixMask_eq hlen
    exact ⟨_, hmask⟩

theorem admissible_of_checked (hlib : DecodesEncoded lib) {tun : ServerTunConfig}
    {clients : List AuthorizedClientConfig} {validated : List ValidatedAuthorizedClient}
    (h : ServerConfig.ClientsChecked tun [] [] clients validated) (hclients : clients ≠ [])
    (hlen : 1 ≤ tun.prefixLen.toNat ∧ tun.prefixLen.toNat ≤ 30) :
    AdmissibleDevices lib tun.address tun.prefixLen
      (validated.map fun client => DeviceRegistry.seedRecord lib (seedDevice client)) := by
  have hdecode : ∀ client : ValidatedAuthorizedClient, decodePublicKey lib
      (DeviceRegistry.seedRecord lib (seedDevice client)).publicKey = .ok client.publicKey :=
    fun client => decodePublicKey_encode hlib client.publicKey
  obtain ⟨mask, hmask⟩ := prefixMask_isOk_iff.mpr hlen
  refine ⟨?_, ?_, ?_, ?_, mask, hmask, ?_⟩
  · intro hnil
    have hlength := congrArg List.length h.names
    rw [List.map_eq_nil_iff.mp hnil, List.length_map, List.length_map] at hlength
    exact hclients (List.length_eq_zero_iff.mp hlength.symm)
  · intro device hdevice
    obtain ⟨client, -, rfl⟩ := List.mem_map.mp hdevice
    exact ⟨client.publicKey, hdecode client⟩
  · rw [List.map_map]
    have hmap : validated.map ((fun device => decodePublicKey lib device.publicKey) ∘
        fun client => DeviceRegistry.seedRecord lib (seedDevice client)) =
        (validated.map ValidatedAuthorizedClient.publicKey).map .ok := by
      rw [List.map_map]
      exact List.map_congr_left fun client _ => hdecode client
    rw [hmap]
    exact h.keys.map fun _ _ => Except.ok.inj
  · rw [List.map_map]
    exact h.addresses
  · intro device hdevice
    obtain ⟨client, hclient, rfl⟩ := List.mem_map.mp hdevice
    obtain ⟨htunnel, hsubnet⟩ := h.subnet client hclient
    exact ⟨htunnel, (sameSubnet_iff hmask).mp hsubnet⟩

/-- A server with an accepted configuration starts for the first time exactly when its subnet is
one from /1 to /30 and the registry accepts the names of its clients. -/
theorem first_start_iff (lib : Libraries) (hlib : DecodesEncoded lib) (config : ServerConfig)
    (validated : ServerConfig.Validated) (accepted : config.validate lib = .ok validated) :
    (∃ registry, openDeviceRegistry lib none validated (.ok ()) = .ok registry) ↔
      (1 ≤ config.tun.prefixLen.toNat ∧ config.tun.prefixLen.toNat ≤ 30) ∧
        ∀ client ∈ config.clients, validateName client.name = .ok () := by
  obtain ⟨htun, hclients, hchecked⟩ := ServerConfig.validate_ok accepted
  have hnames : (∀ client ∈ config.clients, validateName client.name = .ok ()) ↔
      ∀ device ∈ validated.clients.map
        fun client => DeviceRegistry.seedRecord lib (seedDevice client),
        validateName device.name = .ok () := by
    have hmap := List.forall_mem_map (f := AuthorizedClientConfig.name) (l := config.clients)
      (P := fun name => validateName name = .ok ())
    rw [← hmap, ← hchecked.names, List.forall_mem_map, List.forall_mem_map]
    rfl
  rw [openDeviceRegistry_ok_iff, validateDevices_ok_iff, htun, hnames]
  constructor
  · rintro ⟨hadmissible, hvalid⟩
    obtain ⟨mask, hmask, -⟩ := hadmissible.subnet
    exact ⟨prefixMask_isOk_iff.mp ⟨mask, hmask⟩, hvalid⟩
  · rintro ⟨hlen, hvalid⟩
    exact ⟨admissible_of_checked hlib hchecked hclients hlen, hvalid⟩

section Sample

open RegistryStore (canonicalLibraries canonicalLibraries_canonical)

def oneClient (prefixLen : UInt8) (name : String) : ServerConfig :=
  let secret : SecretKey := ⟨Vector.replicate 32 5⟩
  { serverPublicKey := encodePublicKey canonicalLibraries (secret.publicKey canonicalLibraries)
    serverPrivateKey := canonicalLibraries.base64Encode secret.bytes.toList
    tun := ⟨⟨10, 77, 0, 1⟩, prefixLen, 1280, ⟨10, 77, 0, 1⟩⟩
    clients := [⟨name, encodePublicKey canonicalLibraries ⟨Vector.replicate 32 3⟩,
      ⟨10, 77, 0, 0⟩⟩] }

theorem first_start_succeeds :
    ∃ validated registry,
      (oneClient 29 "laptop").validate canonicalLibraries = .ok validated ∧
      openDeviceRegistry canonicalLibraries none validated (.ok ()) = .ok registry := by
  have haccepted : isOkAnd ((oneClient 29 "laptop").validate canonicalLibraries)
      (fun _ => true) = true := by decide +kernel
  obtain ⟨validated, hvalidated, -⟩ := isOkAnd_iff.mp haccepted
  obtain ⟨registry, hopen⟩ := (first_start_iff canonicalLibraries
    canonicalLibraries_canonical.decodesEncoded (oneClient 29 "laptop") validated
    hvalidated).mpr (by decide +kernel)
  exact ⟨validated, registry, hvalidated, hopen⟩

/-- Two configurations that are accepted and do not start: a /31 subnet, and a client without a
name. -/
theorem first_start_fails :
    ∃ narrow unnamed,
      (oneClient 31 "laptop").validate canonicalLibraries = .ok narrow ∧
      (openDeviceRegistry canonicalLibraries none narrow (.ok ())).toOption.isNone = true ∧
      (oneClient 29 "").validate canonicalLibraries = .ok unnamed ∧
      (openDeviceRegistry canonicalLibraries none unnamed (.ok ())).toOption.isNone = true := by
  have hnarrow : isOkAnd ((oneClient 31 "laptop").validate canonicalLibraries)
      (fun validated => (openDeviceRegistry canonicalLibraries none validated
        (.ok ())).toOption.isNone) = true := by decide +kernel
  have hunnamed : isOkAnd ((oneClient 29 "").validate canonicalLibraries)
      (fun validated => (openDeviceRegistry canonicalLibraries none validated
        (.ok ())).toOption.isNone) = true := by decide +kernel
  obtain ⟨narrow, hvalid, hfails⟩ := isOkAnd_iff.mp hnarrow
  obtain ⟨unnamed, hvalid', hfails'⟩ := isOkAnd_iff.mp hunnamed
  exact ⟨narrow, unnamed, hvalid, hfails, hvalid', hfails'⟩

end Sample

end MouseVpn.Server
