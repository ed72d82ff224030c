import MouseVpn.Lib.Netmask
import MouseVpn.Server.RegistryCalls

/-!
# The registry invariant

The list of devices is the one in the file and could be loaded again, and the lease map
has one active lease for each of its devices. Opening a registry establishes this,
whatever the file contains, and provisioning and revoking keep it.
-/

namespace MouseVpn.Server

open MouseVpn.Lib MouseVpn.Crypto

def CanonicalBase64 (lib : Libraries) : Prop :=
  ∀ text bytes, lib.base64Decode text = some bytes ↔ text = lib.base64Encode bytes

variable {lib : Libraries}

theorem fromSlice_ok_iff {bytes : Bytes} {key : PublicKey} :
    PublicKey.fromSlice bytes = .ok key ↔ bytes = key.bytes.toList := by
  unfold PublicKey.fromSlice
  constructor
  · intro h
    split_ifs at h
    cases h
    rfl
  · rintro rfl
    rw [dif_pos (by simp)]
    rfl

theorem decodePublicKey_eq_ok {text : String} {key : PublicKey} :
    decodePublicKey lib text = .ok key ↔ lib.base64Decode text = some key.bytes.toList := by
  unfold decodePublicKey
  cases lib.base64Decode text with
  | none => simp
  | some bytes =>
    rw [Option.some.injEq, ← fromSlice_ok_iff]
    cases hs : PublicKey.fromSlice bytes <;> simp [hs]

theorem decodePublicKey_ok_iff (hb : CanonicalBase64 lib) {text : String} {key : PublicKey} :
    decodePublicKey lib text = .ok key ↔ text = encodePublicKey lib key :=
  decodePublicKey_eq_ok.trans (hb _ _)

/-- What `validate_devices` demands of the keys and addresses of a list. -/
structure AdmissibleDevices (lib : Libraries) (tunnelAddress : Ipv4Addr) (prefixLen : UInt8)
    (devices : List DeviceRecord) : Prop where
  nonempty : devices ≠ []
  decodes : ∀ device ∈ devices, ∃ key, decodePublicKey lib device.publicKey = .ok key
  keys : (devices.map fun device => decodePublicKey lib device.publicKey).Nodup
  addresses : (devices.map DeviceRecord.address).Nodup
  subnet : ∃ mask, prefixMask prefixLen = .ok mask ∧ ∀ device ∈ devices,
    device.address ≠ tunnelAddress ∧
      device.address.toUInt32 &&& mask = tunnelAddress.toUInt32 &&& mask

theorem validateFrom_cons {tunnelAddress : Ipv4Addr} {mask network : UInt32}
    {keys : List PublicKey} {addresses : List Ipv4Addr} {device : DeviceRecord}
    {devices : List DeviceRecord}
    (h : validateFrom lib tunnelAddress mask network keys addresses (device :: devices) = .ok ()) :
    ∃ key, decodePublicKey lib device.publicKey = .ok key ∧ key ∉ keys ∧
      device.address ≠ tunnelAddress ∧ device.address.toUInt32 &&& mask = network ∧
      device.address ∉ addresses ∧
      validateFrom lib tunnelAddress mask network (key :: keys) (device.address :: addresses)
        devices = .ok () := by
  unfold validateFrom at h
  obtain ⟨⟨⟩, -, h⟩ := bind_eq_ok.mp h
  cases hk : decodePublicKey lib device.publicKey with
  | error e => simp [hk] at h
  | ok key =>
    simp only [hk] at h
    split_ifs at h with hkey hsubnet haddress
    rw [not_or, not_not] at hsubnet
    exact ⟨key, rfl, hkey, hsubnet.1, hsubnet.2, haddress, h⟩

theorem validateFrom_ok {tunnelAddress : Ipv4Addr} {mask network : UInt32}
    {keys : List PublicKey} {addresses : List Ipv4Addr} {devices : List DeviceRecord}
    (h : validateFrom lib tunnelAddress mask network keys addresses devices = .ok ()) :
    (∀ device ∈ devices, ∃ key, decodePublicKey lib device.publicKey = .ok key ∧ key ∉ keys) ∧
    (devices.map fun device => decodePublicKey lib device.publicKey).Nodup ∧
    (∀ device ∈ devices, device.address ∉ addresses) ∧
    (devices.map DeviceRecord.address).Nodup ∧
    ∀ device ∈ devices, device.address ≠ tunnelAddress ∧
      device.address.toUInt32 &&& mask = network := by
  -- the keys and addresses seen so far grow by those of the first device
  induction devices generalizing keys addresses with
  | nil => simp
  | cons device devices ih =>
    obtain ⟨key, hk, hkey, htunnel, hsubnet, haddress, h⟩ := validateFrom_cons h
    obtain ⟨hkeys, hknodup, haddresses, hanodup, hin⟩ := ih h
    simp only [List.mem_cons, forall_eq_or_imp, List.map_cons, List.nodup_cons]
    refine ⟨⟨⟨key, hk, hkey⟩, fun d hd => ?_⟩, ⟨?_, hknodup⟩, ⟨haddress, fun d hd => ?_⟩,
      ⟨?_, hanodup⟩, ⟨htunnel, hsubnet⟩, hin⟩
    · obtain ⟨key', hk', hnew⟩ := hkeys d hd
      exact ⟨key', hk', fun hmem => hnew (List.mem_cons_of_mem _ hmem)⟩
    · rw [hk]
      intro hmem
      obtain ⟨d, hd, heq⟩ := List.mem_map.mp hmem
      obtain ⟨key', hk', hnew⟩ := hkeys d hd
      rw [hk', Except.ok.injEq] at heq
      exact hnew (heq ▸ List.mem_cons_self)
    · exact fun hmem => haddresses d hd (List.mem_cons_of_mem _ hmem)
    · intro hmem
      obtain ⟨d, hd, heq⟩ := List.mem_map.mp hmem
      exact haddresses d hd (heq ▸ List.mem_cons_self)

theorem validateDevices_ok {tunnelAddress : Ipv4Addr} {prefixLen : UInt8}
    {devices : List DeviceRecord}
    (h : validateDevices lib devices tunnelAddress prefixLen = .ok ()) :
    AdmissibleDevices lib tunnelAddress prefixLen devices := by
  unfold validateDevices at h
  split_ifs at h with hempty
  obtain ⟨mask, hmask, h⟩ := bind_eq_ok.mp h
  obtain ⟨hkeys, hknodup, -, hanodup, hin⟩ := validateFrom_ok h
  refine ⟨by simpa using hempty, fun device hd => ?_, hknodup, hanodup, mask, hmask, hin⟩
  obtain ⟨key, hk, -⟩ := hkeys device hd
  exact ⟨key, hk⟩

theorem prefixMask_ok {prefixLen : UInt8} {mask : UInt32} (h : prefixMask prefixLen = .ok mask) :
    ∃ k : UInt32, k.toNat < 32 ∧ mask = Netmask.mask k := by
  unfold prefixMask at h
  split_ifs at h with hlen
  cases h
  rw [not_or, gt_iff_lt, UInt8.not_lt, UInt8.le_iff_toNat_le] at hlen
  refine ⟨32 - UInt32.ofNat prefixLen.toNat, ?_, rfl⟩
  have hpos : prefixLen.toNat ≠ 0 := fun h0 => hlen.1 (UInt8.toNat_inj.mp h0)
  have hle : prefixLen.toNat ≤ 30 := hlen.2
  have hof : (UInt32.ofNat prefixLen.toNat).toNat = prefixLen.toNat := by
    rw [UInt32.toNat_ofNat']
    omega
  have hsub : UInt32.ofNat prefixLen.toNat ≤ 32 := by
    rw [UInt32.le_iff_toNat_le, hof]
    exact hle.trans (by decide)
  rw [UInt32.toNat_sub_of_le _ _ hsub, hof]
  have h32 : (32 : UInt32).toNat = 32 := rfl
  omega

theorem nextAddress_ok {devices : List DeviceRecord} {tunnelAddress address : Ipv4Addr}
    {prefixLen : UInt8} {mask : UInt32} (hmask : prefixMask prefixLen = .ok mask)
    (h : nextAddress devices tunnelAddress prefixLen = .ok address) :
    address ≠ tunnelAddress ∧ address ∉ devices.map DeviceRecord.address ∧
      address.toUInt32 &&& mask = tunnelAddress.toUInt32 &&& mask := by
  obtain ⟨k, hk, rfl⟩ := prefixMask_ok hmask
  unfold nextAddress at h
  rw [hmask] at h
  simp only [bind, Except.bind] at h
  split at h
  · cases h
  · rename_i found hfound
    cases h
    have hchosen := List.find?_some hfound
    obtain ⟨n, hn, rfl⟩ := List.mem_map.mp (List.mem_of_find?_eq_some hfound)
    rw [decide_eq_true_eq] at hchosen
    refine ⟨hchosen.1, hchosen.2, ?_⟩
    rw [List.mem_range'_1] at hn
    have hbound := UInt32.toNat_lt ((tunnelAddress.toUInt32 &&& Netmask.mask k) |||
      ~~~Netmask.mask k)
    have hnat : (UInt32.ofNat n).toNat = n := by
      rw [UInt32.toNat_ofNat']
      omega
    rw [Ipv4Addr.toUInt32_ofUInt32]
    apply Netmask.and_mask_eq_of_between hk
    · rw [hnat]
      omega
    · rw [hnat]
      omega

namespace AdmissibleDevices

variable {tunnelAddress : Ipv4Addr} {prefixLen : UInt8} {devices : List DeviceRecord}

theorem concat (h : AdmissibleDevices lib tunnelAddress prefixLen devices) {record : DeviceRecord}
    {key : PublicKey} (hk : decodePublicKey lib record.publicKey = .ok key)
    (hnew : ∀ device ∈ devices, decodePublicKey lib device.publicKey ≠ .ok key)
    (ha : nextAddress devices tunnelAddress prefixLen = .ok record.address) :
    AdmissibleDevices lib tunnelAddress prefixLen (devices ++ [record]) := by
  obtain ⟨mask, hmask, hin⟩ := h.subnet
  obtain ⟨htunnel, hunused, hsubnet⟩ := nextAddress_ok hmask ha
  refine ⟨by simp, ?_, ?_, ?_, mask, hmask, ?_⟩
  · simp only [List.mem_append, List.mem_singleton]
    rintro device (hd | rfl)
    · exact h.decodes device hd
    · exact ⟨key, hk⟩
  · rw [List.map_append, List.map_singleton, ← List.concat_eq_append, List.nodup_concat]
    refine ⟨fun hmem => ?_, h.keys⟩
    obtain ⟨device, hd, heq⟩ := List.mem_map.mp hmem
    exact hnew device hd (heq.trans hk)
  · rw [List.map_append, List.map_singleton, ← List.concat_eq_append, List.nodup_concat]
    exact ⟨hunused, h.addresses⟩
  · simp only [List.mem_append, List.mem_singleton]
    rintro device (hd | rfl)
    · exact hin device hd
    · exact ⟨htunnel, hsubnet⟩

theorem filter (h : AdmissibleDevices lib tunnelAddress prefixLen devices) {p : DeviceRecord → Bool}
    (hne : devices.filter p ≠ []) :
    AdmissibleDevices lib tunnelAddress prefixLen (devices.filter p) := by
  obtain ⟨mask, hmask, hin⟩ := h.subnet
  have hsub : (devices.filter p).Sublist devices := List.filter_sublist
  exact ⟨hne, fun device hd => h.decodes device (hsub.subset hd), h.keys.sublist (hsub.map _),
    h.addresses.sublist (hsub.map _), mask, hmask, fun device hd => hin device (hsub.subset hd)⟩

end AdmissibleDevices

def LeaseOf (flags : List Bool) (device : DeviceRecord) (key : PublicKey) (lease : DeviceLease) :
    Prop :=
  lease.name = device.name ∧ lease.address = device.address ∧ lease.publicKey = key ∧
    flags.getD lease.authorization.cell false = true

structure Leased (lib : Libraries) (devices : List DeviceRecord)
    (leases : HashMap PublicKey DeviceLease) (flags : List Bool) : Prop where
  only : ∀ key lease, leases.lookup key = some lease →
    ∃ device ∈ devices, decodePublicKey lib device.publicKey = .ok key ∧
      LeaseOf flags device key lease
  every : ∀ device ∈ devices, ∃ key lease, decodePublicKey lib device.publicKey = .ok key ∧
    leases.lookup key = some lease ∧ LeaseOf flags device key lease
  apart : ∀ key key' lease lease', leases.lookup key = some lease →
    leases.lookup key' = some lease' →
    lease.authorization.cell = lease'.authorization.cell → key = key'

theorem lt_of_getD_true {flags : List Bool} {c : ℕ} (h : flags.getD c false = true) :
    c < flags.length := by
  by_contra hlen
  rw [List.getD_eq_default _ _ (not_lt.mp hlen)] at h
  cases h

theorem LeaseOf.append {flags : List Bool} {device : DeviceRecord} {key : PublicKey}
    {lease : DeviceLease} (h : LeaseOf flags device key lease) (flag : Bool) :
    LeaseOf (flags ++ [flag]) device key lease := by
  obtain ⟨hname, haddress, hkey, hactive⟩ := h
  refine ⟨hname, haddress, hkey, ?_⟩
  rw [List.getD_append _ _ _ _ (lt_of_getD_true hactive)]
  exact hactive

namespace Leased

variable {devices : List DeviceRecord} {leases : HashMap PublicKey DeviceLease}
  {flags : List Bool}

theorem inRange (h : Leased lib devices leases flags) {key : PublicKey} {lease : DeviceLease}
    (hl : leases.lookup key = some lease) : lease.authorization.cell < flags.length := by
  obtain ⟨_, -, -, -, -, -, hactive⟩ := h.only key lease hl
  exact lt_of_getD_true hactive

theorem lookup_eq_none (h : Leased lib devices leases flags) {key : PublicKey}
    (hnew : ∀ device ∈ devices, decodePublicKey lib device.publicKey ≠ .ok key) :
    leases.lookup key = none := by
  cases hl : leases.lookup key with
  | none => rfl
  | some lease =>
    obtain ⟨device, hd, hk, -⟩ := h.only key lease hl
    exact absurd hk (hnew device hd)

theorem add (h : Leased lib devices leases flags) {key : PublicKey} {record : DeviceRecord}
    (hk : decodePublicKey lib record.publicKey = .ok key)
    (hnew : ∀ device ∈ devices, decodePublicKey lib device.publicKey ≠ .ok key) :
    Leased lib (devices ++ [record]) (DeviceRegistry.addLease leases flags key record).1
      (DeviceRegistry.addLease leases flags key record).2 := by
  have hlease : LeaseOf (flags ++ [true]) record key
      { name := record.name, address := record.address, publicKey := key,
        authorization := ⟨flags.length⟩ } := ⟨rfl, rfl, rfl, by simp⟩
  simp only [DeviceRegistry.addLease]
  constructor
  · intro key' lease hl
    rw [HashMap.lookup_insert_ite] at hl
    split_ifs at hl with heq
    · cases hl
      subst heq
      exact ⟨record, by simp, hk, hlease⟩
    · obtain ⟨device, hd, hk', hof⟩ := h.only key' lease hl
      exact ⟨device, List.mem_append_left _ hd, hk', hof.append true⟩
  · simp only [List.mem_append, List.mem_singleton]
    rintro device (hd | rfl)
    · obtain ⟨key', lease, hk', hl, hof⟩ := h.every device hd
      have hne : key' ≠ key := fun heq => hnew device hd (heq ▸ hk')
      refine ⟨key', lease, hk', ?_, hof.append true⟩
      rw [HashMap.lookup_insert_ite, if_neg hne]
      exact hl
    · refine ⟨key, _, hk, ?_, hlease⟩
      rw [HashMap.lookup_insert_ite, if_pos rfl]
  · intro key₁ key₂ lease₁ lease₂ h₁ h₂ hcell
    rw [HashMap.lookup_insert_ite] at h₁ h₂
    -- an old lease has an old flag
    split_ifs at h₁ h₂ with heq₁ heq₂ heq₂
    · rw [heq₁, heq₂]
    · cases h₁
      exact absurd hcell (h.inRange h₂).ne'
    · cases h₂
      exact absurd hcell (h.inRange h₁).ne
    · exact h.apart key₁ key₂ lease₁ lease₂ h₁ h₂ hcell

theorem active_cleared (h : Leased lib devices leases flags) {key key' : PublicKey}
    {lease : DeviceLease} (hl : leases.lookup key' = some lease) (hne : key' ≠ key)
    (hactive : flags.getD lease.authorization.cell false = true) :
    (SoundLeases.cleared (fun k => (leases.lookup k).map fun l => l.authorization.cell)
      flags key).getD lease.authorization.cell false = true := by
  unfold SoundLeases.cleared
  cases hl' : leases.lookup key with
  | none => simpa [hl'] using hactive
  | some lease' =>
    have hcell : lease'.authorization.cell ≠ lease.authorization.cell :=
      fun heq => hne (h.apart key' key lease lease' hl hl' heq.symm)
    simp only [hl', Option.map_some]
    rw [List.getD_eq_getElem?_getD, List.getElem?_set_ne hcell, ← List.getD_eq_getElem?_getD]
    exact hactive

theorem remove (hb : CanonicalBase64 lib) (h : Leased lib devices leases flags)
    {text : String} {key : PublicKey} (hk : decodePublicKey lib text = .ok key) :
    Leased lib (devices.filter fun device => device.publicKey ≠ text) (leases.erase key)
      (SoundLeases.cleared (fun k => (leases.lookup k).map fun l => l.authorization.cell)
        flags key) := by
  -- a listed text decodes to the revoked key only if it is the revoked text
  have htext : ∀ {text' : String} {key'}, decodePublicKey lib text' = .ok key' →
      (text' ≠ text ↔ key' ≠ key) := by
    intro text' key' hk'
    refine not_congr ⟨?_, ?_⟩
    · rintro rfl
      rw [hk'] at hk
      exact Except.ok.inj hk
    · rintro rfl
      rw [decodePublicKey_ok_iff hb] at hk hk'
      rw [hk, hk']
  constructor
  · intro key' lease hl
    rw [HashMap.lookup_erase_ite] at hl
    split_ifs at hl with hne
    obtain ⟨device, hd, hk', hname, haddress, hkey, hactive⟩ := h.only key' lease hl
    refine ⟨device, ?_, hk', hname, haddress, hkey, h.active_cleared hl hne hactive⟩
    rw [List.mem_filter, decide_eq_true_eq]
    exact ⟨hd, (htext hk').mpr hne⟩
  · intro device hd
    rw [List.mem_filter, decide_eq_true_eq] at hd
    obtain ⟨key', lease, hk', hl, hname, haddress, hkey, hactive⟩ := h.every device hd.1
    have hne : key' ≠ key := (htext hk').mp hd.2
    refine ⟨key', lease, hk', ?_, hname, haddress, hkey, h.active_cleared hl hne hactive⟩
    rw [HashMap.lookup_erase_ite, if_neg hne]
    exact hl
  · intro key₁ key₂ lease₁ lease₂ h₁ h₂ hcell
    rw [HashMap.lookup_erase_ite] at h₁ h₂
    split_ifs at h₁ h₂
    exact h.apart key₁ key₂ lease₁ lease₂ h₁ h₂ hcell

theorem empty : Leased lib [] ∅ [] := by
  constructor <;> simp

end Leased

theorem buildLeases_leased {done devices : List DeviceRecord}
    {leases leases' : HashMap PublicKey DeviceLease} {flags flags' : List Bool}
    (h : Leased lib done leases flags)
    (hkeys : ((done ++ devices).map fun device => decodePublicKey lib device.publicKey).Nodup)
    (hb : DeviceRegistry.buildLeases lib leases flags devices = .ok (leases', flags')) :
    Leased lib (done ++ devices) leases' flags' := by
  induction devices generalizing done leases flags with
  | nil =>
    cases hb
    rw [List.append_nil]
    exact h
  | cons device devices ih =>
    unfold DeviceRegistry.buildLeases at hb
    cases hk : decodePublicKey lib device.publicKey with
    | error e => simp [hk] at hb
    | ok key =>
      simp only [hk] at hb
      rw [← List.singleton_append, ← List.append_assoc] at hkeys ⊢
      refine ih (h.add hk fun d hd heq => ?_) hkeys hb
      -- the key of an earlier device is another one
      rw [List.map_append, List.map_append, List.map_singleton] at hkeys
      have hdisjoint := List.disjoint_of_nodup_append hkeys.of_append_left
      exact hdisjoint (List.mem_map_of_mem hd) (by simp [hk, heq])

structure Consistent (lib : Libraries) (r : DeviceRegistry) : Prop where
  persisted : ∃ mode, r.file = some ⟨mode, .ok ⟨registryVersion, r.devices⟩⟩
  admissible : AdmissibleDevices lib r.tunnelAddress r.prefixLen r.devices
  leased : Leased lib r.devices r.leases r.flags

theorem loadDevices_ok {file : StoreFile} {devices : List DeviceRecord}
    (h : loadDevices file = .ok devices) :
    file = ⟨file.mode, .ok ⟨registryVersion, devices⟩⟩ := by
  unfold loadDevices at h
  obtain ⟨⟨⟩, -, h⟩ := bind_eq_ok.mp h
  obtain ⟨mode, document⟩ := file
  cases document with
  | error e => cases h
  | ok document =>
    simp only at h
    split_ifs at h with hversion
    cases h
    rw [← not_not.mp hversion]

namespace Consistent

variable {r : DeviceRegistry}

theorem of_open {file : Option StoreFile} {seeds : List SeedDevice} {tunnelAddress : Ipv4Addr}
    {prefixLen : UInt8} {persist : Except String Unit}
    (h : DeviceRegistry.open lib file seeds tunnelAddress prefixLen persist = .ok r) :
    Consistent lib r := by
  unfold DeviceRegistry.open at h
  cases file with
  | some file =>
    obtain ⟨devices, hload, h⟩ := bind_eq_ok.mp h
    obtain ⟨⟨⟩, hvalid, h⟩ := bind_eq_ok.mp h
    obtain ⟨⟨leases, flags⟩, hb, h⟩ := bind_eq_ok.mp h
    cases h
    have hadmissible := validateDevices_ok hvalid
    exact ⟨⟨file.mode, congrArg some (loadDevices_ok hload)⟩, hadmissible,
      buildLeases_leased Leased.empty hadmissible.keys hb⟩
  | none =>
    obtain ⟨devices, -, h⟩ := bind_eq_ok.mp h
    obtain ⟨⟨⟩, hvalid, h⟩ := bind_eq_ok.mp h
    obtain ⟨⟨leases, flags⟩, hb, h⟩ := bind_eq_ok.mp h
    obtain ⟨stored, hpersist, h⟩ := bind_eq_ok.mp h
    cases h
    have hadmissible := validateDevices_ok hvalid
    refine ⟨?_, hadmissible, buildLeases_leased Leased.empty hadmissible.keys hb⟩
    cases persist with
    | error e => cases hpersist
    | ok u =>
      cases hpersist
      exact ⟨_, rfl⟩

theorem provision (hb : CanonicalBase64 lib) (h : Consistent lib r) {name : String}
    {platform : DevicePlatform} {keys : Except String KeyPair} {persist : Except String Unit}
    (hfresh : ∀ pair, keys = .ok pair →
      ∀ device ∈ r.devices, device.publicKey ≠ encodePublicKey lib pair.publicKey) :
    Consistent lib (r.provision lib name platform keys persist).1 := by
  rcases r.provision_spec lib name platform keys persist with
    ⟨heq, -⟩ | ⟨pair, record, hkeys, htext, ha, heq⟩
  · rw [heq]
    exact h
  · have hk : decodePublicKey lib record.publicKey = .ok pair.publicKey :=
      (decodePublicKey_ok_iff hb).mpr htext
    have hnew : ∀ device ∈ r.devices, decodePublicKey lib device.publicKey ≠ .ok pair.publicKey :=
      fun device hd hk' => hfresh pair hkeys device hd ((decodePublicKey_ok_iff hb).mp hk')
    rw [heq]
    exact ⟨⟨_, rfl⟩, h.admissible.concat hk hnew ha, h.leased.add hk hnew⟩

theorem revoke (hb : CanonicalBase64 lib) (h : Consistent lib r) {text : String}
    {persist : Except String Unit} : Consistent lib (r.revoke lib text persist).1 := by
  rcases r.revoke_spec lib text persist with ⟨heq, -⟩ | ⟨key, hk, hne, heq⟩
  · rw [heq]
    exact h
  · rw [heq]
    exact ⟨⟨_, rfl⟩, h.admissible.filter hne, h.leased.remove hb hk⟩

end Consistent

end MouseVpn.Server
