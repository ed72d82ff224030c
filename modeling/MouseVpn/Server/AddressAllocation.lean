import MouseVpn.Server.RegistryInvariant

/-!
# Allocation of tunnel addresses

The subnet of the tunnel address is the block of numbers with the same quotient by the number
of host addresses. `next_address` computes it with masks and searches it from below. Its result
is the least address of the block that is free, and a list of devices stays valid when a device
with this address is added.
-/

namespace MouseVpn.Server

open MouseVpn.Lib MouseVpn.Crypto

variable {lib : Libraries}

theorem validateFrom_cons_of {tunnelAddress : Ipv4Addr} {mask network : UInt32}
    {keys : List PublicKey} {addresses : List Ipv4Addr} {device : DeviceRecord}
    {devices : List DeviceRecord} {key : PublicKey} (hname : validateName device.name = .ok ())
    (hdecode : decodePublicKey lib device.publicKey = .ok key) (hkey : key ∉ keys)
    (htunnel : device.address ≠ tunnelAddress)
    (hsubnet : device.address.toUInt32 &&& mask = network) (haddress : device.address ∉ addresses)
    (hrest : validateFrom lib tunnelAddress mask network (key :: keys)
      (device.address :: addresses) devices = .ok ()) :
    validateFrom lib tunnelAddress mask network keys addresses (device :: devices) = .ok () := by
  rw [validateFrom, hname]
  simp only [bind, Except.bind, hdecode]
  rw [if_neg hkey, if_neg (by simp [htunnel, hsubnet]), if_neg haddress]
  exact hrest

theorem validateFrom_of {tunnelAddress : Ipv4Addr} {mask network : UInt32}
    {keys : List PublicKey} {addresses : List Ipv4Addr} {devices : List DeviceRecord}
    (hnames : ∀ device ∈ devices, validateName device.name = .ok ())
    (hdecodes : ∀ device ∈ devices, ∃ key, decodePublicKey lib device.publicKey = .ok key ∧
      key ∉ keys)
    (hkeys : (devices.map fun device => decodePublicKey lib device.publicKey).Nodup)
    (hseen : ∀ device ∈ devices, device.address ∉ addresses)
    (haddresses : (devices.map DeviceRecord.address).Nodup)
    (hsubnet : ∀ device ∈ devices, device.address ≠ tunnelAddress ∧
      device.address.toUInt32 &&& mask = network) :
    validateFrom lib tunnelAddress mask network keys addresses devices = .ok () := by
  induction devices generalizing keys addresses with
  | nil => rfl
  | cons device devices ih =>
    simp only [List.mem_cons, forall_eq_or_imp] at hnames hdecodes hseen hsubnet
    simp only [List.map_cons, List.nodup_cons] at hkeys haddresses
    obtain ⟨⟨key, hdecode, hkey⟩, hdecodes⟩ := hdecodes
    apply validateFrom_cons_of hnames.1 hdecode hkey hsubnet.1.1 hsubnet.1.2 hseen.1
    apply ih hnames.2 _ hkeys.2 _ haddresses.2 hsubnet.2
    · intro other hother
      obtain ⟨key', hdecode', hkey'⟩ := hdecodes other hother
      refine ⟨key', hdecode', ?_⟩
      rw [List.mem_cons, not_or]
      refine ⟨?_, hkey'⟩
      rintro rfl
      exact hkeys.1 (List.mem_map.mpr ⟨other, hother, hdecode'.trans hdecode.symm⟩)
    · intro other hother
      rw [List.mem_cons, not_or]
      refine ⟨?_, hseen.2 other hother⟩
      intro heq
      exact haddresses.1 (List.mem_map.mpr ⟨other, hother, heq⟩)

theorem validateFrom_names {tunnelAddress : Ipv4Addr} {mask network : UInt32}
    {keys : List PublicKey} {addresses : List Ipv4Addr} {devices : List DeviceRecord}
    (h : validateFrom lib tunnelAddress mask network keys addresses devices = .ok ()) :
    ∀ device ∈ devices, validateName device.name = .ok () := by
  induction devices generalizing keys addresses with
  | nil => exact List.forall_mem_nil _
  | cons device devices ih =>
    obtain ⟨key, -, -, -, -, -, hrest⟩ := validateFrom_cons h
    rw [validateFrom] at h
    obtain ⟨⟨⟩, hname, -⟩ := bind_eq_ok.mp h
    rintro other (_ | ⟨_, hother⟩)
    · exact hname
    · exact ih hrest other hother

theorem validateDevices_ok_iff {tunnelAddress : Ipv4Addr} {prefixLen : UInt8}
    {devices : List DeviceRecord} :
    validateDevices lib devices tunnelAddress prefixLen = .ok () ↔
      AdmissibleDevices lib tunnelAddress prefixLen devices ∧
        ∀ device ∈ devices, validateName device.name = .ok () := by
  constructor
  · intro h
    refine ⟨validateDevices_ok h, ?_⟩
    unfold validateDevices at h
    split_ifs at h with hempty
    obtain ⟨mask, -, h⟩ := bind_eq_ok.mp h
    exact validateFrom_names h
  · rintro ⟨h, hnames⟩
    obtain ⟨mask, hmask, hsubnet⟩ := h.subnet
    rw [validateDevices, if_neg (by simpa using h.nonempty), hmask]
    apply validateFrom_of hnames _ h.keys (fun _ _ => List.not_mem_nil) h.addresses hsubnet
    intro device hdevice
    obtain ⟨key, hdecode⟩ := h.decodes device hdevice
    exact ⟨key, hdecode, List.not_mem_nil⟩

namespace Ipv4Block

def number (ip : Ipv4Addr) : ℕ := ip.toUInt32.toNat

def size (prefixLen : UInt8) : ℕ := 2 ^ (32 - prefixLen.toNat)

def network (ip : Ipv4Addr) (prefixLen : UInt8) : ℕ :=
  number ip / size prefixLen * size prefixLen

def broadcast (ip : Ipv4Addr) (prefixLen : UInt8) : ℕ := network ip prefixLen + (size prefixLen - 1)

def SameBlock (prefixLen : UInt8) (left right : Ipv4Addr) : Prop :=
  number left / size prefixLen = number right / size prefixLen

theorem number_lt (ip : Ipv4Addr) : number ip < 2 ^ 32 := ip.toUInt32.toNat_lt

theorem size_pos (prefixLen : UInt8) : 0 < size prefixLen := Nat.two_pow_pos _

theorem number_injective : Function.Injective number := by
  intro left right h
  exact Ipv4Addr.toUInt32_injective (UInt32.toNat_inj.mp h)

theorem number_ofNat {n : ℕ} (h : n < 2 ^ 32) :
    number (Ipv4Addr.ofUInt32 (UInt32.ofNat n)) = n := by
  rw [number, Ipv4Addr.toUInt32_ofUInt32, UInt32.toNat_ofNat']
  exact Nat.mod_eq_of_lt h

theorem ofNat_number (ip : Ipv4Addr) :
    Ipv4Addr.ofUInt32 (UInt32.ofNat (number ip)) = ip :=
  number_injective (number_ofNat (number_lt ip))

theorem sameBlock_iff {prefixLen : UInt8} {ip tunnelAddress : Ipv4Addr} :
    SameBlock prefixLen ip tunnelAddress ↔
      network tunnelAddress prefixLen ≤ number ip ∧
        number ip ≤ broadcast tunnelAddress prefixLen := by
  have hpos := size_pos prefixLen
  rw [SameBlock, Nat.div_eq_iff hpos, broadcast, network, Nat.add_sub_assoc hpos]

theorem broadcast_lt (ip : Ipv4Addr) (prefixLen : UInt8) (h : prefixLen.toNat ≤ 32) :
    broadcast ip prefixLen < 2 ^ 32 := by
  have hpos := size_pos prefixLen
  have hsplit : 2 ^ prefixLen.toNat * size prefixLen = 2 ^ 32 := by
    rw [size, ← Nat.pow_add, Nat.add_sub_cancel' h]
  have hquotient : number ip / size prefixLen + 1 ≤ 2 ^ prefixLen.toNat := by
    apply Nat.div_lt_of_lt_mul
    rw [Nat.mul_comm, hsplit]
    exact number_lt ip
  have hblock := Nat.mul_le_mul_right (size prefixLen) hquotient
  rw [hsplit, Nat.add_mul, Nat.one_mul] at hblock
  rw [broadcast, network]
  omega

end Ipv4Block

open Ipv4Block

theorem prefixMask_eq {prefixLen : UInt8} (h : 1 ≤ prefixLen.toNat ∧ prefixLen.toNat ≤ 30) :
    ∃ k : UInt32, k.toNat = 32 - prefixLen.toNat ∧
      prefixMask prefixLen = .ok (Netmask.mask k) := by
  have hof : (UInt32.ofNat prefixLen.toNat).toNat = prefixLen.toNat := by
    rw [UInt32.toNat_ofNat']
    omega
  have hsub : UInt32.ofNat prefixLen.toNat ≤ 32 := by
    rw [UInt32.le_iff_toNat_le, hof]
    exact h.2.trans (by decide)
  refine ⟨32 - UInt32.ofNat prefixLen.toNat, ?_, ?_⟩
  · rw [UInt32.toNat_sub_of_le _ _ hsub, hof]
    rfl
  · rw [prefixMask, if_neg]
    · rfl
    · rintro (hzero | hlarge)
      · rw [hzero] at h
        exact absurd h.1 (by decide)
      · have hlarge : 30 < prefixLen.toNat := hlarge
        omega

theorem network_eq {prefixLen : UInt8} {k : UInt32} (hlen : 1 ≤ prefixLen.toNat)
    (hk : k.toNat = 32 - prefixLen.toNat) (tunnelAddress : Ipv4Addr) :
    (tunnelAddress.toUInt32 &&& Netmask.mask k).toNat = network tunnelAddress prefixLen ∧
      ((tunnelAddress.toUInt32 &&& Netmask.mask k) ||| ~~~Netmask.mask k).toNat =
        broadcast tunnelAddress prefixLen := by
  have hlt : k.toNat < 32 := by omega
  have hnetwork : (tunnelAddress.toUInt32 &&& Netmask.mask k).toNat =
      network tunnelAddress prefixLen := by
    rw [Netmask.and_mask_toNat hlt, hk]
    rfl
  refine ⟨hnetwork, ?_⟩
  rw [Netmask.broadcast_toNat hlt, hnetwork, hk]
  rfl

structure FreeAddress (devices : List DeviceRecord) (tunnelAddress : Ipv4Addr) (prefixLen : UInt8)
    (address : Ipv4Addr) : Prop where
  subnet : SameBlock prefixLen address tunnelAddress
  notNetwork : number address ≠ network tunnelAddress prefixLen
  notBroadcast : number address ≠ broadcast tunnelAddress prefixLen
  notTunnel : address ≠ tunnelAddress
  unused : ∀ device ∈ devices, device.address ≠ address
  searched : number address ≤ network tunnelAddress prefixLen + 65534

def available (devices : List DeviceRecord) (tunnelAddress : Ipv4Addr) (n : ℕ) : Bool :=
  decide (Ipv4Addr.ofUInt32 (UInt32.ofNat n) ≠ tunnelAddress ∧
    Ipv4Addr.ofUInt32 (UInt32.ofNat n) ∉ devices.map DeviceRecord.address)

variable {devices : List DeviceRecord} {tunnelAddress : Ipv4Addr} {prefixLen : UInt8}

theorem nextAddress_eq (hlen : 1 ≤ prefixLen.toNat ∧ prefixLen.toNat ≤ 30) :
    nextAddress devices tunnelAddress prefixLen =
      ((List.range' (network tunnelAddress prefixLen + 1)
        (min (broadcast tunnelAddress prefixLen) (network tunnelAddress prefixLen + 65535) -
          (network tunnelAddress prefixLen + 1))).find? (available devices tunnelAddress)).elim
        (.error ⟨"tunnel address pool is exhausted"⟩)
        (fun n => .ok (Ipv4Addr.ofUInt32 (UInt32.ofNat n))) := by
  obtain ⟨k, hk, hmask⟩ := prefixMask_eq hlen
  obtain ⟨hnetwork, hbroadcast⟩ := network_eq hlen.1 hk tunnelAddress
  have hlt := broadcast_lt tunnelAddress prefixLen (by omega)
  have hupper : min (broadcast tunnelAddress prefixLen)
      (min (network tunnelAddress prefixLen + 65535) (2 ^ 32 - 1)) =
      min (broadcast tunnelAddress prefixLen) (network tunnelAddress prefixLen + 65535) := by
    omega
  rw [nextAddress, hmask]
  simp only [bind, Except.bind]
  rw [hnetwork, hbroadcast, hupper, List.find?_map]
  split
  · rename_i hnone
    have hfound : (List.range' _ _).find? (available devices tunnelAddress) = none :=
      Option.map_eq_none_iff.mp hnone
    rw [hfound]
    rfl
  · rename_i address hsome
    obtain ⟨n, hn, rfl⟩ := Option.map_eq_some_iff.mp hsome
    have hfound : (List.range' _ _).find? (available devices tunnelAddress) = some n := hn
    rw [hfound]
    rfl

theorem available_iff {address : Ipv4Addr} :
    available devices tunnelAddress (number address) = true ↔
      address ≠ tunnelAddress ∧ ∀ device ∈ devices, device.address ≠ address := by
  rw [available, ofNat_number, decide_eq_true_iff]
  simp

theorem freeAddress_iff {address : Ipv4Addr} :
    FreeAddress devices tunnelAddress prefixLen address ↔
      network tunnelAddress prefixLen + 1 ≤ number address ∧
      number address <
        min (broadcast tunnelAddress prefixLen) (network tunnelAddress prefixLen + 65535) ∧
      available devices tunnelAddress (number address) = true := by
  rw [available_iff]
  constructor
  · rintro ⟨hsubnet, hnetwork, hbroadcast, htunnel, hunused, hsearched⟩
    rw [sameBlock_iff] at hsubnet
    exact ⟨by omega, by omega, htunnel, hunused⟩
  · rintro ⟨hlow, hhigh, htunnel, hunused⟩
    exact ⟨sameBlock_iff.mpr ⟨by omega, by omega⟩, by omega, by omega, htunnel, hunused, by omega⟩

theorem nextAddress_eq_ok_iff (hlen : 1 ≤ prefixLen.toNat ∧ prefixLen.toNat ≤ 30)
    {address : Ipv4Addr} :
    nextAddress devices tunnelAddress prefixLen = .ok address ↔
      FreeAddress devices tunnelAddress prefixLen address ∧
        ∀ other, FreeAddress devices tunnelAddress prefixLen other →
          number address ≤ number other := by
  have hlt := broadcast_lt tunnelAddress prefixLen (by omega)
  rw [nextAddress_eq hlen]
  constructor
  · intro h
    cases hfound : (List.range' _ _).find? (available devices tunnelAddress) with
    | none =>
      rw [hfound] at h
      cases h
    | some n =>
      rw [hfound] at h
      obtain rfl := Except.ok.inj h
      obtain ⟨havailable, hrange, hbelow⟩ := List.find?_range'_eq_some.mp hfound
      rw [List.mem_range'_1] at hrange
      have hnumber := number_ofNat (n := n) (by omega)
      constructor
      · rw [freeAddress_iff, hnumber]
        exact ⟨by omega, by omega, havailable⟩
      · intro other hother
        obtain ⟨hlow, -, hfree⟩ := freeAddress_iff.mp hother
        rw [hnumber]
        by_contra hless
        have hskipped := hbelow (number other) hlow (by omega)
        rw [hfree] at hskipped
        cases hskipped
  · rintro ⟨hfree, hleast⟩
    obtain ⟨hlow, hhigh, havailable⟩ := freeAddress_iff.mp hfree
    have hfound : (List.range' (network tunnelAddress prefixLen + 1)
        (min (broadcast tunnelAddress prefixLen) (network tunnelAddress prefixLen + 65535) -
          (network tunnelAddress prefixLen + 1))).find? (available devices tunnelAddress) =
        some (number address) := by
      rw [List.find?_range'_eq_some, List.mem_range'_1]
      refine ⟨havailable, ⟨hlow, by omega⟩, ?_⟩
      intro n hn hless
      have hnumber := number_ofNat (n := n) (by omega)
      rw [Bool.not_eq_true', ← Bool.not_eq_true]
      intro hother
      have hle := hleast (Ipv4Addr.ofUInt32 (UInt32.ofNat n))
        (freeAddress_iff.mpr (by rw [hnumber]; exact ⟨hn, by omega, hother⟩))
      omega
    rw [hfound]
    exact congrArg Except.ok (ofNat_number address)

theorem nextAddress_eq_error_iff (hlen : 1 ≤ prefixLen.toNat ∧ prefixLen.toNat ≤ 30)
    {error : RegistryError} :
    nextAddress devices tunnelAddress prefixLen = .error error ↔
      error = ⟨"tunnel address pool is exhausted"⟩ ∧
        ∀ address, ¬ FreeAddress devices tunnelAddress prefixLen address := by
  have hlt := broadcast_lt tunnelAddress prefixLen (by omega)
  rw [nextAddress_eq hlen]
  cases hfound : (List.range' _ _).find? (available devices tunnelAddress) with
  | none =>
    have hnone : ∀ address, ¬ FreeAddress devices tunnelAddress prefixLen address := by
      intro address hfree
      obtain ⟨hlow, hhigh, havailable⟩ := freeAddress_iff.mp hfree
      have hskipped := List.find?_range'_eq_none.mp hfound (number address) hlow (by omega)
      rw [havailable] at hskipped
      cases hskipped
    simp only [Option.elim_none, Except.error.injEq, hnone, not_false_eq_true, implies_true,
      and_true]
    exact eq_comm
  | some n =>
    have hfree : FreeAddress devices tunnelAddress prefixLen
        (Ipv4Addr.ofUInt32 (UInt32.ofNat n)) := by
      obtain ⟨havailable, hrange, -⟩ := List.find?_range'_eq_some.mp hfound
      rw [List.mem_range'_1] at hrange
      rw [freeAddress_iff, number_ofNat (by omega)]
      exact ⟨by omega, by omega, havailable⟩
    constructor
    · intro h
      cases h
    · rintro ⟨-, hnone⟩
      exact absurd hfree (hnone _)

theorem validateDevices_concat {record : DeviceRecord} {key : PublicKey}
    (hvalid : validateDevices lib devices tunnelAddress prefixLen = .ok ())
    (haddress : nextAddress devices tunnelAddress prefixLen = .ok record.address)
    (hdecode : decodePublicKey lib record.publicKey = .ok key)
    (hfresh : ∀ device ∈ devices, decodePublicKey lib device.publicKey ≠ .ok key)
    (hname : validateName record.name = .ok ()) :
    validateDevices lib (devices ++ [record]) tunnelAddress prefixLen = .ok () := by
  obtain ⟨hadmissible, hnames⟩ := validateDevices_ok_iff.mp hvalid
  refine validateDevices_ok_iff.mpr ⟨hadmissible.concat hdecode hfresh haddress, ?_⟩
  simp only [List.mem_append, List.mem_singleton]
  rintro device (hdevice | rfl)
  · exact hnames device hdevice
  · exact hname

/-- For every subnet from /1 to /30 the allocation finds the least free address, fails exactly
when there is none, computes without overflow, and keeps the list of devices valid. -/
theorem next_address_is_least_free (prefixLen : UInt8) (tunnelAddress : Ipv4Addr)
    (devices : List DeviceRecord) (hlen : 1 ≤ prefixLen.toNat ∧ prefixLen.toNat ≤ 30) :
    (∀ address, nextAddress devices tunnelAddress prefixLen = .ok address ↔
      FreeAddress devices tunnelAddress prefixLen address ∧
        ∀ other, FreeAddress devices tunnelAddress prefixLen other →
          number address ≤ number other) ∧
    (∀ error, nextAddress devices tunnelAddress prefixLen = .error error ↔
      error = ⟨"tunnel address pool is exhausted"⟩ ∧
        ∀ address, ¬ FreeAddress devices tunnelAddress prefixLen address) ∧
    (∃ mask, prefixMask prefixLen = .ok mask ∧ 32 - prefixLen.toNat < 32 ∧
      prefixLen.toNat ≤ 32 ∧ (tunnelAddress.toUInt32 &&& mask).toNat + 1 < 2 ^ 32) ∧
    ∀ lib record key, validateDevices lib devices tunnelAddress prefixLen = .ok () →
      nextAddress devices tunnelAddress prefixLen = .ok record.address →
      decodePublicKey lib record.publicKey = .ok key →
      (∀ device ∈ devices, decodePublicKey lib device.publicKey ≠ .ok key) →
      validateName record.name = .ok () →
      validateDevices lib (devices ++ [record]) tunnelAddress prefixLen = .ok () := by
  refine ⟨fun address => nextAddress_eq_ok_iff hlen, fun error => nextAddress_eq_error_iff hlen,
    ?_, fun lib record key => validateDevices_concat⟩
  obtain ⟨k, hk, hmask⟩ := prefixMask_eq hlen
  refine ⟨Netmask.mask k, hmask, by omega, by omega, ?_⟩
  have hlt := broadcast_lt tunnelAddress prefixLen (by omega)
  have hsize : 2 ^ 2 ≤ size prefixLen := Nat.pow_le_pow_right (by decide) (by omega)
  rw [(network_eq hlen.1 hk tunnelAddress).1]
  rw [broadcast] at hlt
  omega

/-- The last subnet of the address space, with two devices. -/
theorem next_address_at_the_end :
    let devices : List DeviceRecord := [⟨"a", .linux, "", ⟨255, 255, 255, 250⟩⟩,
      ⟨"b", .android, "", ⟨255, 255, 255, 252⟩⟩]
    nextAddress devices ⟨255, 255, 255, 249⟩ 29 = .ok ⟨255, 255, 255, 251⟩ ∧
      FreeAddress devices ⟨255, 255, 255, 249⟩ 29 ⟨255, 255, 255, 251⟩ ∧
      ∀ other, FreeAddress devices ⟨255, 255, 255, 249⟩ 29 other →
        number ⟨255, 255, 255, 251⟩ ≤ number other := by
  intro devices
  have hnext : nextAddress devices ⟨255, 255, 255, 249⟩ 29 = .ok ⟨255, 255, 255, 251⟩ := by
    decide +kernel
  have hleast := (next_address_is_least_free 29 ⟨255, 255, 255, 249⟩ devices (by decide)).1
    ⟨255, 255, 255, 251⟩
  exact ⟨hnext, hleast.mp hnext⟩

end MouseVpn.Server
