import MouseVpn.Crypto.Handshake
import MouseVpn.Lib.HashMap

/-!
# The device registry

Devices are kept in a private file and, in memory, as records and as leases by
public key. A lease is cloned by every handshake that it admits, and all clones
share one authorization flag: `flags` is the heap of those flags and a
`DeviceAuthorization` is an index into it. Every operation that writes the file
takes the outcome of writing as an argument.
-/

namespace MouseVpn.Server

open MouseVpn.Lib MouseVpn.Crypto

structure RegistryError where
  message : String
  deriving DecidableEq, Repr

inductive ConfigError
  | invalidKeyEncoding
  | invalidKeyLength (length : ℕ)
  | duplicateClientAddress
  | duplicateClientKey
  | clientAddressMatchesServer
  | clientOutsideTunnelSubnet
  | serverKeyPairMismatch
  | invalidPrefix (prefixLen : UInt8)
  | invalidMtu (mtu : UInt16)
  | emptyClients
  deriving DecidableEq, Repr

def ConfigError.toString : ConfigError → String
  | .invalidKeyEncoding => "invalid URL-safe Base64 key"
  | .invalidKeyLength length => "invalid key length " ++ Nat.repr length
  | .duplicateClientAddress => "duplicate client tunnel address"
  | .duplicateClientKey => "duplicate client public key"
  | .clientAddressMatchesServer => "client address matches the server TUN address"
  | .clientOutsideTunnelSubnet => "client address is outside the configured TUN subnet"
  | .serverKeyPairMismatch => "server public and private keys do not match"
  | .invalidPrefix prefixLen => "invalid IPv4 prefix length " ++ Nat.repr prefixLen.toNat
  | .invalidMtu mtu => "invalid tunnel MTU " ++ Nat.repr mtu.toNat
  | .emptyClients => "server must authorize at least one client"

def decodePublicKey (lib : Libraries) (encoded : String) : Except ConfigError PublicKey :=
  match lib.base64Decode encoded with
  | none => .error .invalidKeyEncoding
  | some bytes =>
    match PublicKey.fromSlice bytes with
    | .error _ => .error (.invalidKeyLength bytes.length)
    | .ok key => .ok key

def decodeSecretKey (lib : Libraries) (encoded : String) : Except ConfigError SecretKey :=
  match lib.base64Decode encoded with
  | none => .error .invalidKeyEncoding
  | some bytes =>
    if h : bytes.length = 32 then .ok ⟨⟨bytes.toArray, size_toArray h⟩⟩
    else .error (.invalidKeyLength bytes.length)

def encodePublicKey (lib : Libraries) (key : PublicKey) : String :=
  lib.base64Encode key.bytes.toList

inductive DevicePlatform
  | android
  | linux
  deriving DecidableEq, Repr

structure DeviceRecord where
  name : String
  platform : DevicePlatform
  publicKey : String
  address : Ipv4Addr
  deriving DecidableEq, Repr

structure DeviceAuthorization where
  cell : ℕ
  deriving DecidableEq, Repr

structure DeviceLease where
  name : String
  address : Ipv4Addr
  publicKey : PublicKey
  authorization : DeviceAuthorization
  deriving DecidableEq

structure SeedDevice where
  name : String
  publicKey : PublicKey
  address : Ipv4Addr

structure ProvisionedDevice where
  record : DeviceRecord
  privateKey : SecretKey

def registryVersion : UInt8 := 1

structure RegistryDocument where
  version : UInt8
  devices : List DeviceRecord
  deriving DecidableEq

structure StoreFile where
  mode : ℕ
  document : Except String RegistryDocument

def ensurePrivatePermissions (mode : ℕ) : Except RegistryError Unit :=
  let mode := mode &&& 0o777
  if mode &&& 0o077 ≠ 0 then
    .error ⟨"device registry permissions are insecure: " ++ String.ofList (Nat.toDigits 8 mode)⟩
  else .ok ()

def loadDevices (file : StoreFile) : Except RegistryError (List DeviceRecord) := do
  ensurePrivatePermissions file.mode
  match file.document with
  | .error e => .error ⟨e⟩
  | .ok document =>
    if document.version ≠ registryVersion then .error ⟨"unsupported device registry version"⟩
    else .ok document.devices

def persistDevices (outcome : Except String Unit) (devices : List DeviceRecord) :
    Except RegistryError StoreFile :=
  match outcome with
  | .error e => .error ⟨e⟩
  | .ok () => .ok ⟨0o600, .ok ⟨registryVersion, devices⟩⟩

def prefixMask (prefixLen : UInt8) : Except RegistryError UInt32 :=
  if prefixLen = 0 ∨ prefixLen > 30 then
    .error ⟨"admin address allocation requires a /1 to /30 subnet"⟩
  else .ok (0xFFFFFFFF <<< (32 - UInt32.ofNat prefixLen.toNat))

def nextAddress (devices : List DeviceRecord) (tunnelAddress : Ipv4Addr) (prefixLen : UInt8) :
    Except RegistryError Ipv4Addr := do
  let mask ← prefixMask prefixLen
  let network := tunnelAddress.toUInt32 &&& mask
  let broadcast := network ||| ~~~mask
  let upper := min broadcast.toNat (min (network.toNat + 65535) (2 ^ 32 - 1))
  let used := devices.map DeviceRecord.address
  let candidates := (List.range' (network.toNat + 1) (upper - (network.toNat + 1))).map
    fun n => Ipv4Addr.ofUInt32 (UInt32.ofNat n)
  match candidates.find? fun candidate => candidate ≠ tunnelAddress ∧ candidate ∉ used with
  | none => .error ⟨"tunnel address pool is exhausted"⟩
  | some address => .ok address

def isControl (c : Char) : Bool := c.toNat < 0x20 ∨ (0x7F ≤ c.toNat ∧ c.toNat < 0xA0)

/-- `char::is_whitespace`, as `str::trim` uses it. -/
def isWhitespace (c : Char) : Bool :=
  (0x09 ≤ c.toNat ∧ c.toNat ≤ 0x0D) ∨ (0x2000 ≤ c.toNat ∧ c.toNat ≤ 0x200A) ∨
    c.toNat ∈ [0x20, 0x85, 0xA0, 0x1680, 0x2028, 0x2029, 0x202F, 0x205F, 0x3000]

def trim (s : String) : String :=
  String.ofList ((s.toList.dropWhile isWhitespace).reverse.dropWhile isWhitespace).reverse

def maxDeviceNameLen : ℕ := 80

def validateName (name : String) : Except RegistryError Unit :=
  if name.isEmpty ∨ name.utf8ByteSize > maxDeviceNameLen ∨ name.toList.any isControl then
    .error ⟨"device name must contain 1 to 80 printable characters"⟩
  else .ok ()

/-- The loop of `validate_devices`, with the keys and addresses seen so far. -/
def validateFrom (lib : Libraries) (tunnelAddress : Ipv4Addr) (mask network : UInt32) :
    List PublicKey → List Ipv4Addr → List DeviceRecord → Except RegistryError Unit
  | _, _, [] => .ok ()
  | keys, addresses, device :: devices => do
    validateName device.name
    match decodePublicKey lib device.publicKey with
    | .error e => .error ⟨e.toString⟩
    | .ok key =>
      if key ∈ keys then .error ⟨"duplicate device public key"⟩
      else if device.address = tunnelAddress ∨ device.address.toUInt32 &&& mask ≠ network then
        .error ⟨"device address is outside the tunnel subnet"⟩
      else if device.address ∈ addresses then .error ⟨"duplicate device address"⟩
      else
        validateFrom lib tunnelAddress mask network (key :: keys) (device.address :: addresses)
          devices

def validateDevices (lib : Libraries) (devices : List DeviceRecord) (tunnelAddress : Ipv4Addr)
    (prefixLen : UInt8) : Except RegistryError Unit :=
  if devices.isEmpty then .error ⟨"device registry must not be empty"⟩
  else do
    let mask ← prefixMask prefixLen
    validateFrom lib tunnelAddress mask (tunnelAddress.toUInt32 &&& mask) [] [] devices

structure DeviceRegistry where
  tunnelAddress : Ipv4Addr
  prefixLen : UInt8
  devices : List DeviceRecord
  leases : HashMap PublicKey DeviceLease
  flags : List Bool
  file : Option StoreFile

namespace DeviceRegistry

variable (lib : Libraries)

def addLease (leases : HashMap PublicKey DeviceLease) (flags : List Bool) (key : PublicKey)
    (record : DeviceRecord) : HashMap PublicKey DeviceLease × List Bool :=
  (leases.insert key
    { name := record.name, address := record.address, publicKey := key,
      authorization := ⟨flags.length⟩ },
    flags ++ [true])

def buildLeases : HashMap PublicKey DeviceLease → List Bool → List DeviceRecord →
    Except RegistryError (HashMap PublicKey DeviceLease × List Bool)
  | leases, flags, [] => .ok (leases, flags)
  | leases, flags, device :: devices =>
    match decodePublicKey lib device.publicKey with
    | .error e => .error ⟨e.toString⟩
    | .ok key =>
      let (leases, flags) := addLease leases flags key device
      buildLeases leases flags devices

def seedRecord (seed : SeedDevice) : DeviceRecord :=
  { name := seed.name, platform := .linux, publicKey := encodePublicKey lib seed.publicKey,
    address := seed.address }

def «open» (file : Option StoreFile) (seeds : List SeedDevice) (tunnelAddress : Ipv4Addr)
    (prefixLen : UInt8) (persist : Except String Unit) : Except RegistryError DeviceRegistry := do
  let devices ←
    match file with
    | some file => loadDevices file
    | none => .ok (seeds.map (seedRecord lib))
  validateDevices lib devices tunnelAddress prefixLen
  let (leases, flags) ← buildLeases lib ∅ [] devices
  match file with
  | some file => .ok { tunnelAddress, prefixLen, devices, leases, flags, file }
  | none =>
    let file ← persistDevices persist devices
    .ok { tunnelAddress, prefixLen, devices, leases, flags, file }

def list (r : DeviceRegistry) : List DeviceRecord := r.devices

def authorize (r : DeviceRegistry) (publicKey : PublicKey) : Option DeviceLease :=
  r.leases.lookup publicKey

def isActive (r : DeviceRegistry) (authorization : DeviceAuthorization) : Bool :=
  r.flags.getD authorization.cell false

/-- `keys` is the outcome of key generation. -/
def provision (r : DeviceRegistry) (name : String) (platform : DevicePlatform)
    (keys : Except String KeyPair) (persist : Except String Unit) :
    DeviceRegistry × Except RegistryError ProvisionedDevice :=
  let name := trim name
  match validateName name, keys with
  | .error e, _ => (r, .error e)
  | .ok (), .error e => (r, .error ⟨e⟩)
  | .ok (), .ok keys =>
    match nextAddress r.devices r.tunnelAddress r.prefixLen with
    | .error e => (r, .error e)
    | .ok address =>
      let record : DeviceRecord :=
        { name, platform, publicKey := encodePublicKey lib keys.publicKey, address }
      let next := r.devices ++ [record]
      match persistDevices persist next with
      | .error e => (r, .error e)
      | .ok file =>
        let (leases, flags) := addLease r.leases r.flags keys.publicKey record
        ({ r with devices := next, leases, flags, file := some file },
          .ok ⟨record, keys.secret⟩)

def revoke (r : DeviceRegistry) (publicKey : String) (persist : Except String Unit) :
    DeviceRegistry × Except RegistryError Bool :=
  match decodePublicKey lib publicKey with
  | .error e => (r, .error ⟨e.toString⟩)
  | .ok decoded =>
    let next := r.devices.filter fun device => device.publicKey ≠ publicKey
    if next.length = r.devices.length then (r, .ok false)
    else if next.isEmpty then (r, .error ⟨"at least one device must remain authorized"⟩)
    else
      match persistDevices persist next with
      | .error e => (r, .error e)
      | .ok file =>
        let flags :=
          match r.leases.lookup decoded with
          | some lease => r.flags.set lease.authorization.cell false
          | none => r.flags
        ({ r with devices := next, leases := r.leases.erase decoded, flags, file := some file },
          .ok true)

end DeviceRegistry

end MouseVpn.Server
