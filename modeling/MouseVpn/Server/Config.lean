import MouseVpn.Server.Router

/-!
# The server configuration

`validate` checks the network settings, decodes the keys and goes through the
authorized clients with the addresses and keys seen so far.
-/

namespace MouseVpn.Server

open MouseVpn.Lib MouseVpn.Crypto

structure AuthorizedClientConfig where
  name : String
  publicKey : String
  address : Ipv4Addr

structure ValidatedAuthorizedClient where
  name : String
  publicKey : PublicKey
  address : Ipv4Addr

structure ServerConfig where
  serverPublicKey : String
  serverPrivateKey : String
  tun : ServerTunConfig
  clients : List AuthorizedClientConfig

structure ServerConfig.Validated extends ValidatedServerConfig where
  clients : List ValidatedAuthorizedClient

def sameSubnet (left right : Ipv4Addr) (prefixLen : UInt8) : Bool :=
  let mask : UInt32 :=
    if prefixLen = 0 then 0 else 0xFFFFFFFF <<< (32 - UInt32.ofNat prefixLen.toNat)
  left.toUInt32 &&& mask = right.toUInt32 &&& mask

namespace ServerConfig

variable (lib : Libraries)

def validateClients (tun : ServerTunConfig) : List Ipv4Addr → List PublicKey →
    List AuthorizedClientConfig → Except ConfigError (List ValidatedAuthorizedClient)
  | _, _, [] => .ok []
  | addresses, keys, client :: clients =>
    if client.address = tun.address then .error .clientAddressMatchesServer
    else if !sameSubnet client.address tun.address tun.prefixLen then
      .error .clientOutsideTunnelSubnet
    else if client.address ∈ addresses then .error .duplicateClientAddress
    else do
      let publicKey ← decodePublicKey lib client.publicKey
      if publicKey ∈ keys then .error .duplicateClientKey
      else do
        let rest ← validateClients tun (client.address :: addresses) (publicKey :: keys) clients
        return ⟨client.name, publicKey, client.address⟩ :: rest

def validate (config : ServerConfig) : Except ConfigError Validated :=
  if config.clients.isEmpty then .error .emptyClients
  else if config.tun.prefixLen > 32 then .error (.invalidPrefix config.tun.prefixLen)
  else if config.tun.mtu < 576 ∨ config.tun.mtu > 9000 then .error (.invalidMtu config.tun.mtu)
  else do
    let serverPublicKey ← decodePublicKey lib config.serverPublicKey
    let serverPrivateKey ← decodeSecretKey lib config.serverPrivateKey
    if serverPrivateKey.publicKey lib ≠ serverPublicKey then .error .serverKeyPairMismatch
    else do
      let clients ← validateClients lib config.tun [] [] config.clients
      return {
        serverPublicKey
        serverPrivateKey
        context := ProtocolContext.forServer lib serverPublicKey
        tun := config.tun
        clients }

structure Sound (lib : Libraries) (config : ValidatedServerConfig) : Prop where
  prefixLen : config.tun.prefixLen ≤ 32
  mtu : 576 ≤ config.tun.mtu ∧ config.tun.mtu ≤ 9000
  keyPair : config.serverPrivateKey.publicKey lib = config.serverPublicKey

variable {lib}

theorem sound_of_validate {config : ServerConfig} {validated : Validated}
    (h : config.validate lib = .ok validated) :
    Sound lib validated.toValidatedServerConfig := by
  unfold validate at h
  split_ifs at h with hclients hprefix hmtu
  obtain ⟨serverPublicKey, -, h⟩ := bind_eq_ok.mp h
  obtain ⟨serverPrivateKey, -, h⟩ := bind_eq_ok.mp h
  split_ifs at h with hpair
  obtain ⟨clients, -, h⟩ := bind_eq_ok.mp h
  cases h
  obtain ⟨hmin, hmax⟩ := not_or.mp hmtu
  exact ⟨UInt8.not_lt.mp hprefix, ⟨UInt16.not_lt.mp hmin, UInt16.not_lt.mp hmax⟩,
    not_not.mp hpair⟩

end ServerConfig

end MouseVpn.Server
