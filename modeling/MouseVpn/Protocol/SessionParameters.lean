import MouseVpn.Lib.BigEndian
import MouseVpn.Lib.RustStd

/-!
# Negotiated session parameters

The eleven bytes the server seals into its handshake response: the tunnel
address, its prefix length, the tunnel MTU and the resolver.
-/

namespace MouseVpn.Protocol

open MouseVpn.Lib MouseVpn.Lib.BigEndian

def sessionParametersLen : ℕ := 11

structure SessionParameters where
  clientAddress : Ipv4Addr
  prefixLen : UInt8
  mtu : UInt16
  dns : Ipv4Addr
  deriving DecidableEq, Repr

inductive SessionParametersError
  | invalidLength (actual expected : ℕ)
  | invalidPrefix (value : UInt8)
  | invalidMtu (value : UInt16)
  deriving DecidableEq, Repr

namespace SessionParameters

def encode (p : SessionParameters) : Bytes :=
  p.clientAddress.octets ++ [p.prefixLen] ++ beBytes 2 p.mtu.toNat ++ p.dns.octets

def decode (input : Bytes) : Except SessionParametersError SessionParameters :=
  if input.length ≠ sessionParametersLen then
    .error (.invalidLength input.length sessionParametersLen)
  else
    let parameters : SessionParameters :=
      { clientAddress := ⟨input.getD 0 0, input.getD 1 0, input.getD 2 0, input.getD 3 0⟩
        prefixLen := input.getD 4 0
        mtu := UInt16.ofNat (beNat ((input.drop 5).take 2))
        dns := ⟨input.getD 7 0, input.getD 8 0, input.getD 9 0, input.getD 10 0⟩ }
    if parameters.prefixLen > 32 then .error (.invalidPrefix parameters.prefixLen)
    else if parameters.mtu < 576 ∨ parameters.mtu > 9000 then .error (.invalidMtu parameters.mtu)
    else .ok parameters

theorem decode_encode (p : SessionParameters) (hpre : ¬ p.prefixLen > 32)
    (hmtu : ¬ (p.mtu < 576 ∨ p.mtu > 9000)) : decode p.encode = .ok p := by
  have hb : beNat (beBytes 2 p.mtu.toNat) = p.mtu.toNat := beNat_beBytes_of_lt p.mtu.toNat_lt
  have hlen : p.encode.length = sessionParametersLen := by
    simp [encode, Ipv4Addr.octets, sessionParametersLen]
  have hm : (p.encode.drop 5).take 2 = beBytes 2 p.mtu.toNat := by
    simp [encode, Ipv4Addr.octets]
  have hd : p.encode.drop 7 = p.dns.octets := by
    simp [encode, Ipv4Addr.octets]
  have hget : ∀ i, p.encode.getD (7 + i) 0 = p.dns.octets.getD i 0 := by
    intro i
    rw [← hd]
    simp [List.getD_eq_getElem?_getD]
  have h7 := hget 0
  have h8 := hget 1
  have h9 := hget 2
  have h10 := hget 3
  simp only [Nat.reduceAdd] at h7 h8 h9 h10
  simp only [decode, hlen, ne_eq, not_true_eq_false, if_false, hm, hb, UInt16.ofNat_toNat, h7, h8,
    h9, h10]
  have hp : p.encode.getD 4 0 = p.prefixLen := rfl
  rw [hp, if_neg hpre, if_neg hmtu]
  rfl

end SessionParameters

end MouseVpn.Protocol
