import MouseVpn.Lib.RustStd

/-!
# Structural IPv4 parsing

`parse` checks the version, the header length and the total length, and keeps
the packet cut to its total length.
-/

namespace MouseVpn.DataPlane

open MouseVpn.Lib MouseVpn.Lib.BigEndian

def minimumHeaderLen : ℕ := 20

inductive Ipv4PacketError
  | truncated
  | unsupportedVersion (version : UInt8)
  | invalidHeaderLength
  | invalidTotalLength
  deriving DecidableEq, Repr

structure Ipv4Packet where
  bytes : Bytes
  source : Ipv4Addr
  destination : Ipv4Addr
  deriving DecidableEq, Repr

def totalLength (input : Bytes) : ℕ := beNat [input.getD 2 0, input.getD 3 0]

def Ipv4Packet.parse (input : Bytes) : Except Ipv4PacketError Ipv4Packet :=
  if input.length < minimumHeaderLen then .error .truncated
  else
    let version := input.getD 0 0 >>> 4
    if version ≠ 4 then .error (.unsupportedVersion version)
    else
      let headerLen := (input.getD 0 0 &&& 0x0f).toNat * 4
      if headerLen < minimumHeaderLen ∨ headerLen > input.length then .error .invalidHeaderLength
      else if totalLength input < headerLen ∨ totalLength input > input.length then
        .error .invalidTotalLength
      else .ok
        { bytes := input.take (totalLength input)
          source := ⟨input.getD 12 0, input.getD 13 0, input.getD 14 0, input.getD 15 0⟩
          destination := ⟨input.getD 16 0, input.getD 17 0, input.getD 18 0, input.getD 19 0⟩ }

theorem Ipv4Packet.parse_ok {input : Bytes} {ip : Ipv4Packet}
    (h : Ipv4Packet.parse input = .ok ip) :
    ip.bytes = input.take (totalLength input) ∧ minimumHeaderLen ≤ totalLength input ∧
      totalLength input ≤ input.length := by
  simp only [Ipv4Packet.parse] at h
  split_ifs at h with h1 h2 h3 h4
  cases h
  exact ⟨rfl, by omega, by omega⟩

theorem getD_take {input : Bytes} {n i : ℕ} (h : i < n) :
    (input.take n).getD i 0 = input.getD i 0 := by
  simp [List.getD_eq_getElem?_getD, h]

theorem totalLength_take {input : Bytes} {n : ℕ} (h : 4 ≤ n) :
    totalLength (input.take n) = totalLength input := by
  simp only [totalLength, getD_take (show 2 < n by omega), getD_take (show 3 < n by omega)]

theorem Ipv4Packet.parse_bytes {input : Bytes} {ip : Ipv4Packet}
    (h : Ipv4Packet.parse input = .ok ip) : Ipv4Packet.parse ip.bytes = .ok ip := by
  obtain ⟨hb, hmin, hmax⟩ := Ipv4Packet.parse_ok h
  have hg : ∀ i, i < 20 → (input.take (totalLength input)).getD i 0 = input.getD i 0 :=
    fun i hi => getD_take (lt_of_lt_of_le hi hmin)
  have ht : totalLength (input.take (totalLength input)) = totalLength input :=
    totalLength_take (le_trans (by decide) hmin)
  have hl : (input.take (totalLength input)).length = totalLength input := by
    simp [hmax]
  rw [hb]
  simp only [Ipv4Packet.parse] at h ⊢
  split_ifs at h with h1 h2 h3 h4
  simp only [hl, ht, hg, Nat.reduceLT]
  rw [if_neg (by omega), if_neg h2, if_neg (by omega), if_neg (by omega), List.take_take,
    Nat.min_self]
  exact h

end MouseVpn.DataPlane
