import MouseVpn.Lib.RustStd

/-!
# Addresses as text

The `Display` forms of the address types of `std::net`.
-/

namespace MouseVpn.Lib

open BigEndian

namespace Ipv4Addr

def text (ip : Ipv4Addr) : String :=
  ".".intercalate (ip.octets.map fun octet => octet.toNat.repr)

end Ipv4Addr

namespace Ipv6Addr

def groups : Bytes → List ℕ
  | high :: low :: rest => beNat [high, low] :: groups rest
  | _ => []

structure Span where
  start : ℕ
  len : ℕ

def extendRun (runs : Span × Span) (segment : ℕ × ℕ) : Span × Span :=
  let (longest, current) := runs
  if segment.1 = 0 then
    let start := if current.len = 0 then segment.2 else current.start
    let current : Span := ⟨start, current.len + 1⟩
    (if longest.len < current.len then current else longest, current)
  else (longest, ⟨0, 0⟩)

def zeroes (segments : List ℕ) : Span :=
  (segments.zipIdx.foldl extendRun (⟨0, 0⟩, ⟨0, 0⟩)).1

def hex (segments : List ℕ) : String :=
  ":".intercalate (segments.map fun segment => String.ofList (Nat.toDigits 16 segment))

def toIpv4Mapped (ip : Ipv6Addr) : Option Ipv4Addr :=
  if ip.octets.take 12 = List.replicate 10 0 ++ [0xff, 0xff] then
    match ip.octets.drop 12 with
    | [a, b, c, d] => some ⟨a, b, c, d⟩
    | _ => none
  else none

def text (ip : Ipv6Addr) : String :=
  match ip.toIpv4Mapped with
  | some ipv4 => "::ffff:" ++ ipv4.text
  | none =>
    let segments := groups ip.octets
    let run := zeroes segments
    if 1 < run.len then
      hex (segments.take run.start) ++ "::" ++ hex (segments.drop (run.start + run.len))
    else hex segments

end Ipv6Addr

def IpAddr.text : IpAddr → String
  | .v4 ip => ip.text
  | .v6 ip => ip.text

namespace SocketAddr

def ip : SocketAddr → IpAddr
  | .v4 ip _ => .v4 ip
  | .v6 ip _ _ _ => .v6 ⟨beBytes 16 ip.toNat, beBytes_length 16 ip.toNat⟩

def port : SocketAddr → UInt16
  | .v4 _ port => port
  | .v6 _ port _ _ => port

def isIpv4 : SocketAddr → Bool
  | .v4 .. => true
  | .v6 .. => false

end SocketAddr

end MouseVpn.Lib
