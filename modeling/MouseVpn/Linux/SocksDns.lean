import MouseVpn.Lib.RustStd
import MouseVpn.Lib.RustStr

/-!
# The resolver of the SOCKS server

`build_query` writes a question for one name, `parse_response` looks for the first IPv4
address in a response. Counts and lengths of a response come from the network, names in it
may be compressed. A slice is at most `isize::MAX` bytes long, so no offset overflows.
-/

namespace MouseVpn.Linux.Socks

open MouseVpn.Lib MouseVpn.Lib.BigEndian

inductive ErrorKind
  | invalidInput
  | invalidData
  | notFound
  deriving DecidableEq, Repr

inductive IoError
  | new (kind : ErrorKind) (message : String)
  deriving DecidableEq, Repr

abbrev IoResult := Except (Fault IoError)

def invalidResponse : IoError := ⟨.invalidData, "invalid DNS response"⟩

def pushLabel (query label : Bytes) : Bytes := query ++ [UInt8.ofNat label.length] ++ label

def pushLabels : List Str → Bytes → IoResult Bytes
  | [], query => .ok query
  | label :: labels, query =>
    if label = [] ∨ label.len > 63 ∨ label.isAscii = false then
      .error (.failed ⟨.invalidInput, "invalid DNS label"⟩)
    else pushLabels labels (pushLabel query label.asBytes)

def buildQuery (name : Str) (identifier : Vector UInt8 2) : IoResult Bytes :=
  let name := name.trimEndMatches '.'
  if name = [] ∨ name.len > 253 then .error (.failed ⟨.invalidInput, "invalid DNS name"⟩)
  else do
    let query ← pushLabels (name.split '.')
      (identifier.toList ++ [0x01, 0x00, 0x00, 0x01, 0, 0, 0, 0, 0, 0])
    return query ++ [0, 0, 1, 0, 1]

/-- The byte after the name that starts at `offset`. -/
def skipName (packet : Bytes) (offset : ℕ) : IoResult ℕ :=
  if h : offset < packet.length then
    let length := packet.get ⟨offset, h⟩
    if length = 0 then .ok (offset + 1)
    else if length &&& 0xc0 = 0xc0 then
      match packet[offset + 1]? with
      | none => .error (.failed invalidResponse)
      | some _ => .ok (offset + 1 + 1)
    else if length &&& 0xc0 ≠ 0 then .error (.failed invalidResponse)
    else if offset + 1 + length.toNat ≤ packet.length then
      skipName packet (offset + 1 + length.toNat)
    else .error (.failed invalidResponse)
  else .error (.failed invalidResponse)
termination_by packet.length - offset

def readU16 (packet : Bytes) (offset : ℕ) : IoResult UInt16 :=
  if offset + 2 ≤ packet.length then
    .ok (UInt16.ofNat (beNat ((packet.drop offset).take 2)))
  else .error (.failed invalidResponse)

def skipQuestions (packet : Bytes) : ℕ → ℕ → IoResult ℕ
  | 0, offset => .ok offset
  | questions + 1, offset => do
    let offset ← skipName packet offset
    if offset + 4 ≤ packet.length then skipQuestions packet questions (offset + 4)
    else .error (.failed invalidResponse)

def findAddress (packet : Bytes) : ℕ → ℕ → IoResult Ipv4Addr
  | 0, _ => .error (.failed ⟨.notFound, "DNS response has no IPv4 address"⟩)
  | answers + 1, offset => do
    let offset ← skipName packet offset
    if offset + 10 > packet.length then .error (.failed invalidResponse)
    else
      let recordType ← readU16 packet offset
      let class_ ← readU16 packet (offset + 2)
      let length ← readU16 packet (offset + 8)
      let offset := offset + 10
      if offset + length.toNat ≤ packet.length then
        if recordType = 1 ∧ class_ = 1 ∧ length = 4 then
          let a ← index packet offset
          let b ← index packet (offset + 1)
          let c ← index packet (offset + 2)
          let d ← index packet (offset + 3)
          return ⟨a, b, c, d⟩
        else findAddress packet answers (offset + length.toNat)
      else .error (.failed invalidResponse)

def rejected (packet : Bytes) (identifier : Vector UInt8 2) : IoResult Bool :=
  if packet.length < 12 then return true
  else do
    let start ← slicePrefix packet 2
    if start ≠ identifier.toList then return true
    else
      let flags ← index packet 2
      return flags &&& 0x80 = 0

def parseResponse (packet : Bytes) (identifier : Vector UInt8 2) : IoResult Ipv4Addr := do
  if ← rejected packet identifier then .error (.failed invalidResponse)
  else
    let rcode ← index packet 3
    if rcode &&& 0x0f ≠ 0 then .error (.failed ⟨.notFound, "DNS name not found"⟩)
    else
      let questions ← readU16 packet 4
      let answers ← readU16 packet 6
      let offset ← skipQuestions packet questions.toNat 12
      findAddress packet answers.toNat offset

end MouseVpn.Linux.Socks
