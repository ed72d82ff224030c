import MouseVpn.Linux.SocksDns

/-!
# Names, questions and records in a DNS packet

The parser accepts exactly the packets in which the skipped parts have the form described
here, up to the first record with an IPv4 address.
-/

namespace MouseVpn.Linux.Socks

open MouseVpn.Lib MouseVpn.Lib.BigEndian

/-- A name at `offset`, perhaps ended by a compression pointer, and the byte after it. -/
inductive NameAt (packet : Bytes) : ℕ → ℕ → Prop
  | root {offset : ℕ} (h : packet[offset]? = some 0) : NameAt packet offset (offset + 1)
  | pointer {offset : ℕ} {b c : UInt8} (h : packet[offset]? = some b) (hb : b &&& 0xc0 = 0xc0)
      (hc : packet[offset + 1]? = some c) : NameAt packet offset (offset + 2)
  | label {offset next : ℕ} {b : UInt8} (h : packet[offset]? = some b) (hb : b ≠ 0)
      (hplain : b &&& 0xc0 = 0) (hend : offset + 1 + b.toNat ≤ packet.length)
      (hrest : NameAt packet (offset + 1 + b.toNat) next) : NameAt packet offset next

/-- `n` questions between `offset` and the last index: each a name, a type and a class. -/
inductive QuestionsAt (packet : Bytes) : ℕ → ℕ → ℕ → Prop
  | nil {offset : ℕ} : QuestionsAt packet 0 offset offset
  | cons {n offset name next : ℕ} (hname : NameAt packet offset name)
      (hend : name + 4 ≤ packet.length) (hrest : QuestionsAt packet n (name + 4) next) :
      QuestionsAt packet (n + 1) offset next

def u16At (packet : Bytes) (offset : ℕ) : UInt16 :=
  UInt16.ofNat (beNat ((packet.drop offset).take 2))

structure Record where
  recordType : UInt16
  class_ : UInt16
  data : ℕ
  length : UInt16

def Record.IsAddress (r : Record) : Prop := r.recordType = 1 ∧ r.class_ = 1 ∧ r.length = 4

/-- The record lies within the packet from `offset` on. -/
structure RecordAt (packet : Bytes) (offset : ℕ) (r : Record) : Prop where
  form : ∃ name, NameAt packet offset name ∧ r = ⟨u16At packet name, u16At packet (name + 2),
    name + 10, u16At packet (name + 8)⟩
  within : r.data + r.length.toNat ≤ packet.length

/-- The first of `n` records that holds an IPv4 address holds this one. -/
inductive AddressAt (packet : Bytes) : ℕ → ℕ → Ipv4Addr → Prop
  | found {n offset : ℕ} {r : Record} (hr : RecordAt packet offset r) (ha : r.IsAddress) :
      AddressAt packet (n + 1) offset ⟨packet.getD r.data 0, packet.getD (r.data + 1) 0,
        packet.getD (r.data + 2) 0, packet.getD (r.data + 3) 0⟩
  | later {n offset : ℕ} {r : Record} {address : Ipv4Addr} (hr : RecordAt packet offset r)
      (ha : ¬ r.IsAddress) (hrest : AddressAt packet n (r.data + r.length.toNat) address) :
      AddressAt packet (n + 1) offset address

structure Responds (packet : Bytes) (identifier : Vector UInt8 2) : Prop where
  length : 12 ≤ packet.length
  identifier : packet.take 2 = identifier.toList
  response : packet.getD 2 0 &&& 0x80 ≠ 0
  rcode : packet.getD 3 0 &&& 0x0f = 0

theorem skipName_of_some {packet : Bytes} {offset : ℕ} {b : UInt8} (h : packet[offset]? = some b) :
    skipName packet offset =
      if b = 0 then .ok (offset + 1)
      else if b &&& 0xc0 = 0xc0 then
        if offset + 1 < packet.length then .ok (offset + 2) else .error (.failed invalidResponse)
      else if b &&& 0xc0 = 0 ∧ offset + 1 + b.toNat ≤ packet.length then
        skipName packet (offset + 1 + b.toNat)
      else .error (.failed invalidResponse) := by
  obtain ⟨hlt, rfl⟩ := List.getElem?_eq_some_iff.mp h
  rw [skipName, dif_pos hlt]
  simp only [List.get_eq_getElem]
  by_cases hnext : offset + 1 < packet.length
  · simp only [List.getElem?_eq_getElem hnext, if_pos hnext]
    split_ifs <;> tauto
  · simp only [List.getElem?_eq_none (Nat.not_lt.mp hnext), if_neg hnext]
    split_ifs <;> tauto

theorem skipName_of_none {packet : Bytes} {offset : ℕ} (h : packet[offset]? = none) :
    skipName packet offset = .error (.failed invalidResponse) := by
  rw [skipName, dif_neg (Nat.not_lt.mpr (List.getElem?_eq_none_iff.mp h))]

theorem NameAt.skipName_eq {packet : Bytes} {offset next : ℕ} (h : NameAt packet offset next) :
    skipName packet offset = .ok next := by
  induction h with
  | root h => rw [skipName_of_some h, if_pos rfl]
  | pointer h hb hc =>
    rename_i b _
    have hzero : b ≠ 0 := by
      intro h0
      rw [h0] at hb
      exact absurd hb (by decide)
    rw [skipName_of_some h, if_neg hzero, if_pos hb,
      if_pos (List.getElem?_eq_some_iff.mp hc).1]
  | label h hb hplain hend _ ih =>
    have hpointer : ¬ (0 : UInt8) = 0xc0 := by decide
    rw [skipName_of_some h, if_neg hb, hplain, if_neg hpointer, if_pos ⟨rfl, hend⟩, ih]

theorem skipName_cases (packet : Bytes) (offset : ℕ) :
    (∃ next, NameAt packet offset next) ∨
      skipName packet offset = .error (.failed invalidResponse) := by
  cases h : packet[offset]? with
  | none => exact Or.inr (skipName_of_none h)
  | some b =>
    rw [skipName_of_some h]
    split_ifs with hzero hpointer hnext hplain
    · exact Or.inl ⟨_, .root (hzero ▸ h)⟩
    · exact Or.inl ⟨_, .pointer h hpointer (List.getElem?_eq_getElem hnext)⟩
    · exact Or.inr rfl
    · have hlt := (List.getElem?_eq_some_iff.mp h).1
      rcases skipName_cases packet (offset + 1 + b.toNat) with ⟨next, hrest⟩ | herror
      · exact Or.inl ⟨next, .label h hzero hplain.1 hplain.2 hrest⟩
      · exact Or.inr herror
    · exact Or.inr rfl
termination_by packet.length - offset

theorem skipName_ok_iff {packet : Bytes} {offset next : ℕ} :
    skipName packet offset = .ok next ↔ NameAt packet offset next := by
  constructor
  · intro h
    rcases skipName_cases packet offset with ⟨other, hname⟩ | herror
    · rw [hname.skipName_eq] at h
      obtain rfl := Except.ok.inj h
      exact hname
    · rw [herror] at h
      cases h
  · exact NameAt.skipName_eq

theorem skipName_ne_panicked (packet : Bytes) (offset : ℕ) :
    skipName packet offset ≠ .error .panicked := by
  rcases skipName_cases packet offset with ⟨next, hname⟩ | herror
  · rw [hname.skipName_eq]
    nofun
  · rw [herror]
    nofun

theorem readU16_of_le {packet : Bytes} {offset : ℕ} (h : offset + 2 ≤ packet.length) :
    readU16 packet offset = .ok (u16At packet offset) := by
  rw [readU16, if_pos h]
  rfl

theorem skipQuestions_ok_iff {packet : Bytes} {n offset next : ℕ} :
    skipQuestions packet n offset = .ok next ↔ QuestionsAt packet n offset next := by
  induction n generalizing offset with
  | zero =>
    constructor
    · intro h
      obtain rfl := Except.ok.inj h
      exact .nil
    · intro h
      cases h
      rfl
  | succ n ih =>
    rw [skipQuestions, bind_eq_ok]
    constructor
    · intro h
      obtain ⟨name, hname, h⟩ := h
      split_ifs at h with hend
      exact .cons (skipName_ok_iff.mp hname) hend (ih.mp h)
    · intro h
      cases h with
      | cons hname hend hrest =>
        refine ⟨_, hname.skipName_eq, ?_⟩
        rw [if_pos hend]
        exact ih.mpr hrest

theorem skipQuestions_ne_panicked (packet : Bytes) (n offset : ℕ) :
    skipQuestions packet n offset ≠ .error .panicked := by
  induction n generalizing offset with
  | zero => nofun
  | succ n ih =>
    rw [skipQuestions]
    apply bind_ne_panicked (skipName_ne_panicked packet offset)
    intro name _
    split_ifs with hend
    · exact ih _
    · nofun

theorem findAddress_succ {packet : Bytes} {n offset name : ℕ} (h : NameAt packet offset name) :
    findAddress packet (n + 1) offset =
      if name + 10 + (u16At packet (name + 8)).toNat ≤ packet.length then
        if u16At packet name = 1 ∧ u16At packet (name + 2) = 1 ∧ u16At packet (name + 8) = 4 then
          .ok ⟨packet.getD (name + 10) 0, packet.getD (name + 11) 0, packet.getD (name + 12) 0,
            packet.getD (name + 13) 0⟩
        else findAddress packet n (name + 10 + (u16At packet (name + 8)).toNat)
      else .error (.failed invalidResponse) := by
  rw [findAddress, h.skipName_eq]
  simp only [bind, Except.bind]
  by_cases hfixed : name + 10 ≤ packet.length
  · rw [if_neg (Nat.not_lt.mpr hfixed), readU16_of_le (by omega), readU16_of_le (by omega),
      readU16_of_le (by omega)]
    simp only
    split_ifs with hend haddress
    · have hlength : (u16At packet (name + 8)).toNat = 4 := by
        rw [haddress.2.2]
        rfl
      rw [index_of_lt (by omega), index_of_lt (by omega), index_of_lt (by omega),
        index_of_lt (by omega)]
      rfl
    · rfl
    · rfl
  · rw [if_pos (Nat.not_le.mp hfixed), if_neg (by omega)]

theorem findAddress_ok_iff {packet : Bytes} {n offset : ℕ} {address : Ipv4Addr} :
    findAddress packet n offset = .ok address ↔ AddressAt packet n offset address := by
  induction n generalizing offset with
  | zero =>
    constructor
    · intro h
      cases h
    · intro h
      cases h
  | succ n ih =>
    constructor
    · intro h
      rcases skipName_cases packet offset with ⟨name, hname⟩ | herror
      · rw [findAddress_succ hname] at h
        split_ifs at h with hend haddress
        · rw [← Except.ok.inj h]
          exact .found ⟨⟨name, hname, rfl⟩, hend⟩ haddress
        · exact .later ⟨⟨name, hname, rfl⟩, hend⟩ haddress (ih.mp h)
      · rw [findAddress, herror] at h
        cases h
    · intro h
      cases h with
      | found hr ha =>
        obtain ⟨⟨name, hname, rfl⟩, hend⟩ := hr
        rw [findAddress_succ hname, if_pos hend]
        exact if_pos ha
      | later hr ha hrest =>
        obtain ⟨⟨name, hname, rfl⟩, hend⟩ := hr
        rw [findAddress_succ hname, if_pos hend]
        exact (if_neg ha).trans (ih.mpr hrest)

theorem findAddress_ne_panicked (packet : Bytes) (n offset : ℕ) :
    findAddress packet n offset ≠ .error .panicked := by
  induction n generalizing offset with
  | zero => nofun
  | succ n ih =>
    rcases skipName_cases packet offset with ⟨name, hname⟩ | herror
    · rw [findAddress_succ hname]
      split_ifs with hend haddress
      · nofun
      · exact ih _
      · nofun
    · rw [findAddress, herror]
      nofun

theorem parseResponse_of_header {packet : Bytes} (h : 12 ≤ packet.length)
    (identifier : Vector UInt8 2) :
    parseResponse packet identifier =
      if packet.take 2 ≠ identifier.toList ∨ packet.getD 2 0 &&& 0x80 = 0 then
        .error (.failed invalidResponse)
      else if packet.getD 3 0 &&& 0x0f ≠ 0 then
        .error (.failed ⟨.notFound, "DNS name not found"⟩)
      else skipQuestions packet (u16At packet 4).toNat 12 >>=
        findAddress packet (u16At packet 6).toNat := by
  have hrejected : rejected packet identifier = .ok (decide
      (packet.take 2 ≠ identifier.toList ∨ packet.getD 2 0 &&& 0x80 = 0)) := by
    rw [rejected, if_neg (Nat.not_lt.mpr h), slicePrefix, if_pos (by omega)]
    simp only [bind, Except.bind]
    by_cases hid : packet.take 2 = identifier.toList
    · rw [if_neg (not_not_intro hid), index_of_lt (by omega)]
      simp [hid, pure, Except.pure]
    · rw [if_pos hid]
      simp [hid, pure, Except.pure]
  rw [parseResponse, hrejected, index_of_lt (by omega), readU16_of_le (by omega),
    readU16_of_le (by omega)]
  simp only [bind, Except.bind]
  split_ifs <;> simp_all

theorem parseResponse_ok_iff {packet : Bytes} {identifier : Vector UInt8 2} {address : Ipv4Addr} :
    parseResponse packet identifier = .ok address ↔ Responds packet identifier ∧
      ∃ offset, QuestionsAt packet (u16At packet 4).toNat 12 offset ∧
        AddressAt packet (u16At packet 6).toNat offset address := by
  by_cases hlength : 12 ≤ packet.length
  · rw [parseResponse_of_header hlength]
    constructor
    · intro h
      split_ifs at h with hreject hrcode
      rw [not_or, not_not] at hreject
      obtain ⟨offset, hquestions, haddress⟩ := bind_eq_ok.mp h
      exact ⟨⟨hlength, hreject.1, hreject.2, not_not.mp hrcode⟩, offset,
        skipQuestions_ok_iff.mp hquestions, findAddress_ok_iff.mp haddress⟩
    · intro h
      obtain ⟨hresponds, offset, hquestions, haddress⟩ := h
      have hreject : ¬ (packet.take 2 ≠ identifier.toList ∨ packet.getD 2 0 &&& 0x80 = 0) :=
        not_or.mpr ⟨not_not_intro hresponds.identifier, hresponds.response⟩
      rw [if_neg hreject, if_neg (not_not_intro hresponds.rcode)]
      exact bind_eq_ok.mpr ⟨offset, skipQuestions_ok_iff.mpr hquestions,
        findAddress_ok_iff.mpr haddress⟩
  · constructor
    · intro h
      rw [parseResponse, rejected, if_pos (Nat.not_le.mp hlength)] at h
      cases h
    · intro h
      exact absurd h.1.length hlength

theorem parseResponse_ne_panicked (packet : Bytes) (identifier : Vector UInt8 2) :
    parseResponse packet identifier ≠ .error .panicked := by
  by_cases hlength : 12 ≤ packet.length
  · rw [parseResponse_of_header hlength]
    split_ifs with hreject hrcode
    · nofun
    · nofun
    · exact bind_ne_panicked (skipQuestions_ne_panicked packet _ 12)
        (fun offset _ => findAddress_ne_panicked packet _ offset)
  · rw [parseResponse, rejected, if_pos (Nat.not_le.mp hlength)]
    nofun

/-- The labels from `offset` up to the root label, without compression. -/
def readLabels (packet : Bytes) (offset : ℕ) : Option (List Bytes) :=
  if h : offset < packet.length then
    let length := packet.get ⟨offset, h⟩
    if length = 0 then some []
    else (readLabels packet (offset + 1 + length.toNat)).map
      fun labels => (packet.drop (offset + 1)).take length.toNat :: labels
  else none
termination_by packet.length - offset

def encodeLabels (labels : List Bytes) : Bytes :=
  labels.flatMap fun label => UInt8.ofNat label.length :: label

def ValidLabel (label : Bytes) : Prop := 1 ≤ label.length ∧ label.length ≤ 63

theorem plain_of_le {n : ℕ} (h : n ≤ 63) : UInt8.ofNat n &&& 0xc0 = 0 := by
  have hall : ∀ k : Fin 64, UInt8.ofNat k.val &&& 0xc0 = 0 := by decide
  exact hall ⟨n, Nat.lt_succ_of_le h⟩

theorem ValidLabel.toNat {label : Bytes} (h : ValidLabel label) :
    (UInt8.ofNat label.length).toNat = label.length := by
  obtain ⟨-, hle⟩ := h
  exact Nat.mod_eq_of_lt (by omega)

theorem ValidLabel.ne_zero {label : Bytes} (h : ValidLabel label) :
    UInt8.ofNat label.length ≠ 0 := by
  intro h0
  have hlength := h.toNat
  rw [h0] at hlength
  exact absurd hlength (Nat.ne_of_lt h.1)

theorem readLabels_of_some {packet : Bytes} {offset : ℕ} {b : UInt8}
    (h : packet[offset]? = some b) :
    readLabels packet offset =
      if b = 0 then some []
      else (readLabels packet (offset + 1 + b.toNat)).map
        fun labels => (packet.drop (offset + 1)).take b.toNat :: labels := by
  obtain ⟨hlt, rfl⟩ := List.getElem?_eq_some_iff.mp h
  rw [readLabels, dif_pos hlt]
  rfl

theorem nameAt_encodeLabels (front : Bytes) {labels : List Bytes} (rest : Bytes)
    (h : ∀ label ∈ labels, ValidLabel label) :
    NameAt (front ++ (encodeLabels labels ++ 0 :: rest)) front.length
        (front.length + (encodeLabels labels).length + 1) ∧
      readLabels (front ++ (encodeLabels labels ++ 0 :: rest)) front.length = some labels := by
  induction labels generalizing front with
  | nil =>
    have hroot : (front ++ (encodeLabels [] ++ 0 :: rest))[front.length]? = some 0 := by
      simp [encodeLabels]
    refine ⟨.root hroot, ?_⟩
    rw [readLabels_of_some hroot, if_pos rfl]
  | cons label labels ih =>
    obtain ⟨hlabel, hlabels⟩ := List.forall_mem_cons.mp h
    obtain ⟨hname, hread⟩ := ih (front ++ UInt8.ofNat label.length :: label) hlabels
    have hpacket : front ++ (encodeLabels (label :: labels) ++ 0 :: rest) =
        (front ++ UInt8.ofNat label.length :: label) ++ (encodeLabels labels ++ 0 :: rest) := by
      simp [encodeLabels]
    have hfront : (front ++ UInt8.ofNat label.length :: label).length =
        front.length + 1 + (UInt8.ofNat label.length).toNat := by
      rw [hlabel.toNat, List.length_append, List.length_cons]
      omega
    have hfirst : ((front ++ UInt8.ofNat label.length :: label) ++
        (encodeLabels labels ++ 0 :: rest))[front.length]? =
          some (UInt8.ofNat label.length) := by simp
    have hend : (front ++ UInt8.ofNat label.length :: label).length +
        (encodeLabels labels).length + 1 =
          front.length + (encodeLabels (label :: labels)).length + 1 := by
      simp only [encodeLabels, List.flatMap_cons, List.length_append, List.length_cons]
      omega
    rw [hpacket, ← hend]
    rw [hfront] at hname hread ⊢
    constructor
    · refine .label hfirst hlabel.ne_zero (plain_of_le hlabel.2) ?_ hname
      rw [← hfront]
      exact (List.sublist_append_left _ _).length_le
    · rw [readLabels_of_some hfirst, if_neg hlabel.ne_zero, hread, hlabel.toNat]
      simp

theorem pushLabels_ok {labels : List Str} {query result : Bytes}
    (h : pushLabels labels query = .ok result) :
    result = query ++ encodeLabels (labels.map Str.asBytes) ∧
      ∀ label ∈ labels.map Str.asBytes, ValidLabel label := by
  induction labels generalizing query with
  | nil =>
    obtain rfl := Except.ok.inj h
    simp [encodeLabels]
  | cons label labels ih =>
    rw [pushLabels] at h
    split_ifs at h with hinvalid
    obtain ⟨hresult, hvalid⟩ := ih h
    simp only [not_or, Nat.not_lt] at hinvalid
    have hlabel : ValidLabel label.asBytes :=
      ⟨Str.asBytes_pos hinvalid.1, hinvalid.2.1⟩
    refine ⟨?_, ?_⟩
    · rw [hresult, pushLabel]
      simp [encodeLabels]
    · rw [List.map_cons]
      exact List.forall_mem_cons.mpr ⟨hlabel, hvalid⟩

theorem buildQuery_ok {name : Str} {identifier : Vector UInt8 2} {query : Bytes}
    (h : buildQuery name identifier = .ok query) :
    skipName query 12 = .ok (query.length - 4) ∧
      readLabels query 12 = some (((name.trimEndMatches '.').split '.').map Str.asBytes) := by
  rw [buildQuery] at h
  split_ifs at h with hname
  obtain ⟨pushed, hpushed, hquery⟩ := bind_eq_ok.mp h
  obtain ⟨rfl, hvalid⟩ := pushLabels_ok hpushed
  obtain rfl := Except.ok.inj hquery
  have hlength : (identifier.toList ++
      [0x01, 0x00, 0x00, 0x01, 0, 0, 0, 0, 0, 0]).length = 12 := by simp
  obtain ⟨hskip, hread⟩ := nameAt_encodeLabels
    (identifier.toList ++ [0x01, 0x00, 0x00, 0x01, 0, 0, 0, 0, 0, 0]) [0, 1, 0, 1] hvalid
  rw [hlength, ← List.append_assoc] at hskip hread
  refine ⟨?_, hread⟩
  rw [hskip.skipName_eq]
  simp only [List.length_append, hlength]
  simp

/-- Both directions of the codec. -/
theorem dns_codec (identifier : Vector UInt8 2) :
    (∀ name query, buildQuery name identifier = .ok query →
      skipName query 12 = .ok (query.length - 4) ∧
      ∃ labels, readLabels query 12 = some labels ∧
        labels = ((name.trimEndMatches '.').split '.').map Str.asBytes ∧
        (Str.asBytes ['.']).intercalate labels = (name.trimEndMatches '.').asBytes) ∧
    ∀ packet, parseResponse packet identifier ≠ .error .panicked ∧
      ∀ address, parseResponse packet identifier = .ok address ↔
        Responds packet identifier ∧
          ∃ offset, QuestionsAt packet (u16At packet 4).toNat 12 offset ∧
            AddressAt packet (u16At packet 6).toNat offset address := by
  constructor
  · intro name query h
    obtain ⟨hskip, hread⟩ := buildQuery_ok h
    refine ⟨hskip, _, hread, rfl, ?_⟩
    rw [← Str.asBytes_intercalate, Str.split, List.intercalate_splitOn]
  · intro packet
    exact ⟨parseResponse_ne_panicked packet identifier, fun _ => parseResponse_ok_iff⟩

example : buildQuery "ab.c.".toList #v[0x12, 0x34] =
    .ok [0x12, 0x34, 1, 0, 0, 1, 0, 0, 0, 0, 0, 0, 2, 97, 98, 1, 99, 0, 0, 1, 0, 1] := by
  decide

example : parseResponse [0x12, 0x34, 0x81, 0x80, 0, 1, 0, 1, 0, 0, 0, 0, 1, 99, 0, 0, 1, 0, 1,
    0xc0, 0x0c, 0, 1, 0, 1, 0, 0, 0, 60, 0, 4, 1, 2, 3, 4] #v[0x12, 0x34] =
      .ok ⟨1, 2, 3, 4⟩ := by
  decide +kernel

end MouseVpn.Linux.Socks
