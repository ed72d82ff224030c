import MouseVpn.Lib.RustStr
import MouseVpn.Windows.PacketFrame

/-!
# The segment size of routed connections

`clamp_mss` walks over the options of a SYN segment and lowers the first MSS option to what the
tunnel can carry. The walk is first written with the bounds checks of the buffer, where an access
outside of it panics, and then compared with the options as a segment is built from them.
-/

namespace MouseVpn.Windows

open MouseVpn.Lib MouseVpn.Lib.BigEndian

theorem toBeBytes_length (x : UInt16) : (toBeBytes x).length = 2 := beBytes_length ..

namespace Buffer

abbrev Checked := Except (Fault Empty)

def protocol (bytes : Bytes) : Version → Checked UInt8
  | .v4 => index bytes 9
  | .v6 => index bytes 6

def isFirstFragment (bytes : Bytes) : Version → Checked Bool
  | .v4 => do
    let high ← index bytes 6
    let low ← index bytes 7
    return fromBeBytes high low &&& fragmentOffsetMask = 0
  | .v6 => return true

/-- A buffer is at most `isize::MAX` bytes long, so no sum of an index and a length overflows. -/
def clampOptions (bytes : Bytes) (limit : UInt16) (stop position : ℕ) : Checked (Bytes × Bool) :=
  if position < stop then do
    let kind ← index bytes position
    if kind = 0 then return (bytes, false)
    else if kind = 1 then clampOptions bytes limit stop (position + 1)
    else
      match bytes[position + 1]? with
      | none => return (bytes, false)
      | some length =>
        if length.toNat < 2 ∨ position + length.toNat > stop then return (bytes, false)
        else if kind = 2 ∧ length.toNat = 4 then
          let high ← index bytes (position + 2)
          let low ← index bytes (position + 3)
          if fromBeBytes high low ≤ limit then return (bytes, false)
          else
            let bytes ← copyFromSlice bytes (position + 2) (position + 4) (toBeBytes limit)
            return (bytes, true)
        else clampOptions bytes limit stop (position + length.toNat)
  else return (bytes, false)
termination_by stop - position

def clampMss (bytes : Bytes) (headerLength : ℕ) (version : Version) (limit : UInt16) :
    Checked (Bytes × Bool) := do
  if (← protocol bytes version) ≠ protocolTcp then return (bytes, false)
  else if ¬ (← isFirstFragment bytes version) then return (bytes, false)
  else if headerLength > bytes.length then return (bytes, false)
  else
    let transport := bytes.drop headerLength
    if transport.length < 20 then return (bytes, false)
    else if (← index transport 13) &&& 0x02 = 0 then return (bytes, false)
    else
      let dataOffset := ((← index transport 12) >>> 4).toNat * 4
      if dataOffset ≤ 20 ∨ dataOffset > transport.length then return (bytes, false)
      else clampOptions bytes limit (headerLength + dataOffset) (headerLength + 20)

end Buffer

namespace Packet

theorem checked_protocol (p : Packet) : Buffer.protocol p.bytes p.version = .ok p.protocol := by
  have h := p.getElem?_protocol
  revert h
  cases hv : p.version <;> exact index_eq_ok.mpr

theorem checked_isFirstFragment (p : Packet) :
    Buffer.isFirstFragment p.bytes p.version = .ok p.isFirstFragment := by
  have hlen := p.twenty_le
  rw [isFirstFragment_eq]
  cases p.version with
  | v4 =>
    simp only [Buffer.isFirstFragment, index_of_lt (show 6 < p.bytes.length by omega),
      index_of_lt (show 7 < p.bytes.length by omega)]
    rfl
  | v6 => rfl

theorem checked_clampOptions (p : Packet) (limit : UInt16) (stop : ℕ)
    (hstop : stop ≤ p.bytes.length) (position : ℕ) :
    Buffer.clampOptions p.bytes limit stop position =
      .ok ((p.clampOptions limit stop hstop position).1.bytes,
        (p.clampOptions limit stop hstop position).2) := by
  -- the walk with the checks takes the branch of the walk without them
  fun_induction clampOptions p limit stop hstop position with
  | case1 position hposition kind hkind =>
    rw [Buffer.clampOptions, if_pos hposition, index_ok (hposition.trans_le hstop)]
    exact if_pos hkind
  | case2 position hposition kind hend hkind ih =>
    rw [← ih]
    rw [Buffer.clampOptions, if_pos hposition, index_ok (hposition.trans_le hstop)]
    exact (if_neg hend).trans (if_pos hkind)
  | case3 position hposition kind hend hnop hnone =>
    rw [Buffer.clampOptions, if_pos hposition, index_ok (hposition.trans_le hstop), hnone]
    exact (if_neg hend).trans (if_neg hnop)
  | case4 position hposition kind hend hnop length hsome hlength =>
    rw [Buffer.clampOptions, if_pos hposition, index_ok (hposition.trans_le hstop), hsome]
    exact (if_neg hend).trans ((if_neg hnop).trans (if_pos hlength))
  | case5 position hposition kind hend hnop length hsome hlength hmss hle =>
    rw [Buffer.clampOptions, if_pos hposition, index_ok (hposition.trans_le hstop), hsome]
    refine (if_neg hend).trans
      ((if_neg hnop).trans ((if_neg hlength).trans ((if_pos hmss).trans ?_)))
    rw [index_ok (show position + 2 < p.bytes.length by omega),
      index_ok (show position + 3 < p.bytes.length by omega)]
    exact if_pos hle
  | case6 position hposition kind hend hnop length hsome hlength hmss hle =>
    rw [Buffer.clampOptions, if_pos hposition, index_ok (hposition.trans_le hstop), hsome]
    refine (if_neg hend).trans
      ((if_neg hnop).trans ((if_neg hlength).trans ((if_pos hmss).trans ?_)))
    rw [index_ok (show position + 2 < p.bytes.length by omega),
      index_ok (show position + 3 < p.bytes.length by omega)]
    refine (if_neg hle).trans ?_
    rw [copyFromSlice_of_length (t := position + 4) (by rw [toBeBytes_length]) (by omega)]
    rfl
  | case7 position hposition kind hend hnop length hsome hlength hmss ih =>
    rw [← ih]
    rw [Buffer.clampOptions, if_pos hposition, index_ok (hposition.trans_le hstop), hsome]
    exact (if_neg hend).trans ((if_neg hnop).trans ((if_neg hlength).trans (if_neg hmss)))
  | case8 position hposition =>
    rw [Buffer.clampOptions, if_neg hposition]
    rfl

theorem checked_clampMss (p : Packet) (limit : UInt16) :
    Buffer.clampMss p.bytes p.headerLength p.version limit =
      .ok ((p.clampMss limit).1.bytes, (p.clampMss limit).2) := by
  rw [Buffer.clampMss, checked_protocol, checked_isFirstFragment, clampMss]
  simp only [bind, Except.bind, pure, Except.pure]
  by_cases htcp : p.protocol = protocolTcp
  swap
  · rw [if_pos htcp, if_pos (Or.inl htcp)]
  rw [if_neg (not_not.mpr htcp)]
  by_cases hfirst : p.isFirstFragment = true
  swap
  · rw [if_pos hfirst, if_pos (Or.inr hfirst)]
  rw [if_neg (not_not.mpr hfirst), if_neg (not_lt.mpr p.inBounds),
    if_neg (not_or.mpr ⟨not_not.mpr htcp, not_not.mpr hfirst⟩)]
  by_cases hlen : (p.bytes.drop p.headerLength).length < 20
  · rw [if_pos hlen, dif_pos hlen]
  rw [if_neg hlen, dif_neg hlen, index_ok (show 13 < _ by omega), index_ok (show 12 < _ by omega)]
  dsimp only
  by_cases hsyn : (p.bytes.drop p.headerLength)[13] &&& 0x02 = 0
  · rw [if_pos hsyn, if_pos hsyn]
  rw [if_neg hsyn, if_neg hsyn]
  by_cases hend : ((p.bytes.drop p.headerLength)[12] >>> 4).toNat * 4 ≤ 20 ∨
      ((p.bytes.drop p.headerLength)[12] >>> 4).toNat * 4 > (p.bytes.drop p.headerLength).length
  · rw [if_pos hend, dif_pos hend]
  · rw [if_neg hend, dif_neg hend]
    exact checked_clampOptions ..

end Packet

inductive TcpOption
  | noOperation
  | other (kind : UInt8) (data : Bytes) (hkind : kind ≠ 0 ∧ kind ≠ 1)
      (hdata : data.length + 2 < 256) (hmss : ¬ (kind = 2 ∧ data.length = 2))

def TcpOption.encode : TcpOption → Bytes
  | noOperation => [1]
  | other kind data _ _ _ => kind :: UInt8.ofNat (data.length + 2) :: data

/-- There are whole options from `position` to `k`, and then an MSS option that ends by `stop`. -/
def MssAt (bytes : Bytes) (stop position k : ℕ) : Prop :=
  ∃ (options : List TcpOption) (rest : Bytes),
    bytes.drop position = options.flatMap TcpOption.encode ++ 2 :: 4 :: rest ∧
      k = position + (options.flatMap TcpOption.encode).length ∧ k + 4 ≤ stop

/-- The value of the MSS option at `k`. -/
def mss (bytes : Bytes) (k : ℕ) : UInt16 :=
  fromBeBytes (bytes.getD (k + 2) 0) (bytes.getD (k + 3) 0)

section MssAt

variable {bytes : Bytes} {stop position k : ℕ}

theorem MssAt.bounds (h : MssAt bytes stop position k) : position ≤ k ∧ k + 4 ≤ stop := by
  obtain ⟨options, rest, -, hk, hstop⟩ := h
  exact ⟨hk ▸ Nat.le_add_right .., hstop⟩

theorem mssAt_iff_option : MssAt bytes stop position k ↔
    (k = position ∧ position + 4 ≤ stop ∧ bytes[position]? = some 2 ∧
      bytes[position + 1]? = some 4) ∨
    ∃ option : TcpOption, option.encode <+: bytes.drop position ∧
      MssAt bytes stop (position + option.encode.length) k := by
  constructor
  · intro ⟨options, rest, hbytes, hk, hstop⟩
    cases options with
    | nil =>
      obtain ⟨hkind, hbytes⟩ := Vec.drop_eq_cons_iff.mp hbytes
      obtain rfl : k = position := hk
      exact Or.inl ⟨rfl, hstop, hkind, (Vec.drop_eq_cons_iff.mp hbytes).1⟩
    | cons option options =>
      rw [List.flatMap_cons, List.length_append] at hk
      rw [List.flatMap_cons, List.append_assoc, Vec.drop_eq_append_iff] at hbytes
      exact Or.inr ⟨option, hbytes.1, options, rest, hbytes.2, hk.trans (Nat.add_assoc ..).symm,
        hstop⟩
  · intro h
    rcases h with ⟨rfl, hstop, hkind, hlength⟩ | ⟨option, hoption, options, rest, hbytes, hk, hstop⟩
    · exact ⟨[], _, Vec.drop_eq_cons_iff.mpr ⟨hkind, Vec.drop_eq_cons_iff.mpr ⟨hlength, rfl⟩⟩, rfl,
        hstop⟩
    · refine ⟨option :: options, rest, ?_, ?_, hstop⟩
      · rw [List.flatMap_cons, List.append_assoc]
        exact Vec.drop_eq_append_iff.mpr ⟨hoption, hbytes⟩
      · rw [hk, List.flatMap_cons, List.length_append, Nat.add_assoc]

theorem noOperation_prefix_iff : TcpOption.encode .noOperation <+: bytes.drop position ↔
    bytes[position]? = some 1 := by
  constructor
  · intro ⟨rest, hrest⟩
    exact (Vec.drop_eq_cons_iff.mp hrest.symm).1
  · intro h
    exact ⟨_, (Vec.drop_eq_cons_iff.mpr ⟨h, rfl⟩).symm⟩

theorem length_other {kind : UInt8} {data : Bytes} (hne : kind ≠ 0 ∧ kind ≠ 1)
    (hdata : data.length + 2 < 256) (hmss : ¬ (kind = 2 ∧ data.length = 2)) :
    (TcpOption.other kind data hne hdata hmss).encode.length =
      (UInt8.ofNat (data.length + 2)).toNat := by
  rw [UInt8.toNat_ofNat']
  exact (Nat.mod_eq_of_lt hdata).symm

theorem exists_other_iff {kind length : UInt8} :
    (∃ data hne hdata hmss,
      (TcpOption.other kind data hne hdata hmss).encode <+: bytes.drop position ∧
      UInt8.ofNat (data.length + 2) = length) ↔
    bytes[position]? = some kind ∧ bytes[position + 1]? = some length ∧ kind ≠ 0 ∧ kind ≠ 1 ∧
      2 ≤ length.toNat ∧ ¬ (kind = 2 ∧ length.toNat = 4) ∧
      position + length.toNat ≤ bytes.length := by
  constructor
  · intro ⟨data, hne, hdata, hmss, hoption, hlength⟩
    obtain ⟨rest, hbytes⟩ := hoption
    simp only [TcpOption.encode, List.cons_append] at hbytes
    obtain ⟨hkind, hbytes⟩ := Vec.drop_eq_cons_iff.mp hbytes.symm
    obtain ⟨hsecond, hbytes⟩ := Vec.drop_eq_cons_iff.mp hbytes
    have hsize : length.toNat = data.length + 2 := by
      rw [← hlength, ← length_other hne hdata hmss]
      rfl
    obtain ⟨hinside, -⟩ := List.getElem?_eq_some_iff.mp hsecond
    have hbound := congrArg List.length hbytes
    rw [List.length_drop, List.length_append] at hbound
    rw [hlength] at hsecond
    exact ⟨hkind, hsecond, hne.1, hne.2, by omega, fun h => hmss ⟨h.1, by omega⟩, by omega⟩
  · intro ⟨hkind, hlength, h0, h1, hmin, hmss, hbound⟩
    have hlt := length.toNat_lt
    have hdata : ((bytes.drop (position + 2)).take (length.toNat - 2)).length =
        length.toNat - 2 := by
      rw [List.length_take, List.length_drop]
      omega
    refine ⟨(bytes.drop (position + 2)).take (length.toNat - 2), ⟨h0, h1⟩, by omega,
      fun h => hmss ⟨h.1, by omega⟩, ⟨(bytes.drop (position + 2)).drop (length.toNat - 2), ?_⟩, ?_⟩
    · simp only [TcpOption.encode, List.cons_append, List.take_append_drop]
      refine (Vec.drop_eq_cons_iff.mpr ⟨hkind, Vec.drop_eq_cons_iff.mpr ⟨?_, rfl⟩⟩).symm
      rw [hlength, hdata, Nat.sub_add_cancel hmin, UInt8.ofNat_toNat]
    · rw [hdata, Nat.sub_add_cancel hmin, UInt8.ofNat_toNat]

theorem mssAt_iff : MssAt bytes stop position k ↔
    (k = position ∧ position + 4 ≤ stop ∧ bytes[position]? = some 2 ∧
      bytes[position + 1]? = some 4) ∨
    (bytes[position]? = some 1 ∧ MssAt bytes stop (position + 1) k) ∨
    ∃ kind length, bytes[position]? = some kind ∧ bytes[position + 1]? = some length ∧
      kind ≠ 0 ∧ kind ≠ 1 ∧ 2 ≤ length.toNat ∧ ¬ (kind = 2 ∧ length.toNat = 4) ∧
      position + length.toNat ≤ bytes.length ∧ MssAt bytes stop (position + length.toNat) k := by
  rw [mssAt_iff_option]
  refine or_congr_right ⟨?_, ?_⟩
  · intro ⟨option, hoption, hnext⟩
    cases option with
    | noOperation => exact Or.inl ⟨noOperation_prefix_iff.mp hoption, hnext⟩
    | other kind data hne hdata hother =>
      obtain ⟨hkind, hlength, h0, h1, hmin, hmss, hbound⟩ :=
        exists_other_iff.mp ⟨data, hne, hdata, hother, hoption, rfl⟩
      rw [length_other] at hnext
      exact Or.inr ⟨kind, _, hkind, hlength, h0, h1, hmin, hmss, hbound, hnext⟩
  · intro h
    rcases h with ⟨hkind, hnext⟩ | ⟨kind, length, hkind, hlength, h0, h1, hmin, hmss, hbound, hnext⟩
    · exact ⟨.noOperation, noOperation_prefix_iff.mpr hkind, hnext⟩
    · obtain ⟨data, hne, hdata, hother, hoption, hsize⟩ :=
        exists_other_iff.mpr ⟨hkind, hlength, h0, h1, hmin, hmss, hbound⟩
      refine ⟨.other kind data hne hdata hother, hoption, ?_⟩
      rw [length_other, hsize]
      exact hnext

theorem mssAt_of_mss (hkind : bytes[position]? = some 2) (hlength : bytes[position + 1]? = some 4)
    (hstop : position + 4 ≤ stop) : MssAt bytes stop position k ↔ k = position := by
  rw [mssAt_iff, hkind, hlength]
  simp [hstop]

theorem mssAt_of_noOperation (hkind : bytes[position]? = some 1) :
    MssAt bytes stop position k ↔ MssAt bytes stop (position + 1) k := by
  rw [mssAt_iff, hkind]
  simp

theorem mssAt_of_other {kind length : UInt8} (hkind : bytes[position]? = some kind)
    (hlength : bytes[position + 1]? = some length) (h0 : kind ≠ 0) (h1 : kind ≠ 1)
    (hmin : 2 ≤ length.toNat) (hmss : ¬ (kind = 2 ∧ length.toNat = 4))
    (hbound : position + length.toNat ≤ bytes.length) :
    MssAt bytes stop position k ↔ MssAt bytes stop (position + length.toNat) k := by
  rw [mssAt_iff, hkind, hlength]
  constructor
  · intro h
    rcases h with ⟨_, _, h2, h4⟩ | ⟨h, _⟩ | ⟨_, _, _, hsome, _, _, _, _, _, h⟩
    · exact absurd ⟨Option.some.inj h2, congrArg UInt8.toNat (Option.some.inj h4)⟩ hmss
    · exact absurd (Option.some.inj h) h1
    · rw [Option.some.inj hsome]
      exact h
  · intro h
    exact Or.inr (Or.inr ⟨kind, length, rfl, rfl, h0, h1, hmin, hmss, hbound, h⟩)

theorem not_mssAt_of_endOfOptions (hkind : bytes[position]? = some 0) :
    ¬ MssAt bytes stop position k := by
  rw [mssAt_iff, hkind]
  simp

theorem not_mssAt_of_length {kind : UInt8} (hkind : bytes[position]? = some kind)
    (h1 : kind ≠ 1) (hlength : ∀ length, bytes[position + 1]? = some length →
      length.toNat < 2 ∨ stop < position + length.toNat) :
    ¬ MssAt bytes stop position k := by
  rw [mssAt_iff, hkind]
  intro h
  rcases h with ⟨_, hstop, _, h4⟩ | ⟨h, _⟩ | ⟨_, _, _, hsome, _, _, hmin, _, _, h⟩
  · have hbad := hlength 4 h4
    have h4 : (4 : UInt8).toNat = 4 := rfl
    omega
  · exact h1 (Option.some.inj h)
  · have hbad := hlength _ hsome
    have hbounds := h.bounds
    omega

theorem MssAt.overwrite {value : Bytes} (h : MssAt bytes stop position k)
    (hin : k + 2 + value.length ≤ bytes.length) :
    MssAt (Vec.overwrite bytes (k + 2) value) stop position k := by
  obtain ⟨options, rest, hbytes, hk, hstop⟩ := h
  have hslice := Vec.slice_overwrite_of_disjoint hin
    (show position + ((options.flatMap TcpOption.encode).length + 2) ≤ k + 2 ∨
      k + 2 + value.length ≤ position from Or.inl (by omega))
  rw [hbytes, List.take_length_add_append] at hslice
  refine ⟨options, ((Vec.overwrite bytes (k + 2) value).drop position).drop
    ((options.flatMap TcpOption.encode).length + 2), ?_, hk, hstop⟩
  have hsplit := List.take_append_drop ((options.flatMap TcpOption.encode).length + 2)
    ((Vec.overwrite bytes (k + 2) value).drop position)
  rw [hslice, List.append_assoc] at hsplit
  exact hsplit.symm

theorem value_inBounds (x : UInt16) (h : k + 4 ≤ bytes.length) :
    k + 2 + (toBeBytes x).length ≤ bytes.length := by
  rw [toBeBytes_length]
  exact h

theorem mss_overwrite (x : UInt16) (h : k + 4 ≤ bytes.length) :
    mss (Vec.overwrite bytes (k + 2) (toBeBytes x)) k = x := by
  have hin := value_inBounds x h
  have h2 := toBeBytes_length x
  rw [mss, List.getD_eq_getElem?_getD, List.getD_eq_getElem?_getD, Vec.getElem?_overwrite hin,
    Vec.getElem?_overwrite hin, if_pos (by omega), if_pos (by omega), Nat.sub_self,
    Nat.add_sub_add_left]
  exact fromBeBytes_toBeBytes x

theorem mss_eq (hhigh : k + 2 < bytes.length) (hlow : k + 3 < bytes.length) :
    mss bytes k = fromBeBytes bytes[k + 2] bytes[k + 3] := by
  simp [mss, List.getElem?_eq_getElem hhigh, List.getElem?_eq_getElem hlow]

end MssAt

namespace Packet

/-- The option at `k` is lowered to the limit. -/
def lower (p : Packet) (limit : UInt16) (k : ℕ) (h : k + 4 ≤ p.bytes.length) : Packet × Bool :=
  if mss p.bytes k ≤ limit then (p, false)
  else (p.write (k + 2) (toBeBytes limit) (value_inBounds limit h), true)

theorem clampOptions_spec (p : Packet) (limit : UInt16) (stop : ℕ) (hstop : stop ≤ p.bytes.length)
    (position : ℕ) :
    (∀ k, ¬ MssAt p.bytes stop position k) ∧
      p.clampOptions limit stop hstop position = (p, false) ∨
    ∃ k, ∃ h : k + 4 ≤ p.bytes.length, (∀ j, MssAt p.bytes stop position j ↔ j = k) ∧
      p.clampOptions limit stop hstop position = p.lower limit k h := by
  have hread : ∀ position (h : position < stop), p.bytes[position]? = some p.bytes[position] :=
    fun position h => List.getElem?_eq_getElem (h.trans_le hstop)
  fun_induction clampOptions p limit stop hstop position with
  | case1 position hposition kind hkind =>
    have hkind : p.bytes[position]? = some 0 := hkind ▸ hread position hposition
    exact Or.inl ⟨fun k => not_mssAt_of_endOfOptions hkind, rfl⟩
  | case2 position hposition kind hend hkind ih =>
    have hkind : p.bytes[position]? = some 1 := hkind ▸ hread position hposition
    simp only [mssAt_of_noOperation hkind]
    exact ih
  | case3 position hposition kind hend hnop hnone =>
    refine Or.inl ⟨fun k => not_mssAt_of_length (hread position hposition) hnop ?_, rfl⟩
    intro length hsome
    rw [hnone] at hsome
    cases hsome
  | case4 position hposition kind hend hnop length hsome hlength =>
    refine Or.inl ⟨fun k => not_mssAt_of_length (hread position hposition) hnop ?_, rfl⟩
    intro length' hsome'
    obtain rfl := Option.some.inj (hsome.symm.trans hsome')
    exact hlength
  | case5 position hposition kind hend hnop length hsome hlength hmss hle =>
    have hin : position + 4 ≤ stop := by omega
    have hkind : p.bytes[position]? = some 2 := hmss.1 ▸ hread position hposition
    have hfour : p.bytes[position + 1]? = some 4 := by
      rw [hsome, ← UInt8.ofNat_toNat (x := length), hmss.2]
      rfl
    refine Or.inr ⟨position, hin.trans hstop, fun j => mssAt_of_mss hkind hfour hin, ?_⟩
    rw [lower, mss_eq (by omega) (by omega), if_pos hle]
  | case6 position hposition kind hend hnop length hsome hlength hmss hle =>
    have hin : position + 4 ≤ stop := by omega
    have hkind : p.bytes[position]? = some 2 := hmss.1 ▸ hread position hposition
    have hfour : p.bytes[position + 1]? = some 4 := by
      rw [hsome, ← UInt8.ofNat_toNat (x := length), hmss.2]
      rfl
    refine Or.inr ⟨position, hin.trans hstop, fun j => mssAt_of_mss hkind hfour hin, ?_⟩
    rw [lower, mss_eq (by omega) (by omega), if_neg hle]
  | case7 position hposition kind hend hnop length hsome hlength hmss ih =>
    have hother : ∀ k, MssAt p.bytes stop position k ↔
        MssAt p.bytes stop (position + length.toNat) k := fun k =>
      mssAt_of_other (hread position hposition) hsome hend hnop (by omega) hmss (by omega)
    simp only [hother]
    exact ih
  | case8 position hposition =>
    refine Or.inl ⟨fun k h => ?_, rfl⟩
    have hbounds := h.bounds
    omega

/-- The packet has the whole TCP header of a SYN segment, which ends at `stop`. -/
structure Syn (p : Packet) (stop : ℕ) : Prop where
  tcp : p.protocol = protocolTcp
  first : p.isFirstFragment = true
  flag : (p.bytes.getD (p.headerLength + 13) 0) &&& 0x02 ≠ 0
  dataOffset : stop = p.headerLength + (p.bytes.getD (p.headerLength + 12) 0 >>> 4).toNat * 4
  minimum : p.headerLength + 20 ≤ stop
  inBounds : stop ≤ p.bytes.length

theorem Syn.congr {p q : Packet} {stop : ℕ} (h : p.Syn stop)
    (hlength : q.headerLength = p.headerLength) (hversion : q.version = p.version)
    (hsize : q.bytes.length = p.bytes.length)
    (hbefore : ∀ i < p.version.sourceOffset, q.bytes[i]? = p.bytes[i]?)
    (htransport : ∀ i < 20, q.bytes[p.headerLength + i]? = p.bytes[p.headerLength + i]?) :
    q.Syn stop := by
  have hread : ∀ i < 20,
      q.bytes.getD (q.headerLength + i) 0 = p.bytes.getD (p.headerLength + i) 0 := by
    intro i hi
    rw [hlength, List.getD_eq_getElem?_getD, List.getD_eq_getElem?_getD, htransport i hi]
  exact
    { tcp := (protocol_congr hversion hbefore).trans h.tcp
      first := (isFirstFragment_congr hversion hbefore).trans h.first
      flag := (hread 13 (by decide)).symm ▸ h.flag
      dataOffset := by
        rw [hread 12 (by decide), hlength]
        exact h.dataOffset
      minimum := hlength.symm ▸ h.minimum
      inBounds := h.inBounds.trans_eq hsize.symm }

theorem getElem_transport (p : Packet) {i : ℕ} (hi : i < (p.bytes.drop p.headerLength).length) :
    (p.bytes.drop p.headerLength)[i] = p.bytes.getD (p.headerLength + i) 0 := by
  rw [List.length_drop] at hi
  rw [List.getElem_drop, List.getD_eq_getElem?_getD, List.getElem?_eq_getElem, Option.getD_some]

theorem clampMss_of_syn {p : Packet} {stop : ℕ} (h : p.Syn stop) (limit : UInt16) :
    p.clampMss limit = p.clampOptions limit stop h.inBounds (p.headerLength + 20) := by
  obtain ⟨htcp, hfirst, hflag, rfl, hmin, hin⟩ := h
  have hlen : ¬ (p.bytes.drop p.headerLength).length < 20 := by
    rw [List.length_drop]
    omega
  rw [clampMss, if_neg (not_or.mpr ⟨not_not.mpr htcp, not_not.mpr hfirst⟩), dif_neg hlen,
    p.getElem_transport (show 13 < _ by omega), if_neg hflag]
  simp only [p.getElem_transport (show 12 < _ by omega), List.length_drop]
  split_ifs with hend
  · rw [clampOptions, dif_neg (by omega)]
  · rfl

theorem clampMss_of_not_syn {p : Packet} (h : ∀ stop, ¬ p.Syn stop) (limit : UInt16) :
    p.clampMss limit = (p, false) := by
  rw [clampMss]
  split_ifs with hcond
  · rfl
  rw [not_or, not_not, not_not] at hcond
  by_cases hlen : (p.bytes.drop p.headerLength).length < 20
  · rw [dif_pos hlen]
  rw [dif_neg hlen, p.getElem_transport (show 13 < _ by omega)]
  split_ifs with hflag
  · rfl
  simp only [p.getElem_transport (show 12 < _ by omega), List.length_drop]
  split_ifs with hend
  · rfl
  rw [List.length_drop] at hlen
  exact absurd ⟨hcond.1, hcond.2, hflag, rfl, by omega, by omega⟩ (h _)

/-- The first four-byte MSS option of a SYN segment begins at `k`, behind whole options. -/
def FirstMss (p : Packet) (k : ℕ) : Prop :=
  ∃ stop, p.Syn stop ∧ MssAt p.bytes stop (p.headerLength + 20) k

theorem clampMss_spec (p : Packet) (limit : UInt16) :
    (∀ k, ¬ p.FirstMss k) ∧ p.clampMss limit = (p, false) ∨
    ∃ k, ∃ h : k + 4 ≤ p.bytes.length, (∀ j, p.FirstMss j ↔ j = k) ∧
      p.clampMss limit = p.lower limit k h := by
  by_cases hsyn : ∃ stop, p.Syn stop
  · obtain ⟨stop, hsyn⟩ := hsyn
    have hfirst : ∀ k, p.FirstMss k ↔ MssAt p.bytes stop (p.headerLength + 20) k := by
      intro k
      constructor
      · intro ⟨stop', hsyn', h⟩
        rw [hsyn.dataOffset, ← hsyn'.dataOffset]
        exact h
      · exact fun h => ⟨stop, hsyn, h⟩
    simp only [hfirst, clampMss_of_syn hsyn]
    exact clampOptions_spec ..
  · rw [not_exists] at hsyn
    exact Or.inl ⟨fun k h => hsyn h.choose h.choose_spec.1, clampMss_of_not_syn hsyn limit⟩

section Lower

variable {p : Packet} {k : ℕ}

theorem FirstMss.bounds (h : p.FirstMss k) : p.headerLength + 20 ≤ k ∧ k + 4 ≤ p.bytes.length := by
  obtain ⟨stop, hsyn, h⟩ := h
  exact ⟨h.bounds.1, h.bounds.2.trans hsyn.inBounds⟩

theorem FirstMss.write (h : p.FirstMss k) {value : Bytes}
    (hin : k + 2 + value.length ≤ p.bytes.length) : (p.write (k + 2) value hin).FirstMss k := by
  have hk := h.bounds.1
  have hsource := p.sourceOffset_le_headerLength
  obtain ⟨stop, hsyn, hmss⟩ := h
  refine ⟨stop, hsyn.congr rfl rfl (Vec.overwrite_length hin) (write_before (by omega)) ?_,
    hmss.overwrite hin⟩
  intro i hi
  exact (Vec.getElem?_overwrite hin _).trans (if_neg (by omega))

theorem firstMss_write_header {start : ℕ} {written : Bytes}
    (h : start + written.length ≤ p.bytes.length) (hstart : p.version.sourceOffset ≤ start)
    (hend : start + written.length ≤ p.headerLength) :
    (p.write start written h).FirstMss k ↔ p.FirstMss k := by
  have hlength := Vec.overwrite_length h
  have hread : ∀ i, (p.write start written h).bytes[p.headerLength + i]? =
      p.bytes[p.headerLength + i]? := by
    intro i
    exact (Vec.getElem?_overwrite h _).trans (if_neg (by omega))
  have hdrop : (p.write start written h).bytes.drop (p.headerLength + 20) =
      p.bytes.drop (p.headerLength + 20) := by
    refine List.ext_getElem? fun i => ?_
    rw [List.getElem?_drop, List.getElem?_drop, Nat.add_assoc, hread]
  have hsyn : ∀ stop, (p.write start written h).Syn stop ↔ p.Syn stop := by
    intro stop
    constructor
    · intro hsyn
      exact hsyn.congr rfl rfl hlength.symm (fun i hi => (write_before hstart i hi).symm)
        fun i _ => (hread i).symm
    · intro hsyn
      exact hsyn.congr rfl rfl hlength (write_before hstart) fun i _ => hread i
  simp only [FirstMss, MssAt, hsyn]
  exact exists_congr fun stop => and_congr_right fun _ => by rw [← hdrop]; rfl

variable (limit : UInt16) (h : k + 4 ≤ p.bytes.length)

theorem lower_firstMss (hfirst : p.FirstMss k) : (p.lower limit k h).1.FirstMss k := by
  rw [lower]
  split_ifs
  · exact hfirst
  · exact hfirst.write (value_inBounds limit h)

theorem mss_lower :
    (mss (p.lower limit k h).1.bytes k).toNat = min (mss p.bytes k).toNat limit.toNat := by
  rw [lower]
  split_ifs with hle
  · exact (min_eq_left hle).symm
  · refine (congrArg UInt16.toNat (mss_overwrite limit h)).trans (min_eq_right ?_).symm
    exact (UInt16.not_le.mp hle).le

theorem lower_frame {i : ℕ} (hi : (p.lower limit k h).1.bytes[i]? ≠ p.bytes[i]?) :
    i = k + 2 ∨ i = k + 3 := by
  rw [lower] at hi
  split_ifs at hi with hle
  · exact absurd rfl hi
  · by_contra hne
    refine hi ((Vec.getElem?_overwrite (value_inBounds limit h) i).trans (if_neg ?_))
    rw [toBeBytes_length]
    omega

theorem lower_changed : (p.lower limit k h).2 = true ↔ (p.lower limit k h).1.bytes ≠ p.bytes := by
  have hmss := mss_lower (p := p) limit h
  rw [lower] at hmss ⊢
  split_ifs at hmss ⊢ with hle
  · simp
  · refine iff_of_true rfl fun heq => hle ?_
    rw [heq] at hmss
    exact UInt16.le_iff_toNat_le.mpr (by omega)

end Lower

section Frame

variable (p : Packet) (limit : UInt16)

theorem clampMss_cases : (p.clampMss limit).1 = p ∨
    ∃ k h, p.headerLength + 20 ≤ k ∧
      (p.clampMss limit).1 = p.write (k + 2) (toBeBytes limit) h := by
  rcases p.clampMss_spec limit with ⟨-, heq⟩ | ⟨k, hk, hfirst, heq⟩
  · exact Or.inl (congrArg Prod.fst heq)
  · rw [heq, lower]
    split_ifs
    · exact Or.inl rfl
    · exact Or.inr ⟨k, value_inBounds limit hk, ((hfirst k).mpr rfl).bounds.1, rfl⟩

theorem clampMss_frame {i : ℕ} (hi : (p.clampMss limit).1.bytes[i]? ≠ p.bytes[i]?) :
    ∃ k, p.FirstMss k ∧ (i = k + 2 ∨ i = k + 3) := by
  rcases p.clampMss_spec limit with ⟨-, heq⟩ | ⟨k, hk, hfirst, heq⟩
  · rw [heq] at hi
    exact absurd rfl hi
  · rw [heq] at hi
    exact ⟨k, (hfirst k).mpr rfl, lower_frame limit hk hi⟩

theorem mss_clampMss {k : ℕ} (h : p.FirstMss k) :
    (mss (p.clampMss limit).1.bytes k).toNat = min (mss p.bytes k).toNat limit.toNat := by
  rcases p.clampMss_spec limit with ⟨hnone, -⟩ | ⟨j, hj, hfirst, heq⟩
  · exact absurd h (hnone k)
  · obtain rfl := (hfirst k).mp h
    rw [heq]
    exact mss_lower limit hj

theorem parse_clampMss (hp : parse p.bytes = some p) :
    parse (p.clampMss limit).1.bytes = some (p.clampMss limit).1 := by
  have hsource := p.sourceOffset_le_headerLength
  rcases p.clampMss_cases limit with heq | ⟨k, h, hk, heq⟩
  · rw [heq, hp]
  · rw [heq]
    exact parse_write (h := h) hp (by omega)

theorem length_clampMss : (p.clampMss limit).1.bytes.length = p.bytes.length := by
  rcases p.clampMss_cases limit with heq | ⟨k, h, hk, heq⟩
  · rw [heq]
  · rw [heq]
    exact Vec.overwrite_length h

theorem source_clampMss : (p.clampMss limit).1.source = p.source := by
  have hsource := p.sourceOffset_le_headerLength
  rcases p.clampMss_cases limit with heq | ⟨k, h, hk, heq⟩
  · rw [heq]
  · rw [heq]
    exact address_write (h := h) p.version.source_inBounds (Or.inl (by omega))

theorem destination_clampMss : (p.clampMss limit).1.destination = p.destination := by
  have hdestination := p.destinationOffset_le_headerLength
  rcases p.clampMss_cases limit with heq | ⟨k, h, hk, heq⟩
  · rw [heq]
  · rw [heq]
    exact address_write (h := h) p.version.destination_inBounds (Or.inl (by omega))

theorem ports_clampMss : (p.clampMss limit).1.ports = p.ports := by
  have hsource := p.sourceOffset_le_headerLength
  rcases p.clampMss_cases limit with heq | ⟨k, h, hk, heq⟩
  · rw [heq]
  · rw [heq]
    exact ports_write (h := h) (by omega) (Or.inr (by omega))

end Frame

/-- `clamp_mss` never reads or writes outside the packet. It changes at most the value of the
first MSS option of a SYN segment, and lowers it to the limit. -/
theorem clampMss_lowers (bytes : Bytes) (packet : Packet) (limit : UInt16)
    (h : parse bytes = some packet) :
    Buffer.clampMss bytes packet.headerLength packet.version limit =
      .ok ((packet.clampMss limit).1.bytes, (packet.clampMss limit).2) ∧
    parse (packet.clampMss limit).1.bytes = some (packet.clampMss limit).1 ∧
    (∀ i, (packet.clampMss limit).1.bytes[i]? ≠ bytes[i]? →
      ∃ k, packet.FirstMss k ∧ (i = k + 2 ∨ i = k + 3)) ∧
    (∀ j k, packet.FirstMss j → packet.FirstMss k → j = k) ∧
    (∀ k, packet.FirstMss k → (packet.clampMss limit).1.FirstMss k ∧
      (mss (packet.clampMss limit).1.bytes k).toNat = min (mss bytes k).toNat limit.toNat) ∧
    ((packet.clampMss limit).2 = true ↔ (packet.clampMss limit).1.bytes ≠ bytes) ∧
    (packet.clampMss limit).1.clampMss limit = ((packet.clampMss limit).1, false) := by
  obtain rfl : packet.bytes = bytes := (parse_eq_some_iff.mp h).1
  refine ⟨packet.checked_clampMss limit, packet.parse_clampMss limit h,
    fun i => packet.clampMss_frame limit, ?_⟩
  rcases packet.clampMss_spec limit with ⟨hnone, heq⟩ | ⟨k, hk, hfirst, heq⟩
  · rw [heq]
    refine ⟨fun j k hj => absurd hj (hnone j), fun k hk => absurd hk (hnone k), ?_, heq⟩
    simp
  · have hlow := lower_firstMss limit hk ((hfirst k).mpr rfl)
    rw [heq]
    refine ⟨?_, ?_, lower_changed limit hk, ?_⟩
    · intro i j hi hj
      rw [(hfirst i).mp hi, (hfirst j).mp hj]
    · intro j hj
      obtain rfl := (hfirst j).mp hj
      exact ⟨hlow, mss_lower limit hk⟩
    · -- the option of the clamped packet is within the limit
      rcases (packet.lower limit k hk).1.clampMss_spec limit with
        ⟨hnone, -⟩ | ⟨j, hj, hsecond, hagain⟩
      · exact absurd hlow (hnone k)
      · obtain rfl := (hsecond k).mp hlow
        rw [hagain, lower, if_pos]
        rw [UInt16.le_iff_toNat_le, mss_lower]
        exact min_le_right ..

def sampleSyn : Bytes :=
  [0x45, 0, 0, 48, 0, 1, 0, 0, 64, 6, 0, 0, 192, 168, 0, 189, 1, 1, 1, 1] ++
  [0xd4, 0xf6, 0x01, 0xbb, 0, 0, 0, 1, 0, 0, 0, 0, 0x70, 0x02, 0xff, 0xff, 0, 0, 0, 0] ++
  [1, 1, 2, 4, 0x05, 0xb4, 4, 2]

def synPacket : Packet := ⟨sampleSyn, 20, .v4, by decide, by decide⟩

theorem synPacket_lowered :
    parse sampleSyn = some synPacket ∧ synPacket.FirstMss 42 ∧
    (mss (synPacket.clampMss 1240).1.bytes 42).toNat = 1240 := by
  have hparse : parse sampleSyn = some synPacket := by decide
  have hfirst : synPacket.FirstMss 42 :=
    ⟨48, ⟨by decide, by decide, by decide, by decide, by decide, by decide⟩,
      [.noOperation, .noOperation], [0x05, 0xb4, 4, 2], by decide, by decide, by decide⟩
  have hmin : min (mss sampleSyn 42).toNat (1240 : UInt16).toNat = 1240 := by decide
  obtain ⟨-, -, -, -, hlowers, -, -⟩ := clampMss_lowers sampleSyn synPacket 1240 hparse
  exact ⟨hparse, hfirst, (hlowers 42 hfirst).2.trans hmin⟩

end Packet

end MouseVpn.Windows
