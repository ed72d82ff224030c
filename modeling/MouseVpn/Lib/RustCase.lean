import MouseVpn.Lib.RustStr

/-!
# `str::to_lowercase`

Every character is replaced by its lower-case mapping, which may be longer and may have another
length in UTF-8. The capital sigma depends on the characters around it. The tables of the
Unicode standard are a parameter, of which a few facts about ASCII are used.
-/

namespace MouseVpn.Lib

/-- The tables for case conversion. Outside ASCII, only the Kelvin sign and the dotted capital I
are mapped to letters of ASCII. -/
structure CaseTables where
  lower : Char → Str
  cased : Char → Bool
  caseIgnorable : Char → Bool
  lower_ascii : ∀ c, c.val.toNat < 128 → lower c = [c.toLower]
  lower_not_ascii : ∀ c, 128 ≤ c.val.toNat →
    lower c = ['k'] ∨ lower c = ['i', '\u0307'] ∨ lower c ≠ [] ∧ ∀ d ∈ lower c, 128 ≤ d.val.toNat
  cased_ascii : ∀ c, c.val.toNat < 128 → cased c = c.isAlpha
  caseIgnorable_ascii : ∀ c, c.val.toNat < 128 →
    caseIgnorable c = decide (c.val.toNat ∈ [0x27, 0x2E, 0x3A, 0x5E, 0x60])

namespace CaseTables

variable (t : CaseTables)

def caseIgnorableThenCased (s : Str) : Bool :=
  match s.dropWhile t.caseIgnorable with
  | [] => false
  | c :: _ => t.cased c

def lowerAt (before : Str) (c : Char) (after : Str) : Str :=
  if c = 'Σ' then
    if t.caseIgnorableThenCased before && !t.caseIgnorableThenCased after then ['ς'] else ['σ']
  else t.lower c

def lowerWithin (before : Str) : Str → Str → Str
  | [], _ => []
  | c :: s, after => t.lowerAt before c (s ++ after) ++ lowerWithin (c :: before) s after

def toLowercase (s : Str) : Str := t.lowerWithin [] s []

theorem lowerWithin_append (before s r after : Str) :
    t.lowerWithin before (s ++ r) after =
      t.lowerWithin before s (r ++ after) ++ t.lowerWithin (s.reverse ++ before) r after := by
  induction s generalizing before with
  | nil => rfl
  | cons c s ih => simp [lowerWithin, ih]

theorem toNat_toLower (c : Char) : c.toLower.val.toNat =
    if 65 ≤ c.val.toNat ∧ c.val.toNat ≤ 90 then c.val.toNat + 32 else c.val.toNat := by
  have hA : 'A'.val.toNat = 65 := rfl
  have hZ : 'Z'.val.toNat = 90 := rfl
  have hdiff : ('a'.val - 'A'.val).toNat = 32 := rfl
  delta Char.toLower
  split_ifs with h hcond hcond
  · rw [UInt32.toNat_add, hdiff]
    omega
  · rw [ge_iff_le, UInt32.le_iff_toNat_le, UInt32.le_iff_toNat_le, hA, hZ] at h
    exact absurd h hcond
  · rw [ge_iff_le, UInt32.le_iff_toNat_le, UInt32.le_iff_toNat_le, hA, hZ] at h
    exact absurd hcond h
  · rfl

theorem toLower_of_not_ascii {c d : Char} (hd : 128 ≤ d.val.toNat) : c.toLower = d ↔ c = d := by
  have h := toNat_toLower c
  constructor
  · intro heq
    rw [heq] at h
    refine Char.ext (UInt32.toNat_inj.mp ?_)
    split_ifs at h <;> omega
  · intro heq
    rw [heq] at h ⊢
    refine Char.ext (UInt32.toNat_inj.mp ?_)
    split_ifs at h <;> omega

theorem toLower_ascii_iff (c : Char) : c.toLower.val.toNat < 128 ↔ c.val.toNat < 128 := by
  rw [toNat_toLower]
  split_ifs <;> omega

theorem toLower_toLower (c : Char) : c.toLower.toLower = c.toLower := by
  refine Char.ext (UInt32.toNat_inj.mp ?_)
  rw [toNat_toLower c.toLower, toNat_toLower c]
  split_ifs <;> omega

theorem isAlpha_iff (c : Char) : c.isAlpha = true ↔
    65 ≤ c.val.toNat ∧ c.val.toNat ≤ 90 ∨ 97 ≤ c.val.toNat ∧ c.val.toNat ≤ 122 := by
  delta Char.isAlpha Char.isUpper Char.isLower
  simp only [Bool.or_eq_true, Bool.and_eq_true, decide_eq_true_eq, ge_iff_le,
    UInt32.le_iff_toNat_le]
  rfl

theorem isAlpha_toLower (c : Char) : c.toLower.isAlpha = c.isAlpha := by
  rw [Bool.eq_iff_iff, isAlpha_iff, isAlpha_iff, toNat_toLower]
  split_ifs <;> omega

theorem apply_toLower {α : Type} {f : Char → α}
    (h : ∀ c : Char, c.val.toNat < 128 → f c.toLower = f c) (c : Char) : f c.toLower = f c := by
  by_cases hc : c.val.toNat < 128
  · exact h c hc
  · rw [(toLower_of_not_ascii (Nat.le_of_not_lt hc)).mpr rfl]

theorem lower_toLower (c : Char) : t.lower c.toLower = t.lower c :=
  apply_toLower (fun c hc => by
    rw [t.lower_ascii c hc, t.lower_ascii _ ((toLower_ascii_iff c).mpr hc), toLower_toLower]) c

theorem cased_toLower (c : Char) : t.cased c.toLower = t.cased c :=
  apply_toLower (fun c hc => by
    rw [t.cased_ascii c hc, t.cased_ascii _ ((toLower_ascii_iff c).mpr hc), isAlpha_toLower]) c

theorem caseIgnorable_toLower (c : Char) : t.caseIgnorable c.toLower = t.caseIgnorable c := by
  refine apply_toLower (fun c hc => ?_) c
  rw [t.caseIgnorable_ascii c hc, t.caseIgnorable_ascii _ ((toLower_ascii_iff c).mpr hc),
    decide_eq_decide, toNat_toLower]
  simp only [List.mem_cons, List.not_mem_nil, or_false]
  split_ifs <;> omega

theorem caseIgnorableThenCased_congr {s s' : Str} (h : s.map Char.toLower = s'.map Char.toLower) :
    t.caseIgnorableThenCased s = t.caseIgnorableThenCased s' := by
  induction s generalizing s' with
  | nil =>
    rw [List.map_nil, eq_comm, List.map_eq_nil_iff] at h
    rw [h]
  | cons c s ih =>
    cases s' with
    | nil => cases h
    | cons c' s' =>
      rw [List.map_cons, List.map_cons, List.cons.injEq] at h
      have hcased : t.cased c = t.cased c' := by
        rw [← t.cased_toLower c, h.1, t.cased_toLower]
      have hignorable : t.caseIgnorable c = t.caseIgnorable c' := by
        rw [← t.caseIgnorable_toLower c, h.1, t.caseIgnorable_toLower]
      have hrest := ih h.2
      rw [caseIgnorableThenCased, caseIgnorableThenCased] at hrest ⊢
      rw [List.dropWhile_cons, List.dropWhile_cons, hignorable]
      split_ifs
      · exact hrest
      · exact hcased

theorem lowerAt_congr {before before' after after' : Str} {c c' : Char}
    (hbefore : before.map Char.toLower = before'.map Char.toLower) (hc : c.toLower = c'.toLower)
    (hafter : after.map Char.toLower = after'.map Char.toLower) :
    t.lowerAt before c after = t.lowerAt before' c' after' := by
  have hsigma : 128 ≤ 'Σ'.val.toNat := by decide
  have hiff : c = 'Σ' ↔ c' = 'Σ' := by
    rw [← toLower_of_not_ascii hsigma, hc, toLower_of_not_ascii hsigma]
  have hlower : t.lower c = t.lower c' := by
    rw [← t.lower_toLower c, hc, t.lower_toLower]
  simp only [lowerAt, hiff, t.caseIgnorableThenCased_congr hbefore,
    t.caseIgnorableThenCased_congr hafter, hlower]

theorem lowerWithin_congr {before before' s s' after after' : Str}
    (hbefore : before.map Char.toLower = before'.map Char.toLower)
    (h : s.map Char.toLower = s'.map Char.toLower)
    (hafter : after.map Char.toLower = after'.map Char.toLower) :
    t.lowerWithin before s after = t.lowerWithin before' s' after' := by
  induction s generalizing before before' s' with
  | nil =>
    rw [List.map_nil, eq_comm, List.map_eq_nil_iff] at h
    rw [h]
    rfl
  | cons c s ih =>
    cases s' with
    | nil => cases h
    | cons c' s' =>
      rw [List.map_cons, List.map_cons, List.cons.injEq] at h
      have hnext : (c :: before).map Char.toLower = (c' :: before').map Char.toLower := by
        rw [List.map_cons, List.map_cons, hbefore, h.1]
      have hrest : (s ++ after).map Char.toLower = (s' ++ after').map Char.toLower := by
        rw [List.map_append, List.map_append, h.2, hafter]
      rw [lowerWithin, lowerWithin, ih hnext h.2, t.lowerAt_congr hbefore h.1 hrest]

theorem toLowercase_of_eqIgnoreAsciiCase {s s' : Str} (h : s.eqIgnoreAsciiCase s' = true) :
    t.toLowercase s = t.toLowercase s' :=
  t.lowerWithin_congr rfl (of_decide_eq_true h) rfl

theorem lowerAt_ascii {c : Char} (h : c.val.toNat < 128) (before after : Str) :
    t.lowerAt before c after = [c.toLower] := by
  have hne : c ≠ 'Σ' := by
    intro heq
    rw [heq] at h
    exact absurd h (by decide)
  rw [lowerAt, if_neg hne, t.lower_ascii c h]

theorem lowerWithin_ascii {s : Str} (h : s.isAscii = true) (before after : Str) :
    t.lowerWithin before s after = s.map Char.toLower := by
  induction s generalizing before with
  | nil => rfl
  | cons c s ih =>
    rw [Str.isAscii, List.all_cons, Bool.and_eq_true, decide_eq_true_eq] at h
    rw [lowerWithin, t.lowerAt_ascii h.1, ih h.2, List.map_cons, List.singleton_append]

theorem toLowercase_ascii {s : Str} (h : s.isAscii = true) :
    t.toLowercase s = s.map Char.toLower :=
  t.lowerWithin_ascii h [] []

theorem isAscii_map_toLower (s : Str) : Str.isAscii (s.map Char.toLower) = s.isAscii := by
  simp only [Str.isAscii, List.all_map]
  refine congrArg (s.all ·) (funext fun c => ?_)
  exact decide_eq_decide.mpr (toLower_ascii_iff c)

theorem mem_toLowercase {s : Str} {c : Char} (hc : c.val.toNat < 128) (h : c ∈ s) :
    c.toLower ∈ t.toLowercase s := by
  obtain ⟨before, after, rfl⟩ := List.append_of_mem h
  rw [toLowercase, lowerWithin_append, lowerWithin, t.lowerAt_ascii hc]
  simp

theorem caseIgnorableThenCased_append {c : Char} (hcased : t.cased c = false)
    (hignorable : t.caseIgnorable c = false) (s after : Str) :
    t.caseIgnorableThenCased (s ++ c :: after) = t.caseIgnorableThenCased s := by
  induction s with
  | nil => simp [caseIgnorableThenCased, hignorable, hcased]
  | cons d s ih =>
    rw [caseIgnorableThenCased, caseIgnorableThenCased] at ih ⊢
    rw [List.cons_append, List.dropWhile_cons, List.dropWhile_cons]
    split_ifs
    · exact ih
    · rfl

theorem lowerWithin_cut {c : Char} (hcased : t.cased c = false)
    (hignorable : t.caseIgnorable c = false) (before s after : Str) :
    t.lowerWithin before s (c :: after) = t.lowerWithin before s [] := by
  induction s generalizing before with
  | nil => rfl
  | cons d s ih =>
    rw [lowerWithin, lowerWithin, ih, lowerAt, lowerAt, List.append_nil,
      t.caseIgnorableThenCased_append hcased hignorable]

theorem lowerAt_cases (before : Str) (c : Char) (after : Str) :
    t.lowerAt before c after = [c.toLower] ∨ t.lowerAt before c after = ['k'] ∨
      t.lowerAt before c after = ['i', '\u0307'] ∨
      t.lowerAt before c after ≠ [] ∧ ∀ d ∈ t.lowerAt before c after, 128 ≤ d.val.toNat := by
  by_cases hc : c.val.toNat < 128
  · exact .inl (t.lowerAt_ascii hc before after)
  · refine .inr ?_
    rw [lowerAt]
    split_ifs with hsigma hfinal
    · exact .inr (.inr ⟨List.cons_ne_nil _ _, List.forall_mem_singleton.mpr (by decide)⟩)
    · exact .inr (.inr ⟨List.cons_ne_nil _ _, List.forall_mem_singleton.mpr (by decide)⟩)
    · exact t.lower_not_ascii c (Nat.le_of_not_lt hc)

theorem lowerAt_of_mem {before after : Str} {c a : Char} (h : a ∈ t.lowerAt before c after)
    (ha : a.val.toNat < 128) (hk : a ≠ 'k') (hi : a ≠ 'i') :
    t.lowerAt before c after = [c.toLower] := by
  rcases t.lowerAt_cases before c after with heq | heq | heq | ⟨-, hlarge⟩
  · exact heq
  · rw [heq, List.mem_singleton] at h
    exact absurd h hk
  · rw [heq] at h
    rcases List.mem_pair.mp h with rfl | rfl
    · exact absurd rfl hi
    · exact absurd ha (by decide)
  · exact absurd (hlarge a h) (by omega)

structure Plain (p : Str) : Prop where
  ascii : p.isAscii = true
  no_kelvin : 'k' ∉ p
  no_dotted : p.getLast? ≠ some 'i'

theorem Plain.tail {a : Char} {p : Str} (h : Plain (a :: p)) : Plain p := by
  have hascii := h.ascii
  rw [Str.isAscii, List.all_cons, Bool.and_eq_true] at hascii
  refine ⟨hascii.2, fun hk => h.no_kelvin (List.mem_cons_of_mem a hk), fun hlast => ?_⟩
  cases p with
  | nil => cases hlast
  | cons b p => exact h.no_dotted (by rwa [List.getLast?_cons_cons])

theorem Plain.head {a : Char} {p : Str} (h : Plain (a :: p)) : a.val.toNat < 128 := by
  have hascii := h.ascii
  rw [Str.isAscii, List.all_cons, Bool.and_eq_true, decide_eq_true_eq] at hascii
  exact hascii.1

theorem exists_of_lowerWithin_append {p : Str} (hp : Plain p) {before s after y : Str}
    (h : t.lowerWithin before s after = p ++ y) :
    ∃ m rest, s = m ++ rest ∧ m.map Char.toLower = p := by
  induction p generalizing before s with
  | nil => exact ⟨[], s, rfl, rfl⟩
  | cons a p ih =>
    cases s with
    | nil => cases h
    | cons c s =>
      rw [lowerWithin] at h
      rcases t.lowerAt_cases before c (s ++ after) with heq | heq | heq | ⟨hne, hlarge⟩
      · rw [heq, List.singleton_append, List.cons_append, List.cons.injEq] at h
        obtain ⟨m, rest, hs, hm⟩ := ih hp.tail h.2
        exact ⟨c :: m, rest, by rw [hs, List.cons_append], by rw [List.map_cons, h.1, hm]⟩
      · rw [heq, List.singleton_append, List.cons_append, List.cons.injEq] at h
        exact absurd (List.mem_cons.mpr (.inl h.1)) hp.no_kelvin
      · -- the letter i is followed by the dot above, which is not in ASCII
        rw [heq, List.cons_append, List.cons_append, List.cons_append, List.cons.injEq] at h
        cases p with
        | nil => exact absurd (congrArg some h.1.symm) hp.no_dotted
        | cons b p =>
          have hb := hp.tail.head
          rw [← (List.cons.inj h.2).1] at hb
          exact absurd hb (by decide)
      · obtain ⟨d, block, hblock⟩ := List.exists_cons_of_ne_nil hne
        rw [hblock, List.cons_append, List.cons_append, List.cons.injEq] at h
        have hd := hlarge d (by rw [hblock]; exact List.mem_cons_self)
        rw [h.1] at hd
        exact absurd hp.head (by omega)

theorem exists_of_infix_lowerWithin {a : Char} {p : Str} (hp : Plain (a :: p)) (hi : a ≠ 'i')
    {before s after x y : Str} (h : t.lowerWithin before s after = x ++ (a :: p ++ y)) :
    ∃ m, m.map Char.toLower = a :: p ∧ m <:+: s := by
  induction s generalizing before x with
  | nil => exact absurd h (by simp [lowerWithin])
  | cons c s ih =>
    have hwhole := h
    rw [lowerWithin, List.append_eq_append_iff] at h
    rcases h with ⟨x', -, hrest⟩ | ⟨block, hblock, hrest⟩
    · obtain ⟨m, hm, hwithin⟩ := ih hrest
      exact ⟨m, hm, hwithin.trans (List.suffix_cons c s).isInfix⟩
    · cases block with
      | nil =>
        obtain ⟨m, hm, hwithin⟩ := ih (x := []) hrest.symm
        exact ⟨m, hm, hwithin.trans (List.suffix_cons c s).isInfix⟩
      | cons d block =>
        -- the occurrence begins in what `c` is mapped to, so it begins with `c` itself
        have hd : a = d := (List.cons.inj hrest).1
        subst hd
        have hmem : a ∈ t.lowerAt before c (s ++ after) := by
          rw [hblock]
          exact List.mem_append_right x List.mem_cons_self
        have hk : a ≠ 'k' := fun hk => hp.no_kelvin (hk ▸ List.mem_cons_self)
        rw [t.lowerAt_of_mem hmem hp.head hk hi, eq_comm, List.append_eq_singleton_iff] at hblock
        obtain ⟨hx, -⟩ | ⟨-, hblock⟩ := hblock
        · rw [hx, List.nil_append] at hwhole
          obtain ⟨m, rest, hs, hm⟩ := t.exists_of_lowerWithin_append hp hwhole
          exact ⟨m, hm, hs ▸ (List.prefix_append m rest).isInfix⟩
        · cases hblock

theorem infix_toLowercase_iff {a : Char} {p : Str} (hp : Plain (a :: p)) (hi : a ≠ 'i')
    (s : Str) :
    a :: p <:+: t.toLowercase s ↔ ∃ m, m.map Char.toLower = a :: p ∧ m <:+: s := by
  constructor
  · intro h
    obtain ⟨x, y, hxy⟩ := h
    rw [List.append_assoc] at hxy
    exact t.exists_of_infix_lowerWithin hp hi hxy.symm
  · intro h
    obtain ⟨m, hm, x, y, rfl⟩ := h
    have hascii : Str.isAscii m = true := by rw [← isAscii_map_toLower, hm, hp.ascii]
    rw [toLowercase, lowerWithin_append, lowerWithin_append, t.lowerWithin_ascii hascii, hm]
    exact ⟨_, _, rfl⟩

end CaseTables

end MouseVpn.Lib
