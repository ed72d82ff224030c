import MouseVpn.Lib.RustCase
import MouseVpn.Windows.Classifier
import Mathlib.Data.List.Infix

/-!
# Packages of the store

The directory of a package from the store is found by the component `WindowsApps` of a path.
The component is searched for in the lower-case path, and the offset that was found there is
used in the path itself.
-/

namespace MouseVpn.Gui

open MouseVpn.Lib MouseVpn.Windows

def marker : Str := ['\\', 'w', 'i', 'n', 'd', 'o', 'w', 's', 'a', 'p', 'p', 's', '\\']

def packageName (packageDirectory : Str) : Option Str :=
  let parts := packageDirectory.split '_'
  if parts.length < 5 then none else some (['_'].intercalate (parts.take (parts.length - 4)))

section Parsing

variable (t : CaseTables)

def normalizedRelativePath (path : Str) : Str :=
  t.toLowercase ((path.replace '/' '\\').trimStartMatches '\\')

def afterMarker (path : Str) : Except (Fault String) (Option Str) :=
  let value := (normalizeWindowsPath path).replace '/' '\\'
  let lowercase := t.toLowercase value
  match lowercase.find marker with
  | none => .ok none
  | some found => (value.sliceFrom (found + marker.len)).map some

def identityOf (rest : Str) : Option (Str × Str) := do
  let (packageDirectory, relativePath) ← rest.splitOnce '\\'
  let name ← packageName packageDirectory
  if name ≠ [] ∧ relativePath ≠ [] then some (name, normalizedRelativePath t relativePath)
  else none

def familyOf (rest : Str) : Option Str := do
  let (packageDirectory, _) ← rest.splitOnce '\\'
  let name ← packageName packageDirectory
  let publisherId ← (packageDirectory.split '_').getLast?
  if name ≠ [] ∧ publisherId ≠ [] then some (name ++ '_' :: publisherId) else none

def windowsappsIdentity (path : Str) : Except (Fault String) (Option (Str × Str)) :=
  (afterMarker t path).map fun rest => rest.bind (identityOf t)

def windowsappsPackageFamily (path : Str) : Except (Fault String) (Option Str) :=
  (afterMarker t path).map fun rest => rest.bind familyOf

end Parsing

def HasComponent (value : Str) : Prop :=
  ∃ component : Str, component.map Char.toLower = marker ∧ component <:+: value

theorem slash_not_mem_normalize (path : Str) : '/' ∉ normalizeWindowsPath path := by
  have hvalue : '/' ∉ path.replace '/' '\\' := Str.not_mem_replace (by decide) path
  have hstrip : ∀ start rest,
      (path.replace '/' '\\').stripPrefix start = some rest → '/' ∉ rest := by
    intro start rest h hmem
    rw [Str.stripPrefix] at h
    split_ifs at h
    rw [← Option.some.inj h] at hmem
    exact hvalue (List.mem_of_mem_drop hmem)
  simp only [normalizeWindowsPath]
  split
  case h_1 rest h => simpa using hstrip _ rest h
  case h_2 =>
    split
    case h_1 rest h => exact hstrip _ rest h
    case h_2 => exact hvalue

theorem exists_normalize_eq {value : Str} (h : '/' ∉ value) :
    ∃ path, normalizeWindowsPath path = value := by
  by_cases hunc : ['U', 'N', 'C', '\\'] <+: value
  · -- such a value must not get the marker of an extended path, which would make it a share
    obtain ⟨rest, rfl⟩ := hunc
    refine ⟨['U', 'N', 'C', '\\'] ++ rest, ?_⟩
    rw [normalizeWindowsPath, Str.replace_of_not_mem _ h]
    simp [Str.stripPrefix]
  · have hslash : '/' ∉ ['\\', '\\', '?', '\\'] ++ value := by
      rw [List.mem_append, not_or]
      exact ⟨by decide, h⟩
    refine ⟨['\\', '\\', '?', '\\'] ++ value, ?_⟩
    rw [normalizeWindowsPath, Str.replace_of_not_mem _ hslash]
    simp [Str.stripPrefix, hunc]

theorem component_ascii {component : Str} (h : component.map Char.toLower = marker) :
    component.isAscii = true := by
  rw [← CaseTables.isAscii_map_toLower, h]
  decide

theorem component_len {component : Str} (h : component.map Char.toLower = marker) :
    component.len = marker.len := by
  have hlength := congrArg List.length h
  rw [List.length_map] at hlength
  rw [Str.len_of_isAscii (component_ascii h), hlength]
  rfl

theorem component_cons {component : Str} (h : component.map Char.toLower = marker) :
    ∃ rest, component = '\\' :: rest := by
  cases component with
  | nil => cases h
  | cons c component =>
    have hc : c.toLower = '\\' := (List.cons.inj h).1
    have hval := CaseTables.toNat_toLower c
    rw [hc] at hval
    have hback : '\\'.val.toNat = 92 := rfl
    refine ⟨component, congrArg (· :: component) (Char.ext (UInt32.toNat_inj.mp ?_))⟩
    split_ifs at hval <;> omega

section Searching

variable (t : CaseTables)

theorem toLowercase_append_backslash (s after : Str) :
    t.toLowercase (s ++ '\\' :: after) =
      t.toLowercase s ++ t.lowerWithin s.reverse ('\\' :: after) [] := by
  have hcased : t.cased '\\' = false := by
    rw [t.cased_ascii _ (by decide)]
    decide
  have hignorable : t.caseIgnorable '\\' = false := by
    rw [t.caseIgnorable_ascii _ (by decide)]
    decide
  rw [CaseTables.toLowercase, t.lowerWithin_append, List.append_nil, List.append_nil,
    t.lowerWithin_cut hcased hignorable]
  rfl

theorem marker_infix_iff (value : Str) : marker <:+: t.toLowercase value ↔ HasComponent value :=
  t.infix_toLowercase_iff ⟨by decide, by decide, by decide⟩ (by decide) value

theorem find_marker_of_first {pre component : Str} (h : component.map Char.toLower = marker)
    (hfirst : ¬ HasComponent (pre ++ marker.dropLast)) (post : Str) :
    (t.toLowercase (pre ++ component ++ post)).find marker = some (t.toLowercase pre).len := by
  obtain ⟨rest, hrest⟩ := component_cons h
  have hsplit : t.toLowercase (pre ++ component ++ post) =
      t.toLowercase pre ++
        (marker ++ t.lowerWithin (component.reverse ++ pre.reverse) post []) := by
    rw [List.append_assoc, hrest, List.cons_append, toLowercase_append_backslash,
      ← List.cons_append, ← hrest, t.lowerWithin_append, t.lowerWithin_ascii (component_ascii h), h]
  rw [hsplit]
  refine Str.find_of_first _ (by decide) fun hearlier => hfirst ((marker_infix_iff t _).mp ?_)
  have hdrop : marker.dropLast = '\\' :: marker.dropLast.tail := rfl
  rw [hdrop, toLowercase_append_backslash, t.lowerWithin_ascii (by decide)]
  exact hearlier

theorem afterMarker_of_first {path pre component post : Str}
    (h : component.map Char.toLower = marker)
    (hfirst : ¬ HasComponent (pre ++ marker.dropLast))
    (hpath : normalizeWindowsPath path = pre ++ component ++ post) :
    afterMarker t path =
      ((pre ++ component ++ post).sliceFrom ((t.toLowercase pre).len + marker.len)).map some := by
  simp only [afterMarker, Str.replace_of_not_mem _ (slash_not_mem_normalize path)]
  rw [hpath, find_marker_of_first t h hfirst]

theorem afterMarker_of_not {path : Str} (h : ¬ HasComponent (normalizeWindowsPath path)) :
    afterMarker t path = .ok none := by
  have hnone : (t.toLowercase (normalizeWindowsPath path)).find marker = none := by
    rw [Str.find_eq_none_iff, marker_infix_iff]
    exact h
  simp only [afterMarker, Str.replace_of_not_mem _ (slash_not_mem_normalize path), hnone]

end Searching

def samplePackage : Str := ['A', '_', '1', '_', 'x', '_', 'y', '_', 'p', '\\', 'b']

theorem samplePackage_tails : ∀ rest ∈ samplePackage.tails,
    (Str.splitOnce rest '\\').bind (fun p => packageName p.1) = some ['A'] →
      rest = samplePackage := by
  decide

section Relative

variable (t : CaseTables)

theorem identityOf_eq_some {rest name relative : Str}
    (h : identityOf t rest = some (name, relative)) :
    ∃ directory path, rest.splitOnce '\\' = some (directory, path) ∧
      packageName directory = some name ∧ relative = normalizedRelativePath t path := by
  rw [identityOf] at h
  obtain ⟨⟨directory, path⟩, hsplit, h⟩ := Option.bind_eq_some_iff.mp h
  obtain ⟨name', hname, h⟩ := Option.bind_eq_some_iff.mp h
  split_ifs at h
  rw [Option.some.injEq, Prod.mk.injEq] at h
  exact ⟨directory, path, hsplit, h.1 ▸ hname, h.2.symm⟩

theorem identityOf_samplePackage : identityOf t samplePackage = some (['A'], ['b']) := by
  have hb : normalizedRelativePath t ['b'] = ['b'] := t.toLowercase_ascii (by decide)
  have hsplit : samplePackage.splitOnce '\\' =
    some (['A', '_', '1', '_', 'x', '_', 'y', '_', 'p'], ['b']) := by decide
  have hname : packageName ['A', '_', '1', '_', 'x', '_', 'y', '_', 'p'] = some ['A'] := by decide
  simp [identityOf, hsplit, hname, hb]

theorem underscore_mem_normalizedRelativePath {path : Str} (h : '_' ∈ path) :
    '_' ∈ normalizedRelativePath t path := by
  have hvalue : '_' ∈ path.replace '/' '\\' := List.mem_map.mpr ⟨'_', h, by decide⟩
  refine t.mem_toLowercase (c := '_') (by decide) ?_
  rw [← List.takeWhile_append_dropWhile (p := (· = '\\')) (l := path.replace '/' '\\'),
    List.mem_append] at hvalue
  rcases hvalue with hmem | hmem
  · exact absurd (List.mem_takeWhile_imp hmem) (by decide)
  · exact hmem

theorem identityOf_longer {d : Str} (h : '\\' ∈ d) :
    identityOf t (d ++ samplePackage) ≠ some (['A'], ['b']) := by
  intro hsome
  obtain ⟨directory, path, hsplit, -, hrelative⟩ := identityOf_eq_some t hsome
  rw [Str.splitOnce_append h, Option.map_eq_some_iff] at hsplit
  obtain ⟨⟨first, second⟩, -, heq⟩ := hsplit
  have hpath : second ++ samplePackage = path := (Prod.mk.inj heq).2
  have hmem : '_' ∈ normalizedRelativePath t path := by
    rw [← hpath]
    exact underscore_mem_normalizedRelativePath t (List.mem_append_right second (by decide))
  rw [← hrelative] at hmem
  exact absurd hmem (by decide)

theorem len_of_identity {pre : Str} {start : ℕ}
    (h : ((pre ++ marker ++ samplePackage).sliceFrom start).map (fun rest => identityOf t rest) =
      (.ok (some (['A'], ['b'])) : Except (Fault String) _)) :
    start = (pre ++ marker).len := by
  cases hslice :
      (Str.sliceFrom (pre ++ marker ++ samplePackage) start : Except (Fault String) Str) with
  | error e =>
    rw [hslice] at h
    cases h
  | ok rest =>
    rw [hslice] at h
    have hidentity : identityOf t rest = some (['A'], ['b']) := Except.ok.inj h
    obtain ⟨before, hvalue, hlen⟩ := Str.eq_append_of_sliceFrom hslice
    rw [← hlen]
    rcases List.append_eq_append_iff.mp hvalue with ⟨d, hbefore, hrest⟩ | ⟨d, hbefore, hrest⟩
    · -- the slice starts inside the rest
      obtain ⟨directory, path, hsplit, hname, -⟩ := identityOf_eq_some t hidentity
      have htail : rest ∈ samplePackage.tails := (List.mem_tails _ _).mpr ⟨d, hrest.symm⟩
      have hwhole := samplePackage_tails rest htail (by rw [hsplit, Option.bind_some, hname])
      have hd : d = [] := by
        rw [hwhole] at hrest
        exact List.self_eq_append_left.mp hrest
      rw [hbefore, hd, List.append_nil]
    · -- the slice starts in the component or before it, where a separator follows
      by_cases hd : d = []
      · rw [hbefore, hd, List.append_nil]
      · have hmem : '\\' ∈ d := by
          have hlast := congrArg List.getLast? hbefore
          rw [List.getLast?_append_of_ne_nil _ hd] at hlast
          refine List.mem_of_getLast? (hlast.symm.trans ?_)
          rw [List.getLast?_append_of_ne_nil _ (by decide)]
          rfl
        rw [hrest] at hidentity
        exact absurd hidentity (identityOf_longer t hmem)

end Relative

def sampleLower (c : Char) : Str :=
  if c = 'İ' then ['i', '\u0307'] else if c = '\u212A' then ['k'] else
    if c = 'É' then ['é'] else [c.toLower]

theorem sampleLower_of_ascii {c : Char} (h : c.val.toNat < 128) : sampleLower c = [c.toLower] := by
  have hne : ∀ d : Char, 128 ≤ d.val.toNat → c ≠ d := by
    intro d hd heq
    rw [heq] at h
    omega
  rw [sampleLower, if_neg (hne _ (by decide)), if_neg (hne _ (by decide)),
    if_neg (hne _ (by decide))]

theorem sampleLower_of_not_ascii {c : Char} (h : 128 ≤ c.val.toNat) :
    sampleLower c = ['k'] ∨ sampleLower c = ['i', '\u0307'] ∨
      sampleLower c ≠ [] ∧ ∀ d ∈ sampleLower c, 128 ≤ d.val.toNat := by
  rw [sampleLower]
  split_ifs
  · exact .inr (.inl rfl)
  · exact .inl rfl
  · exact .inr (.inr ⟨List.cons_ne_nil _ _, List.forall_mem_singleton.mpr (by decide)⟩)
  · rw [(CaseTables.toLower_of_not_ascii h).mpr rfl]
    exact .inr (.inr ⟨List.cons_ne_nil _ _, by simpa using h⟩)

def sampleTables : CaseTables where
  lower := sampleLower
  cased := Char.isAlpha
  caseIgnorable c := decide (c.val.toNat ∈ [0x27, 0x2E, 0x3A, 0x5E, 0x60])
  lower_ascii _ := sampleLower_of_ascii
  lower_not_ascii _ := sampleLower_of_not_ascii
  cased_ascii _ _ := rfl
  caseIgnorable_ascii _ _ := rfl

/-- A path without the component has no package. With it, neither function panics and both
results depend on the text after the first component alone, whatever that text is, exactly if the
text before it is as long in lower case. -/
theorem store_path_text_iff (t : CaseTables) (pre : Str) :
    (∀ path, ¬ HasComponent (normalizeWindowsPath path) →
      windowsappsIdentity t path = .ok none ∧ windowsappsPackageFamily t path = .ok none) ∧
    ('/' ∉ pre → ¬ HasComponent (pre ++ marker.dropLast) →
      ((∀ path component post, component.map Char.toLower = marker →
        normalizeWindowsPath path = pre ++ component ++ post →
        windowsappsIdentity t path = .ok (identityOf t post) ∧
          windowsappsPackageFamily t path = .ok (familyOf post)) ↔
      (t.toLowercase pre).len = pre.len)) := by
  constructor
  · intro path hno
    rw [windowsappsIdentity, windowsappsPackageFamily, afterMarker_of_not t hno]
    exact ⟨rfl, rfl⟩
  · intro hslash hfirst
    constructor
    · intro hall
      have hvalue : '/' ∉ pre ++ marker ++ samplePackage := by
        simp only [List.mem_append, not_or]
        exact ⟨⟨hslash, by decide⟩, by decide⟩
      obtain ⟨path, hpath⟩ := exists_normalize_eq hvalue
      have hmarker : marker.map Char.toLower = marker := by decide
      have hidentity := (hall path marker samplePackage hmarker hpath).1
      rw [windowsappsIdentity, afterMarker_of_first t hmarker hfirst hpath,
        identityOf_samplePackage] at hidentity
      have hstart := len_of_identity t (by rw [← hidentity]; cases Str.sliceFrom _ _ <;> rfl)
      rw [Str.len_append] at hstart
      omega
    · intro hlen path component post hcomponent hpath
      have hstart : (t.toLowercase pre).len + marker.len = (pre ++ component).len := by
        rw [hlen, Str.len_append, component_len hcomponent]
      rw [windowsappsIdentity, windowsappsPackageFamily,
        afterMarker_of_first t hcomponent hfirst hpath, hstart, Str.sliceFrom_append]
      exact ⟨rfl, rfl⟩

/-- After a dotted capital I the offset is one too large and can be past the end. After a Kelvin
sign it is two too small. -/
theorem length_change_misplaces :
    windowsappsPackageFamily sampleTables ('İ' :: marker) = .error .panicked ∧
    familyOf samplePackage = some ['A', '_', 'p'] ∧
    windowsappsPackageFamily sampleTables (['C', ':', '\\', 'İ'] ++ marker ++ samplePackage) =
      .ok none ∧
    windowsappsPackageFamily sampleTables (['C', ':', '\\', '\u212A'] ++ marker ++ samplePackage) =
      .ok none := by
  decide +kernel

end MouseVpn.Gui
