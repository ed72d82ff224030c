import MouseVpn.Gui.StorePaths
import Mathlib.Data.List.Destutter
import Mathlib.Data.List.Sort

/-!
# The list of applications

The settings keep one path of each key, and the key folds the case of every letter. The client
that gets the list compares paths in the case of ASCII letters alone.
-/

namespace MouseVpn.Gui

open MouseVpn.Lib MouseVpn.Windows

def settingsVersion : UInt8 := 2

structure StoredSettings where
  version : UInt8
  mode : AppRoutingMode
  apps : List Str
  excludedApps : List Str
  deriving DecidableEq

section Lists

variable (t : CaseTables)

def normalizedKey (path : Str) : Str := t.toLowercase (normalizeWindowsPath path)

def sortAndDeduplicate (paths : List Str) : List Str :=
  let sorted := paths.insertionSort fun left right =>
    (normalizedKey t left).le (normalizedKey t right) = true
  sorted.destutter fun kept path => normalizedKey t path ≠ normalizedKey t kept

def normalize (settings : StoredSettings) : StoredSettings :=
  { version := settingsVersion
    mode := settings.mode
    apps := sortAndDeduplicate t (settings.apps.map normalizeWindowsPath)
    excludedApps := [] }

def packageFamilies (apps : List Str) : Except (Fault String) (List Str) := do
  let families ← apps.mapM (windowsappsPackageFamily t)
  let families := families.filterMap id
  let sorted := families.insertionSort fun left right =>
    (t.toLowercase left).le (t.toLowercase right) = true
  return sorted.destutter fun kept family => family.eqIgnoreAsciiCase kept = false

/-- `policy`, for settings as `load_resolved` returns them. An application is available if its
path is absolute and is that of a file. -/
def policy (available : Str → Bool) (appContainerSidString : Str → Except String String)
    (settings : StoredSettings) : Except (Fault String) AppRoutingPolicy := do
  let settings := normalize t settings
  let apps := settings.apps.filter available
  let families ← packageFamilies t apps
  let packageSids ← families.mapM fun family =>
    (appContainerSidString family).mapError fun error => Fault.failed
      ("Не удалось определить пакет Microsoft Store " ++ String.ofList family ++ ": " ++ error)
  return { mode := settings.mode, apps := apps.map String.ofList, packageSids }

theorem exists_mem_destutter' {α β : Type} [DecidableEq β] (key : α → β) (first : α) (l : List α) :
    ∀ a ∈ first :: l, ∃ b ∈ l.destutter' (fun kept a => key a ≠ key kept) first, key b = key a := by
  induction l generalizing first with
  | nil =>
    intro a ha
    rw [List.mem_singleton] at ha
    exact ⟨first, List.mem_singleton_self first, by rw [ha]⟩
  | cons c l ih =>
    intro a ha
    by_cases hc : key c = key first
    · rw [List.destutter'_cons_neg _ (not_not.mpr hc)]
      rcases List.mem_cons.mp ha with rfl | ha
      · exact ih a a List.mem_cons_self
      · rcases List.mem_cons.mp ha with rfl | ha
        · -- the element that is dropped has the key of the one before
          obtain ⟨b, hb, hkey⟩ := ih first first List.mem_cons_self
          exact ⟨b, hb, hkey.trans hc.symm⟩
        · exact ih first a (List.mem_cons_of_mem first ha)
    · rw [List.destutter'_cons_pos _ hc]
      rcases List.mem_cons.mp ha with rfl | ha
      · exact ⟨a, List.mem_cons_self, rfl⟩
      · obtain ⟨b, hb, hkey⟩ := ih c a ha
        exact ⟨b, List.mem_cons_of_mem first hb, hkey⟩

theorem exists_mem_destutter {α β : Type} [DecidableEq β] (key : α → β) {l : List α} {a : α}
    (h : a ∈ l) : ∃ b ∈ l.destutter fun kept a => key a ≠ key kept, key b = key a := by
  cases l with
  | nil => cases h
  | cons first l => exact exists_mem_destutter' key first l a h

theorem exists_mem_sortAndDeduplicate {paths : List Str} {path : Str} (h : path ∈ paths) :
    ∃ kept ∈ sortAndDeduplicate t paths, normalizedKey t kept = normalizedKey t path :=
  exists_mem_destutter (normalizedKey t) ((List.mem_insertionSort _).mpr h)

theorem policy_apps {available : Str → Bool} {sid : Str → Except String String}
    {settings : StoredSettings} {p : AppRoutingPolicy}
    (h : policy t available sid settings = .ok p) :
    p.apps = ((normalize t settings).apps.filter available).map String.ofList := by
  obtain ⟨families, -, h⟩ := bind_eq_ok.mp h
  obtain ⟨packageSids, -, h⟩ := bind_eq_ok.mp h
  rw [← Except.ok.inj h]

theorem classifier_apps {available : Str → Bool} {sid : Str → Except String String}
    {settings : StoredSettings} {p : AppRoutingPolicy}
    (h : policy t available sid settings = .ok p) :
    (Classifier.new p).apps =
      ((normalize t settings).apps.filter available).map normalizeWindowsPath := by
  rw [Classifier.new, policy_apps t h, List.map_map]
  refine List.map_congr_left fun path _ => ?_
  rw [Function.comp_apply, String.toList_ofList]

end Lists

def listedAfter (p : AppRoutingPolicy) (calls : List (UInt32 × Option Process)) (id : UInt32)
    (process : Process) : Bool :=
  ((Machine.run Classifier.consult (Classifier.new p) calls).consult (id, some process)).2.1

section Enforcement

variable (t : CaseTables)

theorem key_eq_of_eqIgnoreAsciiCase {app path : Str} (hregular : normalizeWindowsPath path = path)
    (h : (normalizeWindowsPath app).eqIgnoreAsciiCase path = true) :
    normalizedKey t app = normalizedKey t path := by
  rw [normalizedKey, normalizedKey, hregular]
  exact t.toLowercase_of_eqIgnoreAsciiCase h

theorem eqIgnoreAsciiCase_of_key_eq {app path : Str} (hregular : normalizeWindowsPath path = path)
    (happ : (normalizeWindowsPath app).isAscii = true) (hpath : path.isAscii = true)
    (h : normalizedKey t app = normalizedKey t path) :
    (normalizeWindowsPath app).eqIgnoreAsciiCase path = true := by
  rw [normalizedKey, normalizedKey, hregular, t.toLowercase_ascii happ,
    t.toLowercase_ascii hpath] at h
  exact decide_eq_true h

variable {available : Str → Bool} {sid : Str → Except String String} {settings : StoredSettings}
  {p : AppRoutingPolicy} {image : UInt32 → UInt64 → Str} {calls : List (UInt32 × Option Process)}
  {id : UInt32} {process : Process} {path : Str}

theorem listedAfter_iff (hpolicy : policy t available sid settings = .ok p)
    (hcalls : ∀ call ∈ calls, Classifier.Names image call)
    (hprocess : Classifier.Names image (id, some process))
    (hpath : process.imagePath = some path) :
    listedAfter p calls id process = true ↔ ∃ app ∈ (normalize t settings).apps,
      available app = true ∧ (normalizeWindowsPath app).eqIgnoreAsciiCase path = true := by
  have hrun := (Classifier.new_remembers image p).run hcalls
  have happs := hrun.apps.trans (classifier_apps t hpolicy)
  rw [listedAfter, Classifier.consult_of_path hrun hprocess hpath, Classifier.matchesPath, happs]
  simp only [List.any_map, List.any_filter, List.any_eq_true, Function.comp_apply,
    Bool.and_eq_true, pathsEqual]

/-- A listed process has the key of a stored path. The converse, that every process with the key of
a stored path is listed, holds exactly if its path and an available stored one differ in the case
of ASCII letters alone. Every path that was given is represented by one with its key. -/
theorem listed_agrees_iff (hpolicy : policy t available sid settings = .ok p)
    (hcalls : ∀ call ∈ calls, Classifier.Names image call)
    (hprocess : Classifier.Names image (id, some process))
    (hpath : process.imagePath = some path) (hregular : normalizeWindowsPath path = path) :
    (∀ given ∈ settings.apps, ∃ app ∈ (normalize t settings).apps,
      normalizedKey t app = normalizedKey t (normalizeWindowsPath given)) ∧
    (listedAfter p calls id process = true →
      ∃ app ∈ (normalize t settings).apps, normalizedKey t app = normalizedKey t path) ∧
    ((listedAfter p calls id process = true ↔
        ∃ app ∈ (normalize t settings).apps, normalizedKey t app = normalizedKey t path) ↔
      ((∃ app ∈ (normalize t settings).apps, normalizedKey t app = normalizedKey t path) →
        ∃ app ∈ (normalize t settings).apps, available app = true ∧
          (normalizeWindowsPath app).eqIgnoreAsciiCase path = true)) ∧
    (path.isAscii = true → (∀ app ∈ (normalize t settings).apps,
        available app = true ∧ (normalizeWindowsPath app).isAscii = true) →
      (listedAfter p calls id process = true ↔
        ∃ app ∈ (normalize t settings).apps, normalizedKey t app = normalizedKey t path)) := by
  have hlisted := listedAfter_iff t hpolicy hcalls hprocess hpath
  have hsound : listedAfter p calls id process = true →
      ∃ app ∈ (normalize t settings).apps, normalizedKey t app = normalizedKey t path := by
    intro h
    obtain ⟨app, happ, -, hequal⟩ := hlisted.mp h
    exact ⟨app, happ, key_eq_of_eqIgnoreAsciiCase t hregular hequal⟩
  refine ⟨fun given hgiven => ?_, hsound, ?_, fun hascii hall => ⟨hsound, fun h => ?_⟩⟩
  · exact exists_mem_sortAndDeduplicate t (List.mem_map_of_mem hgiven)
  · constructor
    · intro h hkey
      exact hlisted.mp (h.mpr hkey)
    · intro h
      exact ⟨hsound, fun hkey => hlisted.mpr (h hkey)⟩
  · obtain ⟨app, happ, hkey⟩ := h
    obtain ⟨havailable, happAscii⟩ := hall app happ
    exact hlisted.mpr ⟨app, happ, havailable,
      eqIgnoreAsciiCase_of_key_eq t hregular happAscii hascii hkey⟩

end Enforcement

def sampleApp (c : Char) : Str := ['C', ':', '\\', c, '.', 'e', 'x', 'e']

def sampleSettings (letters : List Char) : StoredSettings where
  version := settingsVersion
  mode := .includeOnly
  apps := letters.map sampleApp
  excludedApps := []

def samplePolicy (c : Char) : AppRoutingPolicy where
  mode := .includeOnly
  apps := [String.ofList (sampleApp c)]
  packageSids := []

def sampleProcess (c : Char) : Process := ⟨some 1, some (sampleApp c)⟩

theorem sampleProcess_path {c : Char} (h : normalizeWindowsPath (sampleApp c) = sampleApp c) :
    (sampleProcess c).imagePath = some (sampleApp c) :=
  congrArg some h

theorem sampleProcess_names {c : Char} (h : normalizeWindowsPath (sampleApp c) = sampleApp c) :
    Classifier.Names (fun _ _ => sampleApp c) (7, some (sampleProcess c)) := by
  intro process created path hprocess _ hpath
  rw [← Option.some.inj hprocess, sampleProcess_path h] at hpath
  exact Option.some.inj hpath

/-- With ASCII letters both spellings are listed. -/
theorem ascii_app_agrees :
    listedAfter (samplePolicy 'a') [] 7 (sampleProcess 'A') = true ↔
      ∃ app ∈ (normalize sampleTables (sampleSettings ['a'])).apps,
        normalizedKey sampleTables app = normalizedKey sampleTables (sampleApp 'A') := by
  have hpolicy : policy sampleTables (fun _ => true) (fun _ => .error "") (sampleSettings ['a']) =
      .ok (samplePolicy 'a') := by rfl
  have hregular : normalizeWindowsPath (sampleApp 'A') = sampleApp 'A' := by decide
  exact (listed_agrees_iff sampleTables hpolicy (List.forall_mem_nil _)
    (sampleProcess_names hregular) (sampleProcess_path hregular) hregular).2.2.2 (by decide)
    (by decide +kernel)

/-- Both spellings are given, one is kept, and a process of the other is not listed. -/
theorem merged_path_not_listed :
    policy sampleTables (fun _ => true) (fun _ => .error "") (sampleSettings ['É', 'é']) =
      .ok (samplePolicy 'É') ∧
    (normalize sampleTables (sampleSettings ['É', 'é'])).apps = [sampleApp 'É'] ∧
    normalizedKey sampleTables (sampleApp 'é') = normalizedKey sampleTables (sampleApp 'É') ∧
    listedAfter (samplePolicy 'É') [] 7 (sampleProcess 'é') = false := by
  have happs : (normalize sampleTables (sampleSettings ['É', 'é'])).apps = [sampleApp 'É'] := by
    decide +kernel
  have hpolicy : policy sampleTables (fun _ => true) (fun _ => .error "")
      (sampleSettings ['É', 'é']) = .ok (samplePolicy 'É') := by rfl
  have hregular : normalizeWindowsPath (sampleApp 'é') = sampleApp 'é' := by decide
  refine ⟨hpolicy, happs, by decide +kernel, ?_⟩
  rw [Bool.eq_false_iff, ne_eq, listedAfter_iff sampleTables hpolicy (List.forall_mem_nil _)
    (sampleProcess_names hregular) (sampleProcess_path hregular), happs]
  decide

end MouseVpn.Gui
