import MouseVpn.Gui.AppList
import MouseVpn.Lib.Faults
import MouseVpn.Lib.Machine
import Mathlib.Logic.Function.Basic

/-!
# The file of the settings

New settings are written to a temporary file, which then replaces the file of the settings. The
old file is kept as a backup during the replacement, and it is read where the other is missing.
Each operation on the files can fail, and the process can be killed before or after each of them.
-/

namespace MouseVpn.Gui

open MouseVpn.Lib MouseVpn.Windows

inductive File
  | settings
  | backup
  | temporary (uuid : BitVec 128)
  deriving DecidableEq

abbrev Files := File → Option Str

inductive FileOp
  | createDirAll
  | metadata (file : File)
  | create (file : File)
  | append (file : File) (text : Str)
  | sync (file : File)
  | rename (source destination : File)
  | remove (file : File)

def FileOp.change : FileOp → Files → Files
  | .createDirAll, files => files
  | .metadata _, files => files
  | .create file, files => Function.update files file (some [])
  | .append file text, files => Function.update files file ((files file).map (· ++ text))
  | .sync _, files => files
  | .rename source destination, files =>
    Function.update (Function.update files source none) destination (files source)
  | .remove file, files => Function.update files file none

def FileOp.apply (op : FileOp) (ok : Bool) (files : Files) : Files :=
  if ok then op.change files else files

abbrev FileProgram := Program FileOp Files

open Program

def onFile (file : File) (op : FileOp) : FileProgram Bool :=
  .inspect fun files => if (files file).isSome then attempted op else .done false

/-- `Path::exists`, which is also false where the metadata cannot be read. -/
def pathExists (file : File) : FileProgram Bool := onFile file (.metadata file)

def rename (source destination : File) : FileProgram Bool :=
  onFile source (.rename source destination)

def removeFile (file : File) : FileProgram Bool := onFile file (.remove file)

def createNew (file : File) : FileProgram Bool :=
  .inspect fun files => if (files file).isSome then .done false else attempted (.create file)

/-- The loop of `write_all`; how much one call takes is up to the system. -/
def writeAll (file : File) : List Str → FileProgram Bool
  | [] => .done true
  | part :: parts => (attempted (.append file part)).andThen (writeAll file parts)

def replaceFile (source : File) : FileProgram Bool :=
  (pathExists .settings).bind fun there =>
    if there then
      ((pathExists .backup).bind fun stale =>
        if stale then removeFile .backup else .done true).andThen <|
      (rename .settings .backup).andThen <|
      (rename source .settings).bind fun ok =>
        if ok then (removeFile .backup).bind fun _ => .done true
        else (rename .backup .settings).bind fun _ => .done false
    else rename source .settings

structure Toml where
  toStringPretty : StoredSettings → Except String Str
  fromStr : Str → Except String StoredSettings
  fromStr_toStringPretty : ∀ {settings contents}, toStringPretty settings = .ok contents →
    fromStr contents = .ok settings

/-- A call of `save`, with what the system does: the parts in which the text is written, the
outcomes of the operations up to the one at which the process is killed, and whether the caller
lives to see the result. -/
structure SaveCall where
  settings : StoredSettings
  uuid : BitVec 128
  parts : Str → List Str
  parts_flatten : ∀ contents, (parts contents).flatten = contents
  outcomes : List Bool
  survives : Bool

section Saving

variable (toml : Toml)

def writeTemporary (call : SaveCall) (contents : Str) : FileProgram Bool :=
  let temporary := File.temporary call.uuid
  (createNew temporary).andThen <|
  (writeAll temporary (call.parts contents)).andThen <|
  (attempted (.sync temporary)).andThen <|
  replaceFile temporary

def save (call : SaveCall) : FileProgram Bool :=
  (attempted .createDirAll).andThen <|
    match toml.toStringPretty call.settings with
    | .error _ => .done false
    | .ok contents =>
      (writeTemporary call contents).bind fun ok =>
        if ok then .done true else (removeFile (.temporary call.uuid)).bind fun _ => .done false

def step (files : Files) (call : SaveCall) : Files × Option Bool :=
  let (files', result) := (save toml call).run FileOp.apply call.outcomes files
  (files', if call.survives then result else none)

end Saving

inductive ReadError
  | notFound
  | other (message : String)

/-- `fs::read_to_string`; a file can be there and not be readable. -/
def readToString (unreadable : File → Option String) (files : Files) (file : File) :
    Except ReadError Str :=
  match files file with
  | none => .error .notFound
  | some contents =>
    match unreadable file with
    | some message => .error (.other message)
    | none => .ok contents

def defaults : StoredSettings where
  version := settingsVersion
  mode := .exclude
  apps := []
  excludedApps := []

section Loading

variable (t : CaseTables) (toml : Toml)

def migrate (settings : StoredSettings) : Except String StoredSettings :=
  if settings.version = 1 then
    .ok (normalize t
      { version := settingsVersion
        mode := .exclude
        apps := settings.apps ++ settings.excludedApps
        excludedApps := [] })
  else if settings.version = settingsVersion then .ok (normalize t settings)
  else .error ("Неподдерживаемая версия настроек MouseVPN: " ++ settings.version.toNat.repr)

def parse (contents : Str) : Except String StoredSettings := do
  let settings ← toml.fromStr contents
  migrate t settings

def load (unreadable : File → Option String) (files : Files) : Except String StoredSettings :=
  match readToString unreadable files .settings with
  | .ok contents => parse t toml contents
  | .error (.other message) => .error message
  | .error .notFound =>
    match readToString unreadable files .backup with
    | .ok contents => parse t toml contents
    | .error (.other message) => .error message
    | .error .notFound => .ok defaults

end Loading

def current (files : Files) : Option Str := (files .settings).or (files .backup)

section Reading

variable (t : CaseTables) (toml : Toml)

theorem load_of_current {files : Files} {contents : Str} (h : current files = some contents)
    (unreadable : File → Option String) :
    load t toml unreadable files = parse t toml contents ∨
      ∃ file message, unreadable file = some message ∧
        load t toml unreadable files = .error message := by
  rw [load, readToString, readToString]
  cases hsettings : files .settings with
  | some text =>
    rw [current, hsettings, Option.some_or, Option.some.injEq] at h
    cases hread : unreadable .settings with
    | none => exact .inl (by rw [h])
    | some message => exact .inr ⟨.settings, message, hread, rfl⟩
  | none =>
    rw [current, hsettings, Option.none_or] at h
    rw [h]
    cases hread : unreadable .backup with
    | none => exact .inl rfl
    | some message => exact .inr ⟨.backup, message, hread, rfl⟩

theorem parse_toStringPretty {settings : StoredSettings} {contents : Str}
    (h : toml.toStringPretty settings = .ok contents) :
    parse t toml contents = migrate t settings := by
  rw [parse, toml.fromStr_toStringPretty h]
  rfl

theorem migrate_of_version {settings : StoredSettings} (h : settings.version = settingsVersion) :
    migrate t settings = .ok (normalize t settings) := by
  rw [migrate, h, if_neg (by decide), if_pos rfl]

theorem version_of_load {unreadable : File → Option String} {files : Files}
    {settings : StoredSettings} (h : load t toml unreadable files = .ok settings) :
    settings.version = settingsVersion := by
  have hparse : ∀ {contents}, parse t toml contents = .ok settings →
      settings.version = settingsVersion := by
    intro contents hparse
    obtain ⟨stored, -, hmigrate⟩ := bind_eq_ok.mp hparse
    rw [migrate] at hmigrate
    split_ifs at hmigrate <;> rw [← Except.ok.inj hmigrate] <;> rfl
  rw [load] at h
  cases hsettings : readToString unreadable files .settings with
  | ok contents =>
    rw [hsettings] at h
    exact hparse h
  | error e =>
    rw [hsettings] at h
    cases e with
    | other message => cases h
    | notFound =>
      cases hbackup : readToString unreadable files .backup with
      | ok contents =>
        rw [hbackup] at h
        exact hparse h
      | error e =>
        rw [hbackup] at h
        cases e with
        | other message => cases h
        | notFound => exact Except.ok.inj h ▸ rfl

end Reading

@[simp] theorem current_update_temporary (files : Files) (uuid : BitVec 128) (text : Option Str) :
    current (Function.update files (.temporary uuid) text) = current files := by
  simp [current]

section Guarantees

variable {C : Files → Prop} {Q : Bool → Files → Prop} {files : Files}

theorem onFile_guarantees {file : File} {op : FileOp} (hC : C files) (hfail : Q false files)
    (hok : ∀ text, files file = some text → C (op.change files) ∧ Q true (op.change files)) :
    (onFile file op).Guarantees FileOp.apply C Q files := by
  apply Guarantees.inspect
  cases htext : files file with
  | none => exact ⟨hC, hfail⟩
  | some text =>
    refine ⟨hC, fun ok => ?_⟩
    cases ok with
    | false => exact ⟨hC, hfail⟩
    | true => exact hok text htext

variable {before : Option Str} {contents : Str} {uuid : BitVec 128}

def Kept (before : Option Str) (contents : Str) (files : Files) : Prop :=
  current files = before ∨ current files = some contents

def Told (before : Option Str) (contents : Str) (ok : Bool) (files : Files) : Prop :=
  current files = if ok then some contents else before

structure Written (before : Option Str) (contents : Str) (uuid : BitVec 128) (files : Files) :
    Prop where
  current_eq : current files = before
  temporary_eq : files (.temporary uuid) = some contents

theorem Written.kept (h : Written before contents uuid files) : Kept before contents files :=
  .inl h.current_eq

theorem createNew_guarantees (h : current files = before) :
    (createNew (.temporary uuid)).Guarantees FileOp.apply (Kept before contents)
      (fun ok s => if ok then Written before [] uuid s else Told before contents false s)
      files := by
  apply Guarantees.inspect
  split_ifs
  · exact ⟨.inl h, h⟩
  · refine ⟨.inl h, fun ok => ?_⟩
    cases ok with
    | false => exact ⟨.inl h, h⟩
    | true =>
      have hcurrent : current (Function.update files (.temporary uuid) (some [])) = before :=
        (current_update_temporary ..).trans h
      exact ⟨.inl hcurrent, hcurrent, Function.update_self ..⟩

theorem writeAll_guarantees {parts : List Str} {text : Str} (h : Written before text uuid files) :
    (writeAll (.temporary uuid) parts).Guarantees FileOp.apply (Kept before contents)
      (fun ok s => if ok then Written before (text ++ parts.flatten) uuid s
        else Told before contents false s) files := by
  induction parts generalizing files text with
  | nil =>
    refine ⟨.inl h.current_eq, ?_⟩
    rw [List.flatten_nil, List.append_nil]
    exact h
  | cons part parts ih =>
    refine Guarantees.attempted_andThen (.inl h.current_eq) ⟨.inl h.current_eq, h.current_eq⟩ ?_
    have hnext : Written before (text ++ part) uuid
        (FileOp.apply (.append (.temporary uuid) part) true files) := by
      refine ⟨(current_update_temporary ..).trans h.current_eq, ?_⟩
      exact (Function.update_self ..).trans (congrArg (Option.map (· ++ part)) h.temporary_eq)
    simpa only [List.flatten_cons, List.append_assoc] using ih hnext

theorem current_of_settings {text : Str} (h : files .settings = some text) :
    current files = some text := by
  rw [current, h, Option.some_or]

theorem rename_destination (source destination : File) :
    FileOp.change (.rename source destination) files destination = files source :=
  Function.update_self ..

theorem current_rename_settings {source : File} {text : Str} (h : files source = some text) :
    current (FileOp.change (.rename source .settings) files) = some text :=
  current_of_settings ((rename_destination source .settings).trans h)

theorem install_guarantees (h : Written before contents uuid files) :
    (rename (.temporary uuid) .settings).Guarantees FileOp.apply (Kept before contents)
      (Told before contents) files := by
  refine onFile_guarantees h.kept h.current_eq fun text htext => ?_
  have hnew := current_rename_settings h.temporary_eq
  exact ⟨.inr hnew, hnew⟩

theorem swap_guarantees {old : Str} (hsettings : files .settings = none)
    (hbackup : files .backup = some old) (htemporary : files (.temporary uuid) = some contents) :
    ((rename (.temporary uuid) .settings).bind fun ok =>
      if ok then (removeFile .backup).bind fun _ => .done true
      else (rename .backup .settings).bind fun _ => .done false).Guarantees FileOp.apply
        (Kept (some old) contents) (Told (some old) contents) files := by
  have hold : current files = some old := by rw [current, hsettings, Option.none_or, hbackup]
  apply Guarantees.bind
  refine onFile_guarantees (.inl hold) ?_ ?_
  · -- the way back can fail too, and then the backup is read
    rw [if_neg Bool.false_ne_true]
    apply Guarantees.bind
    refine onFile_guarantees (.inl hold) ⟨.inl hold, hold⟩ fun text htext => ?_
    have hback := current_rename_settings hbackup
    exact ⟨.inl hback, .inl hback, hback⟩
  · intro text htext
    have hnew :
        FileOp.change (.rename (.temporary uuid) .settings) files .settings = some contents :=
      (rename_destination _ .settings).trans htemporary
    have hcurrent := current_of_settings hnew
    refine ⟨.inr hcurrent, ?_⟩
    rw [if_pos rfl]
    apply Guarantees.bind
    refine onFile_guarantees (.inr hcurrent) ⟨.inr hcurrent, hcurrent⟩ fun text htext => ?_
    have hkept : current (FileOp.change (.remove .backup)
        (FileOp.change (.rename (.temporary uuid) .settings) files)) = some contents := by
      refine current_of_settings ((Function.update_of_ne ?_ ..).trans hnew)
      decide
    exact ⟨.inr hkept, .inr hkept, hkept⟩

theorem moveOld_guarantees {old : Str} (hsettings : files .settings = some old)
    (htemporary : files (.temporary uuid) = some contents) :
    ((rename .settings .backup).andThen <|
      (rename (.temporary uuid) .settings).bind fun ok =>
        if ok then (removeFile .backup).bind fun _ => .done true
        else (rename .backup .settings).bind fun _ => .done false).Guarantees FileOp.apply
        (Kept (some old) contents) (Told (some old) contents) files := by
  have hold := current_of_settings hsettings
  apply Guarantees.andThen
  refine onFile_guarantees (.inl hold) hold fun text htext => ?_
  have hgone : FileOp.change (.rename .settings .backup) files .settings = none := by
    simp [FileOp.change]
  have hbackup : FileOp.change (.rename .settings .backup) files .backup = some old :=
    (rename_destination .settings .backup).trans hsettings
  have hready : FileOp.change (.rename .settings .backup) files (.temporary uuid) =
      some contents := by
    simp [FileOp.change, htemporary]
  have hswap := swap_guarantees hgone hbackup hready
  exact ⟨hswap.start, hswap⟩

theorem replaceFile_guarantees (h : Written before contents uuid files) :
    (replaceFile (.temporary uuid)).Guarantees FileOp.apply (Kept before contents)
      (Told before contents) files := by
  apply Guarantees.bind
  refine onFile_guarantees h.kept ?_ fun old hsettings => ⟨h.kept, ?_⟩
  · rw [if_neg Bool.false_ne_true]
    exact install_guarantees h
  · have hbefore : before = some old := h.current_eq.symm.trans (current_of_settings hsettings)
    subst hbefore
    rw [if_pos rfl]
    apply Guarantees.andThen
    apply Guarantees.bind
    have hmove := moveOld_guarantees hsettings h.temporary_eq
    refine onFile_guarantees h.kept ?_ fun stale _ => ⟨h.kept, ?_⟩
    · rw [if_neg Bool.false_ne_true]
      exact ⟨h.kept, hmove⟩
    · rw [if_pos rfl]
      refine onFile_guarantees h.kept h.current_eq fun _ _ => ?_
      have hold : FileOp.change (.remove .backup) files .settings = some old := by
        simp [FileOp.change, hsettings]
      have hready : FileOp.change (.remove .backup) files (.temporary uuid) = some contents := by
        simp [FileOp.change, h.temporary_eq]
      have hnext := moveOld_guarantees hold hready
      exact ⟨hnext.start, hnext⟩

theorem writeTemporary_guarantees (call : SaveCall) (h : current files = before) :
    (writeTemporary call contents).Guarantees FileOp.apply (Kept before contents)
      (Told before contents) files := by
  apply Guarantees.andThen
  refine (createNew_guarantees h).mono (fun _ hkept => hkept) fun ok s hs => ?_
  cases ok with
  | false => exact hs
  | true =>
    apply Guarantees.andThen
    refine (writeAll_guarantees hs).mono (fun _ hkept => hkept) fun ok s hs => ?_
    cases ok with
    | false => exact hs
    | true =>
      have hwritten : Written before contents call.uuid s := by
        rw [if_pos rfl, List.nil_append, call.parts_flatten] at hs
        exact hs
      exact Guarantees.attempted_andThen hwritten.kept ⟨hwritten.kept, hwritten.current_eq⟩
        (replaceFile_guarantees hwritten)

end Guarantees

section Calls

variable (toml : Toml)

theorem save_guarantees {call : SaveCall} {contents : Str}
    (h : toml.toStringPretty call.settings = .ok contents) (files : Files) :
    (save toml call).Guarantees FileOp.apply (Kept (current files) contents)
      (Told (current files) contents) files := by
  refine Guarantees.attempted_andThen (.inl rfl) ⟨.inl rfl, rfl⟩ ?_
  rw [h]
  apply Guarantees.bind
  refine (writeTemporary_guarantees call rfl).with_crash.mono (fun _ hkept => hkept)
    fun ok s hs => ?_
  cases ok with
  | true => exact hs
  | false =>
    apply Guarantees.bind
    refine onFile_guarantees hs.1 hs fun text _ => ?_
    have hsame : current (FileOp.change (.remove (.temporary call.uuid)) s) = current files :=
      (current_update_temporary ..).trans hs.2
    exact ⟨.inl hsame, .inl hsame, hsame⟩

theorem save_guarantees_of_error {call : SaveCall} {message : String}
    (h : toml.toStringPretty call.settings = .error message) (files : Files) :
    (save toml call).Guarantees FileOp.apply (fun s => current s = current files)
      (fun ok s => ok = false ∧ current s = current files) files := by
  refine Guarantees.attempted_andThen rfl ⟨rfl, rfl, rfl⟩ ?_
  rw [h]
  exact ⟨rfl, rfl, rfl⟩

theorem run_of_step {files : Files} {call : SaveCall} {ok : Bool}
    (h : (step toml files call).2 = some ok) :
    ((save toml call).run FileOp.apply call.outcomes files).2 = some ok := by
  simp only [step] at h
  split_ifs at h
  exact h

theorem step_cases (files : Files) (call : SaveCall) :
    current (step toml files call).1 = current files ∧ (step toml files call).2 ≠ some true ∨
    (∃ contents, toml.toStringPretty call.settings = .ok contents ∧
      current (step toml files call).1 = some contents) ∧
    (step toml files call).2 ≠ some false := by
  cases h : toml.toStringPretty call.settings with
  | error message =>
    have hspec := (save_guarantees_of_error toml h files).run_spec call.outcomes
    refine .inl ⟨hspec.1, fun hresult => ?_⟩
    exact absurd (hspec.2 true (run_of_step toml hresult)).1 (by decide)
  | ok contents =>
    have hspec := (save_guarantees toml h files).run_spec call.outcomes
    cases hresult : (step toml files call).2 with
    | none =>
      rcases hspec.1 with hsame | hnew
      · exact .inl ⟨hsame, nofun⟩
      · exact .inr ⟨⟨contents, rfl, hnew⟩, nofun⟩
    | some ok =>
      have htold := hspec.2 ok (run_of_step toml hresult)
      cases ok with
      | false => exact .inl ⟨htold, by decide⟩
      | true => exact .inr ⟨⟨contents, rfl, htold⟩, by decide⟩

def Interrupted (files : Files) (calls : List SaveCall) (call : SaveCall) : Prop :=
  ∃ before after, calls = before ++ call :: after ∧
    (step toml (Machine.run (step toml) files before) call).2 = none

def Holds (files : Files) (settings : StoredSettings) : Prop :=
  ∃ contents, toml.toStringPretty settings = .ok contents ∧ current files = some contents

theorem Interrupted.cons {files : Files} {first call : SaveCall} {calls : List SaveCall}
    (h : Interrupted toml (step toml files first).1 calls call) :
    Interrupted toml files (first :: calls) call := by
  obtain ⟨before, after, rfl, hresult⟩ := h
  exact ⟨first :: before, after, rfl, hresult⟩

theorem run_holds {files : Files} {settings : StoredSettings} {calls : List SaveCall}
    (h : Holds toml files settings)
    (hno : some true ∉ Machine.outputs (step toml) files calls) :
    Holds toml (Machine.run (step toml) files calls) settings ∨ ∃ call,
      Interrupted toml files calls call ∧
        Holds toml (Machine.run (step toml) files calls) call.settings := by
  induction calls generalizing files settings with
  | nil => exact .inl h
  | cons first calls ih =>
    rw [Machine.outputs, Machine.observe, List.mem_cons, not_or] at hno
    rw [Machine.run_cons]
    rcases step_cases toml files first with ⟨hsame, -⟩ | ⟨hnew, hresult⟩
    · obtain ⟨contents, hcontents, hcurrent⟩ := h
      rcases ih ⟨contents, hcontents, hsame.trans hcurrent⟩ hno.2 with hkept | ⟨call, hcall, hholds⟩
      · exact .inl hkept
      · exact .inr ⟨call, hcall.cons, hholds⟩
    · have hkilled : (step toml files first).2 = none := by
        rw [Option.eq_none_iff_forall_ne_some]
        intro ok heq
        cases ok with
        | false => exact hresult heq
        | true => exact hno.1 heq.symm
      rcases ih hnew hno.2 with hkept | ⟨call, hcall, hholds⟩
      · exact .inr ⟨first, ⟨[], calls, rfl, hkilled⟩, hkept⟩
      · exact .inr ⟨call, hcall.cons, hholds⟩

theorem current_run_ne_none {files : Files} {calls : List SaveCall}
    (h : current files ≠ none ∨ some true ∈ Machine.outputs (step toml) files calls) :
    current (Machine.run (step toml) files calls) ≠ none := by
  induction calls generalizing files with
  | nil => exact h.resolve_right (List.not_mem_nil)
  | cons first calls ih =>
    rw [Machine.run_cons]
    apply ih
    rcases step_cases toml files first with ⟨hsame, hresult⟩ | ⟨⟨contents, -, hnew⟩, -⟩
    · rcases h with h | h
      · exact .inl (hsame ▸ h)
      · rw [Machine.outputs, Machine.observe, List.mem_cons] at h
        exact .inr (h.resolve_left fun heq => hresult heq.symm)
    · exact .inl (hnew ▸ Option.some_ne_none contents)

theorem load_of_holds (t : CaseTables) {files : Files} {settings : StoredSettings}
    (h : Holds toml files settings) (unreadable : File → Option String) :
    load t toml unreadable files = migrate t settings ∨ ∃ file message,
      unreadable file = some message ∧ load t toml unreadable files = .error message := by
  obtain ⟨contents, hcontents, hcurrent⟩ := h
  rw [← parse_toStringPretty t toml hcontents]
  exact load_of_current t toml hcurrent unreadable

end Calls

/-- Whatever the calls do, once one has completed `load` does not fall back to the defaults. It
reads the settings of the last call that completed or of a later one that was interrupted. -/
theorem saved_settings_survive (t : CaseTables) (toml : Toml) (files : Files)
    (calls : List SaveCall) :
    (∀ unreadable settings,
      load t toml unreadable (Machine.run (step toml) files calls) = .ok settings →
      settings.version = settingsVersion) ∧
    (some true ∈ Machine.outputs (step toml) files calls →
      current (Machine.run (step toml) files calls) ≠ none) ∧
    ∀ before last after, calls = before ++ last :: after →
      (step toml (Machine.run (step toml) files before) last).2 = some true →
      some true ∉
        Machine.outputs (step toml) (Machine.run (step toml) files (before ++ [last])) after →
      ∃ call, (call = last ∨
          Interrupted toml (Machine.run (step toml) files (before ++ [last])) after call) ∧
        (call.settings.version = settingsVersion →
          load t toml (fun _ => none) (Machine.run (step toml) files calls) =
            .ok (normalize t call.settings)) ∧
        ∀ unreadable,
          load t toml unreadable (Machine.run (step toml) files calls) = migrate t call.settings ∨
          ∃ file message, unreadable file = some message ∧
            load t toml unreadable (Machine.run (step toml) files calls) = .error message := by
  refine ⟨fun _ _ h => version_of_load t toml h, fun h => current_run_ne_none toml (.inr h), ?_⟩
  intro before last after hcalls hok hno
  have hsaved : Holds toml (Machine.run (step toml) files (before ++ [last])) last.settings := by
    rw [Machine.run_concat]
    rcases step_cases toml (Machine.run (step toml) files before) last with ⟨-, hresult⟩ | ⟨h, -⟩
    · exact absurd hok hresult
    · exact h
  have hrun : Machine.run (step toml) files calls =
      Machine.run (step toml) (Machine.run (step toml) files (before ++ [last])) after := by
    rw [← Machine.run_append, hcalls, List.append_assoc, List.singleton_append]
  obtain ⟨call, hwhich, hholds⟩ : ∃ call, (call = last ∨
      Interrupted toml (Machine.run (step toml) files (before ++ [last])) after call) ∧
      Holds toml (Machine.run (step toml) files calls) call.settings := by
    rw [hrun]
    rcases run_holds toml hsaved hno with hkept | ⟨call, hcall, hholds⟩
    · exact ⟨last, .inl rfl, hkept⟩
    · exact ⟨call, .inr hcall, hholds⟩
  refine ⟨call, hwhich, fun hversion => ?_, load_of_holds toml t hholds⟩
  rcases load_of_holds toml t hholds fun _ => none with hload | ⟨_, _, hnone, _⟩
  · rw [hload, migrate_of_version t hversion]
  · cases hnone

def sampleToml : Toml where
  toStringPretty settings :=
    if settings = sampleSettings ['a'] then .ok ['a']
    else if settings = sampleSettings ['b'] then .ok ['b'] else .error ""
  fromStr contents :=
    if contents = ['a'] then .ok (sampleSettings ['a'])
    else if contents = ['b'] then .ok (sampleSettings ['b']) else .error ""
  fromStr_toStringPretty := by
    intro settings contents h
    split_ifs at h with ha hb
    · rw [← Except.ok.inj h, ha]
      rfl
    · rw [← Except.ok.inj h, hb]
      rfl

def sampleCall (letter : Char) (uuid : BitVec 128) (successes : ℕ) : SaveCall where
  settings := sampleSettings [letter]
  uuid := uuid
  parts contents := [contents]
  parts_flatten contents := List.append_nil contents
  outcomes := List.replicate successes true
  survives := true

/-- The second call is killed when the old file is the backup, and the third returns an error. -/
theorem interrupted_save_recovers :
    ∃ call, (call = sampleCall 'a' 1 5 ∨
        Interrupted sampleToml (step sampleToml (fun _ => none) (sampleCall 'a' 1 5)).1
          [sampleCall 'b' 2 6, { sampleCall 'b' 3 4 with outcomes := [false] }] call) ∧
      (call.settings.version = settingsVersion →
        load sampleTables sampleToml (fun _ => none) (Machine.run (step sampleToml) (fun _ => none)
          [sampleCall 'a' 1 5, sampleCall 'b' 2 6,
            { sampleCall 'b' 3 4 with outcomes := [false] }]) =
        .ok (normalize sampleTables call.settings)) := by
  obtain ⟨call, hwhich, hload, -⟩ := (saved_settings_survive sampleTables sampleToml (fun _ => none)
    [sampleCall 'a' 1 5, sampleCall 'b' 2 6, { sampleCall 'b' 3 4 with outcomes := [false] }]).2.2
    [] (sampleCall 'a' 1 5) _ rfl (by decide +kernel) (by decide +kernel)
  exact ⟨call, hwhich, hload⟩

end MouseVpn.Gui
