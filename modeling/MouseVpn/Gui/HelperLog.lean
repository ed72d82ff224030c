import MouseVpn.Lib.Machine
import MouseVpn.Lib.RustStr

/-!
# The log of the Windows helper

`HelperLog` appends every line of the helper to `helper.log` and counts the bytes. When the
count reaches the limit, the next write drops its handle and moves the file aside. Every call to
the file system may fail, and whether it does is an input here.
-/

namespace MouseVpn.Gui

open MouseVpn.Lib

def maxLogBytes : UInt64 := 2 * 1024 * 1024

/-- The contents of `helper.log` and of `helper.previous.log`. -/
structure LogFiles where
  log : Option Bytes
  previous : Option Bytes
  deriving DecidableEq, Repr

/-- How `remove_file` and `rename` end, if they are called. A file that was not there counts as
removed. -/
structure Rotation where
  removed : Bool
  renamed : Bool
  deriving DecidableEq, Repr

def Rotation.Succeeds (rotation : Rotation) : Prop :=
  rotation.removed = true ∧ rotation.renamed = true

def rotate (files : LogFiles) (rotation : Rotation) : LogFiles × Bool :=
  if rotation.removed then
    match files.log, rotation.renamed with
    | some contents, true => (⟨none, some contents⟩, true)
    | _, _ => (⟨files.log, none⟩, false)
  else (files, false)

def appendTo (files : LogFiles) (opened : Bool) : LogFiles × Bool :=
  if opened then ({ files with log := some (files.log.getD []) }, true) else (files, false)

/-- The handle, if there is one, is that of the present `helper.log`. -/
structure HelperLog where
  file : Bool
  written : UInt64
  files : LogFiles
  deriving DecidableEq, Repr

structure OpenCall where
  directory : Bool
  inspected : Bool
  rotation : Rotation
  opened : Bool
  measured : Bool
  deriving DecidableEq, Repr

structure WriteCall where
  message : Str
  now : ClockReading
  rotation : Rotation
  opened : Bool
  wrote : Bool
  deriving DecidableEq, Repr

def WriteCall.line (call : WriteCall) : Bytes :=
  Str.asBytes (Nat.toDigits 10 (call.now.getD 0).toNat ++ ' ' :: call.message ++ ['\n'])

namespace HelperLog

def rotateLarge (files : LogFiles) (call : OpenCall) : LogFiles × Bool :=
  if call.inspected ∧ files.log.any fun contents =>
      decide (maxLogBytes ≤ UInt64.ofNat contents.length) then
    rotate files call.rotation
  else (files, true)

/-- `HelperLog::open`, which gives up on the first error. -/
def openLog (files : LogFiles) (call : OpenCall) : Option HelperLog :=
  if call.directory then
    match rotateLarge files call with
    | (_, false) => none
    | (files, true) =>
      match appendTo files call.opened with
      | (_, false) => none
      | (files, true) =>
        some ⟨true, if call.measured then UInt64.ofNat (files.log.getD []).length else 0, files⟩
  else none

def roll (log : HelperLog) (rotation : Rotation) (opened : Bool) : HelperLog :=
  match rotate log.files rotation with
  | (files, false) => ⟨false, 0, files⟩
  | (files, true) => ⟨(appendTo files opened).2, 0, (appendTo files opened).1⟩

def ready (log : HelperLog) (call : WriteCall) : HelperLog :=
  if maxLogBytes ≤ log.written then log.roll call.rotation call.opened else log

def length64 (bytes : Bytes) : UInt64 :=
  if bytes.length < 2 ^ 64 then UInt64.ofNat bytes.length else UInt64.ofNat (2 ^ 64 - 1)

def write (log : HelperLog) (call : WriteCall) : HelperLog :=
  let log := log.ready call
  { log with
    files :=
      if log.file && call.wrote then
        { log.files with log := some (log.files.log.getD [] ++ call.line) }
      else log.files
    written := saturatingAdd log.written (length64 call.line) }

def step (log : HelperLog) (call : WriteCall) : HelperLog × Unit := (log.write call, ())

def run (log : HelperLog) (calls : List WriteCall) : HelperLog := Machine.run step log calls

variable {log : HelperLog} {call : WriteCall}

/-- The line stands at the end of `helper.log` as it was, or as the rotation has left it. -/
def Appended (log : HelperLog) (call : WriteCall) : Prop :=
  (log.write call).files.log = some ((log.ready call).files.log.getD [] ++ call.line)

def Live (log : HelperLog) : Prop := log.file = true ∧ log.files.log.isSome = true

theorem line_ne_nil (call : WriteCall) : call.line ≠ [] := by
  have h : 1 ≤ call.line.length := Str.asBytes_pos (by simp)
  exact List.ne_nil_of_length_pos h

theorem appended_iff (hwrote : call.wrote = true) :
    log.Appended call ↔ (log.ready call).file = true := by
  cases hfile : (log.ready call).file with
  | true => simp [Appended, write, hfile, hwrote]
  | false =>
    simp only [Appended, write, hfile, Bool.false_and, Bool.false_eq_true, if_false, iff_false]
    intro h
    have hlength := congrArg (fun contents => (contents.getD []).length) h
    simp only [Option.getD_some, List.length_append] at hlength
    exact line_ne_nil call (List.length_eq_zero_iff.mp (by omega))

theorem live_write_iff (hwrote : call.wrote = true) :
    (log.write call).Live ↔ (log.ready call).file = true := by
  cases hfile : (log.ready call).file with
  | true => simp [Live, write, hfile, hwrote]
  | false => simp [Live, write, hfile]

theorem ready_file_iff (hlive : log.Live) (hopened : call.opened = true) :
    (log.ready call).file = true ↔ (maxLogBytes ≤ log.written → call.rotation.Succeeds) := by
  obtain ⟨hfile, hlog⟩ := hlive
  obtain ⟨contents, hcontents⟩ := Option.isSome_iff_exists.mp hlog
  by_cases hlarge : maxLogBytes ≤ log.written
  · simp only [ready, hlarge, if_true, forall_const, Rotation.Succeeds]
    cases hremoved : call.rotation.removed with
    | false => simp [roll, rotate, hremoved]
    | true =>
      cases hrenamed : call.rotation.renamed with
      | false => simp [roll, rotate, hremoved, hrenamed]
      | true => simp [roll, rotate, appendTo, hremoved, hrenamed, hcontents, hopened]
  · rw [ready, if_neg hlarge]
    exact iff_of_true hfile fun h => absurd h hlarge

theorem appendTo_isSome {files files' : LogFiles} {opened : Bool}
    (h : appendTo files opened = (files', true)) : files'.log.isSome = true := by
  cases opened with
  | false => cases h
  | true =>
    cases h
    rfl

theorem openLog_live {files : LogFiles} {call : OpenCall} (h : openLog files call = some log) :
    log.Live := by
  unfold openLog at h
  split at h
  · split at h
    · cases h
    · split at h
      · cases h
      · next happend =>
        cases h
        exact ⟨rfl, appendTo_isSome happend⟩
  · cases h

/-- Every message reaches `helper.log` exactly if no rotation fails. -/
theorem messages_appended_iff {files : LogFiles} {opening : OpenCall}
    (h : openLog files opening = some log) (calls : List WriteCall)
    (hio : ∀ call ∈ calls, call.opened = true ∧ call.wrote = true) :
    Machine.Obeys step Appended log calls ↔
      Machine.Obeys step (fun log call => maxLogBytes ≤ log.written → call.rotation.Succeeds)
        log calls := by
  have hlive := openLog_live h
  have hobeys : Machine.Obeys step (fun _ call => call.opened = true ∧ call.wrote = true)
      log calls := (Machine.obeys_forall_iff step log).mpr hio
  -- both sides say that there is a handle all along
  rw [Machine.obeys_iff_invariant_of_obeys step Live ?_ hlive hobeys,
    Machine.obeys_iff_invariant_of_obeys step Live ?_ hlive hobeys]
  · intro log call hlive ⟨hopened, hwrote⟩
    exact (live_write_iff hwrote).trans (ready_file_iff hlive hopened)
  · intro log call _ ⟨_, hwrote⟩
    exact (live_write_iff hwrote).trans (appended_iff hwrote).symm

theorem roll_of_failed (log : HelperLog) {rotation : Rotation} (h : ¬ rotation.Succeeds)
    (opened : Bool) :
    (log.roll rotation opened).file = false ∧
      (log.roll rotation opened).files.log = log.files.log := by
  cases hremoved : rotation.removed with
  | false => simp [roll, rotate, hremoved]
  | true =>
    have hrenamed : rotation.renamed = false := by
      cases hr : rotation.renamed with
      | false => rfl
      | true => exact absurd ⟨hremoved, hr⟩ h
    simp [roll, rotate, hremoved, hrenamed]

theorem write_without_file (hfile : log.file = false) (hsmall : log.written < maxLogBytes) :
    (log.write call).file = false ∧ (log.write call).files = log.files := by
  have hready : log.ready call = log := if_neg (UInt64.not_le.mpr hsmall)
  simp [write, hready, hfile]

/-- After a failed rotation the log stays as it is until the count has reached the limit again. -/
theorem silent_after_failed_rotation (hlarge : maxLogBytes ≤ log.written)
    (hfailed : ¬ call.rotation.Succeeds) {later : List WriteCall}
    (hsmall : Machine.Obeys step (fun log _ => log.written < maxLogBytes) (log.write call) later) :
    ((log.write call).run later).files.log = log.files.log := by
  obtain ⟨hfile, hlog⟩ := log.roll_of_failed hfailed call.opened
  have hready : log.ready call = log.roll call.rotation call.opened := if_pos hlarge
  have hwrite : (log.write call).file = false ∧ (log.write call).files.log = log.files.log := by
    simp [write, hready, hfile, hlog]
  refine (Machine.run_invariant_of_obeys step
    (fun log' => log'.file = false ∧ log'.files.log = log.files.log) ?_ hwrite hsmall).2
  intro log' call' ⟨hfile', hlog'⟩ hsmall'
  obtain ⟨hnext, hfiles⟩ := write_without_file hfile' hsmall'
  exact ⟨hnext, (congrArg LogFiles.log hfiles).trans hlog'⟩

section Sample

def worked : Rotation := ⟨true, true⟩

def locked : Rotation := ⟨true, false⟩

def opens : OpenCall := ⟨true, true, worked, true, true⟩

def letter (c : Char) (rotation : Rotation) : WriteCall := ⟨[c], some 7, rotation, true, true⟩

def nearlyFull : Bytes := List.replicate 2097151 0

theorem nearlyFull_length : nearlyFull.length = 2097151 := List.length_replicate

-- these two are stated for any contents, so that no list of this length is ever evaluated

theorem openLog_of_length {contents : Bytes} (h : contents.length = 2097151) :
    openLog ⟨some contents, none⟩ opens = some ⟨true, 2097151, ⟨some contents, none⟩⟩ := by
  have hsmall : ¬ maxLogBytes ≤ 2097151 := by decide
  have hkeep : rotateLarge ⟨some contents, none⟩ opens = (⟨some contents, none⟩, true) := by
    simp [rotateLarge, h, hsmall]
  simp only [openLog, hkeep]
  simp [opens, appendTo, h]

theorem run_locked (contents : Bytes) :
    (run ⟨true, 2097151, ⟨some contents, none⟩⟩
      [letter 'a' worked, letter 'b' locked, letter 'c' worked]).files =
        ⟨some (contents ++ (letter 'a' worked).line), none⟩ := by
  rfl

theorem rotated_log_complete :
    openLog ⟨some nearlyFull, none⟩ opens = some ⟨true, 2097151, ⟨some nearlyFull, none⟩⟩ ∧
      Machine.Obeys step Appended ⟨true, 2097151, ⟨some nearlyFull, none⟩⟩
        [letter 'a' worked, letter 'b' worked] := by
  have hopen := openLog_of_length nearlyFull_length
  refine ⟨hopen, (messages_appended_iff hopen _ ?_).mpr ?_⟩
  · simp [letter]
  · exact ⟨fun _ => ⟨rfl, rfl⟩, fun _ => ⟨rfl, rfl⟩, trivial⟩

/-- The second message meets a locked file, and the third one goes the same way although nothing
fails any more. -/
theorem locked_log_silent :
    openLog ⟨some nearlyFull, none⟩ opens = some ⟨true, 2097151, ⟨some nearlyFull, none⟩⟩ ∧
      (∀ call ∈ [letter 'a' worked, letter 'b' locked, letter 'c' worked],
        call.opened = true ∧ call.wrote = true) ∧
      (run ⟨true, 2097151, ⟨some nearlyFull, none⟩⟩
        [letter 'a' worked, letter 'b' locked, letter 'c' worked]).files =
          ⟨some (nearlyFull ++ (letter 'a' worked).line), none⟩ :=
  ⟨openLog_of_length nearlyFull_length, by simp [letter], run_locked nearlyFull⟩

theorem full_log_silent :
    openLog ⟨some nearlyFull, none⟩ opens = some ⟨true, 2097151, ⟨some nearlyFull, none⟩⟩ ∧
      (((run ⟨true, 2097151, ⟨some nearlyFull, none⟩⟩ [letter 'a' worked]).write
        (letter 'b' locked)).run [letter 'c' worked]).files.log =
          some (nearlyFull ++ (letter 'a' worked).line) := by
  refine ⟨openLog_of_length nearlyFull_length, ?_⟩
  generalize nearlyFull = contents
  have hfull : run ⟨true, 2097151, ⟨some contents, none⟩⟩ [letter 'a' worked] =
      ⟨true, 2097155, ⟨some (contents ++ (letter 'a' worked).line), none⟩⟩ := rfl
  have hlarge : maxLogBytes ≤ 2097155 := by decide
  have hfailed : ¬ (letter 'b' locked).rotation.Succeeds := by
    simp [letter, locked, Rotation.Succeeds]
  rw [hfull]
  exact silent_after_failed_rotation hlarge hfailed ⟨show 4 < maxLogBytes by decide, trivial⟩

end Sample

end HelperLog

end MouseVpn.Gui
