import MouseVpn.Lib.Machine
import MouseVpn.Lib.RustStr
import MouseVpn.Windows.Divert
import MouseVpn.Windows.Network

/-!
# Which application a flow belongs to

A process is looked up by its executable. The answer is kept under the process id and the time
at which the process was created, as ids are used again. A process that cannot be opened has
no executable, and the flow gets the answer of an application that is not listed.
-/

namespace MouseVpn.Windows

open MouseVpn.Lib

/-- `normalize_windows_path`: the regular form of an extended-length path. -/
def normalizeWindowsPath (path : Str) : Str :=
  let value := path.replace '/' '\\'
  match value.stripPrefix ['\\', '\\', '?', '\\', 'U', 'N', 'C', '\\'] with
  | some rest => '\\' :: '\\' :: rest
  | none =>
    match value.stripPrefix ['\\', '\\', '?', '\\'] with
    | some rest => rest
    | none => value

structure Process where
  created : Option UInt64
  imageName : Option Str

def Process.imagePath (p : Process) : Option Str := p.imageName.map normalizeWindowsPath

def classificationCapacity : ℕ := 4096

structure Classifier where
  mode : AppRoutingMode
  apps : List Str
  cache : HashMap (UInt32 × UInt64) Bool

def pathsEqual (left right : Str) : Bool := left.eqIgnoreAsciiCase right

namespace Classifier

def new (policy : AppRoutingPolicy) : Classifier :=
  { mode := policy.mode
    apps := policy.apps.map fun path => normalizeWindowsPath path.toList
    cache := ∅ }

def matchesPath (c : Classifier) (path : Str) : Bool :=
  c.apps.any fun candidate => pathsEqual candidate path

def isListed (c : Classifier) (processId : UInt32) :
    Option Process → Classifier × Bool × Bool
  | none => (c, false, false)
  | some process =>
    match process.created with
    | none =>
      match process.imagePath with
      | none => (c, false, false)
      | some path => (c, c.matchesPath path, true)
    | some created =>
      match c.cache.lookup (processId, created) with
      | some listed => (c, listed, true)
      | none =>
        match process.imagePath with
        | none => (c, false, false)
        | some path =>
          let listed := c.matchesPath path
          let cache := if c.cache.entries.length ≥ classificationCapacity then ∅ else c.cache
          ({ c with cache := cache.insert (processId, created) listed }, listed, true)

def disposition : AppRoutingMode → Bool → Disposition
  | .exclude, true => .direct
  | .includeOnly, false => .direct
  | .exclude, false => .tunnel
  | .includeOnly, true => .tunnel

def classify (c : Classifier) (processId : UInt32) (process : Option Process) :
    Classifier × Disposition × Bool :=
  let (c', listed, attributed) := c.isListed processId process
  (c', disposition c.mode listed, attributed)

def consult (c : Classifier) (call : UInt32 × Option Process) : Classifier × Bool × Bool :=
  c.isListed call.1 call.2

def Names (image : UInt32 → UInt64 → Str) (call : UInt32 × Option Process) : Prop :=
  ∀ process created path, call.2 = some process → process.created = some created →
    process.imagePath = some path → image call.1 created = path

structure Remembers (image : UInt32 → UInt64 → Str) (apps : List Str) (c : Classifier) : Prop where
  apps : c.apps = apps
  cache : ∀ id created listed, c.cache.lookup (id, created) = some listed →
    listed = c.matchesPath (image id created)

theorem new_remembers (image : UInt32 → UInt64 → Str) (policy : AppRoutingPolicy) :
    Remembers image (new policy).apps (new policy) := by
  refine ⟨rfl, fun id created listed h => ?_⟩
  cases h

section Consulting

variable {image : UInt32 → UInt64 → Str} {apps : List Str} {c : Classifier}

theorem Remembers.insert (h : Remembers image apps c) (id : UInt32) (created : UInt64) :
    Remembers image apps { c with
      cache := (if c.cache.entries.length ≥ classificationCapacity then ∅ else c.cache).insert
        (id, created) (c.matchesPath (image id created)) } := by
  refine ⟨h.apps, fun id' created' listed hlookup => ?_⟩
  rw [HashMap.lookup_insert_ite] at hlookup
  split_ifs at hlookup with hkey hfull
  · rw [Prod.mk.injEq] at hkey
    rw [hkey.1, hkey.2]
    exact (Option.some.inj hlookup).symm
  · cases hlookup
  · exact h.cache id' created' listed hlookup

theorem Remembers.consult {call : UInt32 × Option Process} (h : Remembers image apps c)
    (hcall : Names image call) : Remembers image apps (c.consult call).1 := by
  obtain ⟨id, process⟩ := call
  cases process with
  | none => exact h
  | some process =>
    simp only [Classifier.consult, isListed]
    cases hcreated : process.created with
    | none => cases process.imagePath <;> exact h
    | some created =>
      simp only
      cases hlookup : c.cache.lookup (id, created) with
      | some listed => exact h
      | none =>
        cases hpath : process.imagePath with
        | none => exact h
        | some path =>
          have hname := hcall process created path rfl hcreated hpath
          simpa only [← hname] using h.insert id created

theorem consult_of_path {id : UInt32} {process : Process} {path : Str}
    (h : Remembers image apps c) (hcall : Names image (id, some process))
    (hpath : process.imagePath = some path) :
    (c.consult (id, some process)).2 = (c.matchesPath path, true) := by
  simp only [Classifier.consult, isListed, hpath]
  cases hcreated : process.created with
  | none => rfl
  | some created =>
    simp only
    cases hlookup : c.cache.lookup (id, created) with
    | none => rfl
    | some listed =>
      have hname := hcall process created path rfl hcreated hpath
      simp only [h.cache id created listed hlookup, ← hname]

theorem Remembers.run {calls : List (UInt32 × Option Process)} (h : Remembers image apps c)
    (hcalls : ∀ call ∈ calls, Names image call) :
    Remembers image apps (Machine.run Classifier.consult c calls) :=
  Machine.run_invariant_of_obeys Classifier.consult (Remembers image apps)
    (fun _ _ hinv hcall => hinv.consult hcall) h
    ((Machine.obeys_forall_iff Classifier.consult c).mpr hcalls)

end Consulting

end Classifier

end MouseVpn.Windows
