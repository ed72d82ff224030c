import MouseVpn.Lib.Machine
import MouseVpn.Windows.Classifier

/-!
# The two watchers of flows

One watcher reads the events of the socket layer, the other those of the flow layer. Both write
into the table by the five-tuple of the flow. An event is first classified and then recorded,
and the other watcher may act in between. What the table should answer is kept beside it: the
last decision for a real process, until the very flow or socket that it was made for ends.
-/

namespace MouseVpn.Windows

open MouseVpn.Lib

namespace FlowTable

def insert (table : FlowTable) (key : FlowKey) (disposition : Disposition) : FlowTable :=
  ⟨table.entries.insert key disposition⟩

def insertUnattributed (table : FlowTable) (key : FlowKey) (disposition : Disposition) :
    FlowTable :=
  match table.entries.lookup key with
  | some _ => table
  | none => ⟨table.entries.insert key disposition⟩

def remove (table : FlowTable) (key : FlowKey) : FlowTable := ⟨table.entries.erase key⟩

def clear (_ : FlowTable) : FlowTable := ⟨∅⟩

variable (table : FlowTable) (key other : FlowKey) (disposition : Disposition)

theorem lookup_insert : (table.insert key disposition).lookup other =
    if other = key then some disposition else table.lookup other :=
  HashMap.lookup_insert_ite ..

theorem lookup_remove : (table.remove key).lookup other =
    if other = key then none else table.lookup other :=
  HashMap.lookup_erase_ite ..

theorem lookup_insertUnattributed {d : Disposition} (h : table.lookup other = some d) :
    (table.insertUnattributed key disposition).lookup other = some d := by
  rw [insertUnattributed]
  cases hkey : table.entries.lookup key with
  | some _ => exact h
  | none =>
    have hne : other ≠ key := by
      intro heq
      rw [lookup, heq, hkey] at h
      cases h
    exact (HashMap.lookup_insert_ite ..).trans ((if_neg hne).trans h)

end FlowTable

inductive Watcher
  | socket
  | flow
  deriving DecidableEq, Repr

/-- The data of an event, with the key that `flow_key` reads from it. -/
structure FlowData where
  endpointId : UInt64
  processId : UInt32
  key : FlowKey
  deriving DecidableEq

structure Verdict where
  flow : FlowData
  disposition : Disposition
  attributed : Bool

inductive FlowEvent
  /-- A connect or established event, with what the system tells about the process. -/
  | classified (watcher : Watcher) (flow : FlowData) (process : Option Process)
  | recorded (watcher : Watcher)
  | removed (watcher : Watcher) (flow : FlowData)
  | cleared

structure Watching where
  table : FlowTable
  classifier : Classifier
  pending : Watcher → Option Verdict

namespace Watching

def start (classifier : Classifier) : Watching := ⟨⟨∅⟩, classifier, fun _ => none⟩

def record (s : Watching) (v : Verdict) : Watching :=
  if v.attributed then { s with table := s.table.insert v.flow.key v.disposition }
  else { s with table := s.table.insertUnattributed v.flow.key v.disposition }

def next (s : Watching) : FlowEvent → Watching
  | .classified watcher flow process =>
    match s.pending watcher with
    | some _ => s
    | none =>
      let (classifier, disposition, attributed) := s.classifier.classify flow.processId process
      { s with
        classifier
        pending := Function.update s.pending watcher (some ⟨flow, disposition, attributed⟩) }
  | .recorded watcher =>
    match s.pending watcher with
    | none => s
    | some verdict => { s.record verdict with pending := Function.update s.pending watcher none }
  | .removed watcher flow =>
    match s.pending watcher with
    | some _ => s
    | none => { s with table := s.table.remove flow.key }
  | .cleared => { s with table := s.table.clear }

end Watching

/-- The decision that the last attributed event set, and the flow or socket of that event. -/
structure Standing where
  disposition : Disposition
  endpoint : UInt64

abbrev Decisions := FlowKey → Option Standing

namespace Decisions

def record (d : Decisions) (v : Verdict) : Decisions :=
  if v.attributed then
    Function.update d v.flow.key (some ⟨v.disposition, v.flow.endpointId⟩)
  else d

def remove (d : Decisions) (flow : FlowData) : Decisions :=
  if (d flow.key).map Standing.endpoint = some flow.endpointId then
    Function.update d flow.key none
  else d

def next (d : Decisions) (pending : Watcher → Option Verdict) : FlowEvent → Decisions
  | .classified _ _ _ => d
  | .recorded watcher =>
    match pending watcher with
    | none => d
    | some verdict => d.record verdict
  | .removed watcher flow =>
    match pending watcher with
    | some _ => d
    | none => d.remove flow
  | .cleared => fun _ => none

end Decisions

namespace Watching

def step (s : Watching × Decisions) (event : FlowEvent) : (Watching × Decisions) × Unit :=
  ((s.1.next event, s.2.next s.1.pending event), ())

def run (classifier : Classifier) (events : List FlowEvent) : Watching × Decisions :=
  Machine.run step (start classifier, fun _ => none) events

def Answers (s : Watching × Decisions) : Prop :=
  ∀ key standing, s.2 key = some standing → s.1.table.lookup key = some standing.disposition

def Foreign (s : Watching × Decisions) : FlowEvent → Prop
  | .removed watcher flow => s.1.pending watcher = none ∧
      ∃ standing, s.2 flow.key = some standing ∧ standing.endpoint ≠ flow.endpointId
  | _ => False

variable {s : Watching} {d : Decisions}

theorem answers_none (s : Watching) : Answers (s, fun _ => none) := by
  intro key standing h
  cases h

theorem answers_record (h : Answers (s, d)) (v : Verdict) : Answers (s.record v, d.record v) := by
  intro key standing hstanding
  simp only [record, Decisions.record] at hstanding ⊢
  split_ifs at hstanding ⊢ with hattributed
  · rw [FlowTable.lookup_insert]
    rw [Function.update_apply] at hstanding
    split_ifs at hstanding ⊢ with hkey
    · rw [← Option.some.inj hstanding]
    · exact h key standing hstanding
  · exact FlowTable.lookup_insertUnattributed _ _ _ _ (h key standing hstanding)

theorem answers_remove_iff (h : Answers (s, d)) (flow : FlowData) :
    Answers ({ s with table := s.table.remove flow.key }, d.remove flow) ↔
      ¬ ∃ standing, d flow.key = some standing ∧ standing.endpoint ≠ flow.endpointId := by
  constructor
  · rintro hremoved ⟨standing, hstanding, hforeign⟩
    have hkept : d.remove flow = d := if_neg fun hown => by
      rw [hstanding] at hown
      exact hforeign (Option.some.inj hown)
    rw [hkept] at hremoved
    have hlookup := hremoved flow.key standing hstanding
    rw [FlowTable.lookup_remove, if_pos rfl] at hlookup
    cases hlookup
  · intro hown key standing hstanding
    simp only [Decisions.remove] at hstanding ⊢
    rw [FlowTable.lookup_remove]
    by_cases hendpoint : (d flow.key).map Standing.endpoint = some flow.endpointId
    · rw [if_pos hendpoint, Function.update_apply] at hstanding
      split_ifs at hstanding ⊢ with hkey
      exact h key standing hstanding
    · -- the flow is not behind a decision, so there is none for its key
      rw [if_neg hendpoint] at hstanding
      have hne : key ≠ flow.key := by
        intro hkey
        rw [hkey] at hstanding
        refine hown ⟨standing, hstanding, fun heq => hendpoint ?_⟩
        rw [hstanding, Option.map_some, heq]
      rw [if_neg hne]
      exact h key standing hstanding

theorem answers_step_iff (h : Answers (s, d)) (event : FlowEvent) :
    Answers (step (s, d) event).1 ↔ ¬ Foreign (s, d) event := by
  cases event with
  | classified watcher flow process =>
    refine iff_of_true ?_ not_false
    simp only [step, next, Decisions.next]
    cases s.pending watcher <;> exact h
  | recorded watcher =>
    refine iff_of_true ?_ not_false
    simp only [step, next, Decisions.next]
    cases s.pending watcher with
    | none => exact h
    | some verdict => exact answers_record h verdict
  | removed watcher flow =>
    simp only [step, next, Decisions.next, Foreign]
    cases s.pending watcher with
    | some verdict => exact iff_of_true h (by simp)
    | none => exact (answers_remove_iff h flow).trans (by simp)
  | cleared => exact iff_of_true (answers_none _) not_false

/-- The table keeps answering with the decisions for real processes exactly if no event ends
another flow than the one that the decision for its key was made for. -/
theorem decisions_answered_iff (classifier : Classifier) (events : List FlowEvent) :
    (∀ pre post, events = pre ++ post → ∀ key standing,
      (run classifier pre).2 key = some standing →
        (run classifier pre).1.table.lookup key = some standing.disposition) ↔
    Machine.Obeys step (fun s event => ¬ Foreign s event) (start classifier, fun _ => none)
      events :=
  (Machine.obeys_iff_invariant step Answers (fun _ event h => answers_step_iff h event)
    (answers_none _)).symm

section Sample

def listedBrowser : Classifier :=
  { mode := .includeOnly
    apps := [['C', ':', '\\', 'b']]
    cache := ∅ }

def duplicateKey : FlowKey :=
  { protocol := protocolTcp
    localAddress := .v4 ⟨10, 0, 0, 2⟩
    localPort := 51000
    remoteAddress := .v4 ⟨93, 184, 216, 34⟩
    remotePort := 443 }

def duplicateDeleted : List FlowEvent :=
  [.classified .socket ⟨1, 4242, duplicateKey⟩ (some ⟨some 7, some ['c', ':', '\\', 'B']⟩),
    .recorded .socket,
    .classified .flow ⟨2, 4, duplicateKey⟩ none,
    .recorded .flow,
    .removed .flow ⟨2, 4, duplicateKey⟩]

theorem duplicate_end_removes_decision :
    (run listedBrowser (duplicateDeleted.take 4)).1.table.lookup duplicateKey = some .tunnel ∧
    ((run listedBrowser duplicateDeleted).2 duplicateKey).map Standing.disposition =
      some .tunnel ∧
    (run listedBrowser duplicateDeleted).1.table.lookup duplicateKey = none := by
  decide

end Sample

end Watching

end MouseVpn.Windows
