import MouseVpn.Lib.HashMap

/-!
# Tables whose entries expire

An entry is live from its birth for the length of a window. A sweep removes what is not live,
and it may happen at any time: nothing that is read through `current`, now or later, depends on
the sweeps of the past.
-/

namespace MouseVpn.Lib.Expiry

universe u v
variable {κ : Type u} {ν : Type v} (born : ν → ℕ) (window : ℕ)

def live (now : ℕ) (x : ν) : Bool := decide (now - born x < window)

theorem live_iff {now : ℕ} {x : ν} : live born window now x = true ↔ now - born x < window := by
  simp [live]

theorem live_of_le {now later : ℕ} (h : now ≤ later) {x : ν}
    (hx : live born window later x = true) : live born window now x = true := by
  rw [live_iff] at hx ⊢
  omega

def sweep (now : ℕ) (m : HashMap κ ν) : HashMap κ ν :=
  HashMap.retain (fun _ x => live born window now x) m

def liveCount (now : ℕ) (m : HashMap κ ν) : ℕ := (sweep born window now m).keys.length

theorem sweep_length_le (now : ℕ) (m : HashMap κ ν) :
    (sweep born window now m).keys.length ≤ m.keys.length := by
  simp only [AList.keys, List.keys, List.length_map]
  exact List.length_filter_le _ _

variable [DecidableEq κ]

def current (m : HashMap κ ν) (k : κ) (now : ℕ) : Option ν :=
  (m.lookup k).filter (live born window now)

variable {born window}

theorem current_eq_some {m : HashMap κ ν} {k : κ} {now : ℕ} {x : ν} :
    current born window m k now = some x ↔
      m.lookup k = some x ∧ live born window now x = true := by
  rw [current, Option.filter_eq_some_iff]

theorem current_congr {m m' : HashMap κ ν} {k : κ} (h : m.lookup k = m'.lookup k) (now : ℕ) :
    current born window m k now = current born window m' k now := by
  rw [current, current, h]

theorem filter_live_live {now later : ℕ} (h : now ≤ later) (o : Option ν) :
    (o.filter (live born window now)).filter (live born window later) =
      o.filter (live born window later) := by
  ext x
  rw [Option.filter_eq_some_iff, Option.filter_eq_some_iff, Option.filter_eq_some_iff]
  constructor
  · rintro ⟨⟨found, -⟩, hx⟩
    exact ⟨found, hx⟩
  · rintro ⟨found, hx⟩
    exact ⟨⟨found, live_of_le born window h hx⟩, hx⟩

theorem current_sweep {now later : ℕ} (h : now ≤ later) (m : HashMap κ ν) (k : κ) :
    current born window (sweep born window now m) k later = current born window m k later := by
  rw [current, sweep, HashMap.lookup_retain]
  exact filter_live_live h _

theorem current_eq_later {now later : ℕ} (h : now ≤ later) {m m' : HashMap κ ν} {k : κ}
    (heq : current born window m k now = current born window m' k now) :
    current born window m k later = current born window m' k later := by
  rw [current, current, ← filter_live_live h (m.lookup k), ← filter_live_live h (m'.lookup k)]
  exact congrArg _ heq

theorem lookup_of_lookup_sweep {now : ℕ} {m : HashMap κ ν} {k : κ} {x : ν}
    (h : (sweep born window now m).lookup k = some x) :
    m.lookup k = some x ∧ live born window now x = true := by
  rw [sweep, HashMap.lookup_retain, Option.filter_eq_some_iff] at h
  exact h

theorem sweep_eq_self {now : ℕ} {m : HashMap κ ν}
    (h : ∀ k x, m.lookup k = some x → live born window now x = true) :
    sweep born window now m = m := by
  apply AList.ext
  change m.entries.filter _ = m.entries
  apply List.filter_eq_self.mpr
  intro e he
  exact h e.1 e.2 (HashMap.lookup_eq_some_iff.mpr he)

theorem length_le_liveCount_iff {now : ℕ} {m : HashMap κ ν} :
    m.keys.length ≤ liveCount born window now m ↔
      ∀ k x, m.lookup k = some x → live born window now x = true := by
  constructor
  · intro h k x found
    have hlength : m.entries.length ≤ (m.entries.filter
        (fun e => live born window now e.2)).length := by
      simpa [liveCount, sweep, HashMap.retain, AList.keys, List.keys] using h
    have hall := List.length_filter_eq_length_iff.mp
      (Nat.le_antisymm (List.length_filter_le _ _) hlength)
    exact hall ⟨k, x⟩ (HashMap.lookup_eq_some_iff.mp found)
  · intro h
    rw [liveCount, sweep_eq_self h]

end MouseVpn.Lib.Expiry
