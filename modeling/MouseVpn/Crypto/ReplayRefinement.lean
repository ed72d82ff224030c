import MouseVpn.Crypto.Replay
import MouseVpn.Lib.Machine
import MouseVpn.Lib.SlidingWindow

/-!
# The bitmap window refines the set-based window

`Represents` ties a bitmap to the list of marked sequences. Only the words
within 128 of the highest one are constrained: a slot outside that range may
hold stale bits of a word 129 below, and those bits are cleared before the word
that reuses the slot becomes live. The 129 live words occupy distinct slots.
-/

namespace MouseVpn.Crypto.ReplayWindow

open MouseVpn.Lib MouseVpn.Lib.SlidingWindow

/-- Word `word` is among the 129 words that end at the word of `h`. -/
def Live (h word : ℕ) : Prop := word ≤ h / 64 ∧ h / 64 ≤ word + 128

structure Represents (w : ReplayWindow) (marked : List ℕ) : Prop where
  empty : w.highest = none → marked = [] ∧ ∀ word bit, ¬ cell w.seen word bit = true
  highest : ∀ h, w.highest = some h → Highest marked h.toNat
  live : ∀ h, w.highest = some h → ∀ s, Live h.toNat (s / 64) →
    (cell w.seen (s / 64) (s % 64) = true ↔ s ∈ marked)

theorem default_represents : Represents default [] where
  empty _ := ⟨rfl, by simp [default]⟩
  highest h hh := by simp [default] at hh
  live h hh := by simp [default] at hh

def resultOf : Verdict → Except ReplayError Unit
  | .fresh => .ok ()
  | .duplicate => .error .duplicate
  | .tooOld => .error .tooOld

theorem ensureAcceptable_eq {w : ReplayWindow} {marked : List ℕ} (hr : Represents w marked)
    (s : UInt64) : w.ensureAcceptable s = resultOf (judge 8192 marked s.toNat) := by
  unfold ensureAcceptable
  cases hh : w.highest with
  | none =>
    obtain ⟨hm, -⟩ := hr.empty hh
    simp [hm, judge, resultOf]
  | some h =>
    have hg := hr.highest h hh
    simp only [gt_iff_lt, ge_iff_le, judge, behind_iff 8192 hg]
    by_cases hlt : h < s
    · have hlt' : h.toNat < s.toNat := UInt64.lt_iff_toNat_lt.mp hlt
      have hs : s.toNat ∉ marked := fun hm => absurd (hg.2 hm) (by omega)
      have hn : ¬ s.toNat + 8192 ≤ h.toNat := by omega
      simp [hlt, hn, hs, resultOf]
    · have hle : s ≤ h := UInt64.not_lt.mp hlt
      have hle' : s.toNat ≤ h.toNat := UInt64.le_iff_toNat_le.mp hle
      have hold : replayWindowSize ≤ h - s ↔ s.toNat + 8192 ≤ h.toNat := by
        rw [UInt64.le_iff_toNat_le, UInt64.toNat_sub_of_le _ _ hle]
        change 8192 ≤ _ ↔ _
        omega
      rw [if_neg hlt]
      by_cases ho : s.toNat + 8192 ≤ h.toNat
      · simp [hold, ho, resultOf]
      · have hlive : Live h.toNat (s.toNat / 64) := ⟨by omega, by omega⟩
        have hb := hr.live h hh s.toNat hlive
        rw [if_neg (hold.not.mpr ho), if_neg ho]
        by_cases hm : s.toNat ∈ marked
        · rw [if_pos ((seen_mask_iff _ _).mpr (hb.mpr hm)), if_pos hm]
          rfl
        · rw [if_neg ((seen_mask_iff _ _).not.mpr (hb.not.mpr hm)), if_neg hm]
          rfl

theorem Live.eq_of_slot {h s t : ℕ} (hs : Live h (s / 64)) (ht : Live h (t / 64))
    (hslot : s / 64 % wordCount = t / 64 % wordCount) (hbit : s % 64 = t % 64) : s = t := by
  obtain ⟨hs1, hs2⟩ := hs
  obtain ⟨ht1, ht2⟩ := ht
  rw [wordCount_eq] at hslot
  omega

theorem mark_first {w : ReplayWindow} (hr : Represents w []) (hn : w.highest = none)
    (s : UInt64) : Represents (w.markAuthenticated s) [s.toNat] := by
  obtain ⟨-, hc⟩ := hr.empty hn
  simp only [markAuthenticated, hn]
  refine ⟨by simp, ?_, ?_⟩
  · rintro h ⟨⟩
    exact ⟨by simp, fun m hm => (List.mem_singleton.mp hm).le⟩
  · rintro h ⟨⟩ t ht
    rw [cell_put_mask]
    have hs : Live s.toNat (s.toNat / 64) := ⟨le_rfl, by omega⟩
    constructor
    · rintro (h | ⟨h1, h2⟩)
      · exact absurd h (hc _ _)
      · simpa using (hs.eq_of_slot ht h1 h2).symm
    · intro hm
      have he : t = s.toNat := by simpa using hm
      subst he
      exact Or.inr ⟨rfl, rfl⟩

theorem mark_inside {w : ReplayWindow} {marked : List ℕ} (hr : Represents w marked)
    {h : UInt64} (hh : w.highest = some h) {s : UInt64} (hle : s ≤ h)
    (hin : h.toNat < s.toNat + 8192) :
    Represents (w.markAuthenticated s) (s.toNat :: marked) := by
  have hle' : s.toNat ≤ h.toNat := UInt64.le_iff_toNat_le.mp hle
  have hgt : ¬ s > h := UInt64.not_lt.mpr hle
  simp only [markAuthenticated, hh, if_neg hgt]
  refine ⟨by simp, ?_, ?_⟩
  · rintro _ ⟨⟩
    exact highest_cons_of_le (hr.highest h hh) hle'
  · rintro _ ⟨⟩ t ht
    have hs : Live h.toNat (s.toNat / 64) := ⟨by omega, by omega⟩
    rw [cell_put_mask, hr.live h hh t ht, List.mem_cons]
    constructor
    · rintro (hm | ⟨h1, h2⟩)
      · exact Or.inr hm
      · exact Or.inl (hs.eq_of_slot ht h1 h2).symm
    · rintro (he | hm)
      · subst he
        exact Or.inr ⟨rfl, rfl⟩
      · exact Or.inl hm

theorem advance_live {w : ReplayWindow} {marked : List ℕ} (hr : Represents w marked)
    {h : UInt64} (hh : w.highest = some h) {s : UInt64} (hlt : h.toNat < s.toNat) {t : ℕ}
    (ht : Live s.toNat (t / 64)) :
    cell (if s / wordBits - h / wordBits ≥ UInt64.ofNat wordCount then Vector.replicate wordCount 0
        else clearWords w.seen (h / wordBits) (s / wordBits - h / wordBits).toNat)
      (t / 64) (t % 64) = true ↔ t ∈ marked := by
  obtain ⟨ht1, ht2⟩ := ht
  have hg := hr.highest h hh
  have hww : h / wordBits ≤ s / wordBits := by
    rw [UInt64.le_iff_toNat_le, word_toNat, word_toNat]
    omega
  have hsub : (s / wordBits - h / wordBits).toNat = s.toNat / 64 - h.toNat / 64 := by
    rw [UInt64.toNat_sub_of_le _ _ hww, word_toNat, word_toNat]
  have hjump : s / wordBits - h / wordBits ≥ UInt64.ofNat wordCount ↔
      129 ≤ s.toNat / 64 - h.toNat / 64 := by
    rw [ge_iff_le, UInt64.le_iff_toNat_le, hsub, wordCount_eq]
    rfl
  -- A word past the old highest one holds no marks.
  have hnew : h.toNat / 64 < t / 64 → t ∉ marked := fun hw hm => absurd (hg.2 hm) (by omega)
  by_cases hj : s / wordBits - h / wordBits ≥ UInt64.ofNat wordCount
  · rw [if_pos hj, cell_replicate]
    have hj' := hjump.mp hj
    simp [hnew (by omega)]
  · have hj' := hjump.not.mp hj
    have hs64 : s.toNat < 2 ^ 64 := s.toNat_lt
    rw [if_neg hj, hsub, cell_clearWords _ _ _ _ _ (by rw [word_toNat]; omega), word_toNat]
    by_cases hw : h.toNat / 64 < t / 64
    · have hc : ¬ ∀ x, h.toNat / 64 < x → x ≤ h.toNat / 64 + (s.toNat / 64 - h.toNat / 64) →
          x % wordCount ≠ t / 64 % wordCount := fun hall => hall (t / 64) hw (by omega) rfl
      simp only [hc, hnew hw, false_and]
    · have hc : ∀ x, h.toNat / 64 < x → x ≤ h.toNat / 64 + (s.toNat / 64 - h.toNat / 64) →
          x % wordCount ≠ t / 64 % wordCount := by
        intro x h1 h2
        rw [wordCount_eq]
        omega
      rw [and_iff_right hc]
      exact hr.live h hh t ⟨by omega, by omega⟩

theorem mark_ahead {w : ReplayWindow} {marked : List ℕ} (hr : Represents w marked)
    {h : UInt64} (hh : w.highest = some h) {s : UInt64} (hlt : h < s) :
    Represents (w.markAuthenticated s) (s.toNat :: marked) := by
  have hlt' : h.toNat < s.toNat := UInt64.lt_iff_toNat_lt.mp hlt
  simp only [markAuthenticated, hh, gt_iff_lt, if_pos hlt]
  refine ⟨by simp, ?_, ?_⟩
  · rintro _ ⟨⟩
    exact highest_cons_of_lt (hr.highest h hh) hlt'
  · rintro _ ⟨⟩ t ht
    have hs : Live s.toNat (s.toNat / 64) := ⟨le_rfl, by omega⟩
    rw [cell_put_mask, advance_live hr hh hlt' ht, List.mem_cons]
    constructor
    · rintro (hm | ⟨h1, h2⟩)
      · exact Or.inr hm
      · exact Or.inl (hs.eq_of_slot ht h1 h2).symm
    · rintro (he | hm)
      · subst he
        exact Or.inr ⟨rfl, rfl⟩
      · exact Or.inl hm

theorem fresh_of_acceptable {w : ReplayWindow} {marked : List ℕ} (hr : Represents w marked)
    {s : UInt64} (hok : w.ensureAcceptable s = .ok ()) :
    judge 8192 marked s.toNat = .fresh := by
  rw [ensureAcceptable_eq hr] at hok
  cases hv : judge 8192 marked s.toNat <;> simp_all [resultOf]

theorem not_mem_of_acceptable {w : ReplayWindow} {marked : List ℕ} (hr : Represents w marked)
    {s : UInt64} (hok : w.ensureAcceptable s = .ok ()) : s.toNat ∉ marked :=
  ((judge_fresh_iff 8192 marked s.toNat).mp (fresh_of_acceptable hr hok)).1

theorem mark_represents {w : ReplayWindow} {marked : List ℕ} (hr : Represents w marked)
    {s : UInt64} (hok : w.ensureAcceptable s = .ok ()) :
    Represents (w.markAuthenticated s) (s.toNat :: marked) := by
  cases hh : w.highest with
  | none =>
    obtain ⟨hm, -⟩ := hr.empty hh
    subst hm
    exact mark_first hr hh s
  | some h =>
    by_cases hlt : h < s
    · exact mark_ahead hr hh hlt
    · have hle : s ≤ h := UInt64.not_lt.mp hlt
      have hle' : s.toNat ≤ h.toNat := UInt64.le_iff_toNat_le.mp hle
      refine mark_inside hr hh hle ?_
      have := ((judge_fresh_iff 8192 marked s.toNat).mp (fresh_of_acceptable hr hok)).2 _
        (hr.highest h hh) hle'
      omega

def receive (w : ReplayWindow) (s : UInt64) : ReplayWindow × Except ReplayError Unit :=
  match w.ensureAcceptable s with
  | .ok () => (w.markAuthenticated s, .ok ())
  | .error e => (w, .error e)

@[simp] theorem receive_snd (w : ReplayWindow) (s : UInt64) :
    (w.receive s).2 = w.ensureAcceptable s := by
  unfold receive
  cases hv : w.ensureAcceptable s <;> rfl

def markedIn (w : ReplayWindow) (ss : List UInt64) : List UInt64 :=
  ((ss.zip (Machine.outputs receive w ss)).filter (fun p => p.2.isOk)).map Prod.fst

theorem markedIn_concat (w : ReplayWindow) (ss : List UInt64) (s : UInt64) :
    markedIn w (ss ++ [s]) = markedIn w ss ++
      if ((Machine.run receive w ss).ensureAcceptable s).isOk then [s] else [] := by
  have hz : (ss ++ [s]).zip (Machine.outputs receive w (ss ++ [s])) =
      ss.zip (Machine.outputs receive w ss) ++
        [(s, (receive (Machine.run receive w ss) s).2)] := by
    rw [Machine.outputs, Machine.observe_concat, List.zip_append (by simp)]
    rfl
  simp only [markedIn, hz, List.filter_append, List.map_append, receive_snd]
  cases hk : ((Machine.run receive w ss).ensureAcceptable s).isOk <;> simp [hk]

theorem run_represents (ss : List UInt64) :
    Represents (Machine.run receive default ss)
      ((markedIn default ss).map UInt64.toNat).reverse ∧
      ((markedIn default ss).map UInt64.toNat).Nodup := by
  refine Machine.run_induction receive
    (fun ss w => Represents w ((markedIn default ss).map UInt64.toNat).reverse ∧
      ((markedIn default ss).map UInt64.toNat).Nodup)
    ⟨by simpa [markedIn] using default_represents, by simp [markedIn]⟩ ?_ ss
  rintro ss s ⟨hr, hn⟩
  rw [markedIn_concat]
  cases hv : (Machine.run receive default ss).ensureAcceptable s with
  | error e => simpa [receive, hv, Except.isOk, Except.toBool] using ⟨hr, hn⟩
  | ok u =>
    have hm := mark_represents hr hv
    have hf := not_mem_of_acceptable hr hv
    constructor
    · simpa [receive, hv, Except.isOk, Except.toBool] using hm
    · simpa [Except.isOk, Except.toBool, List.nodup_append, hn] using hf

def windowAfter (ss : List UInt64) : ReplayWindow := Machine.run receive default ss

def marksOf (ss : List UInt64) : List ℕ := (markedIn default ss).map UInt64.toNat

/-- Over every run the bitmap answers as the set of marked sequences does. -/
theorem replayWindow_refines (ss : List UInt64) (s : UInt64) :
    (windowAfter ss).ensureAcceptable s = resultOf (judge 8192 (marksOf ss) s.toNat) ∧
    ((windowAfter ss).ensureAcceptable s = .error .tooOld ↔
      ∃ h, Highest (marksOf ss) h ∧ s.toNat ≤ h ∧ 8192 ≤ h - s.toNat) ∧
    ((windowAfter ss).ensureAcceptable s = .error .duplicate ↔
      s.toNat ∈ marksOf ss ∧ ∃ h, Highest (marksOf ss) h ∧ h - s.toNat < 8192) ∧
    ((windowAfter ss).ensureAcceptable s = .ok () ↔
      s.toNat ∉ marksOf ss ∧
        ∀ h, Highest (marksOf ss) h → s.toNat ≤ h → h - s.toNat < 8192) ∧
    (marksOf ss).Nodup := by
  obtain ⟨hr, hn⟩ := run_represents ss
  have hrev : judge 8192 (marksOf ss).reverse s.toNat = judge 8192 (marksOf ss) s.toNat := by
    simp [judge]
  have hv : (windowAfter ss).ensureAcceptable s =
      resultOf (judge 8192 (marksOf ss) s.toNat) := by
    rw [← hrev]
    exact ensureAcceptable_eq hr s
  refine ⟨hv, ?_, ?_, ?_, hn⟩
  · rw [← judge_tooOld_iff, hv]
    cases judge 8192 (marksOf ss) s.toNat <;> simp [resultOf]
  · rw [← judge_duplicate_iff, hv]
    cases judge 8192 (marksOf ss) s.toNat <;> simp [resultOf]
  · rw [← judge_fresh_iff, hv]
    cases judge 8192 (marksOf ss) s.toNat <;> simp [resultOf]

end MouseVpn.Crypto.ReplayWindow
