import MouseVpn.Lib.RustStd
import Mathlib.Data.List.DropRight

/-!
# Rust strings and slices

A `str` is modelled by its characters; lengths and offsets count the bytes of its UTF-8 form.
An index outside a slice panics, which is kept apart from the errors that a function returns.
-/

namespace MouseVpn.Lib

inductive Fault (ε : Type)
  | panicked
  | failed (error : ε)
  deriving DecidableEq, Repr

section Slices

variable {ε : Type}

/-- `v[i]`. -/
def index (v : Bytes) (i : ℕ) : Except (Fault ε) UInt8 :=
  match v[i]? with
  | none => .error .panicked
  | some b => .ok b

/-- `&v[..stop]`. -/
def slicePrefix (v : Bytes) (stop : ℕ) : Except (Fault ε) Bytes :=
  if stop ≤ v.length then .ok (v.take stop) else .error .panicked

/-- `v[start..stop].copy_from_slice(source)`. -/
def copyFromSlice (v : Bytes) (start stop : ℕ) (source : Bytes) : Except (Fault ε) Bytes :=
  if start ≤ stop ∧ stop ≤ v.length ∧ stop - start = source.length then
    .ok (Vec.overwrite v start source)
  else .error .panicked

theorem index_of_lt {v : Bytes} {i : ℕ} (h : i < v.length) :
    index v i = (.ok (v.getD i 0) : Except (Fault ε) UInt8) := by
  simp [index, h]

theorem index_eq_ok {v : Bytes} {i : ℕ} {b : UInt8} :
    index v i = (.ok b : Except (Fault ε) UInt8) ↔ v[i]? = some b := by
  rw [index]
  cases v[i]? <;> simp

theorem index_ok {v : Bytes} {i : ℕ} (h : i < v.length) :
    index v i = (.ok v[i] : Except (Fault ε) UInt8) :=
  index_eq_ok.mpr (List.getElem?_eq_getElem h)

theorem copyFromSlice_of_length {v source : Bytes} {start t : ℕ} (h : t = start + source.length)
    (ht : t ≤ v.length) :
    copyFromSlice v start t source =
      (.ok (Vec.overwrite v start source) : Except (Fault ε) Bytes) :=
  if_pos ⟨by omega, ht, by omega⟩

theorem bind_ne_panicked {α β : Type} {x : Except (Fault ε) α} {f : α → Except (Fault ε) β}
    (hx : x ≠ .error .panicked) (hf : ∀ a, x = .ok a → f a ≠ .error .panicked) :
    x >>= f ≠ .error .panicked := by
  cases x with
  | ok a => exact hf a rfl
  | error e =>
    intro h
    exact hx (congrArg Except.error (Except.error.inj h))

end Slices

abbrev Str := List Char

namespace Str

def asBytes (s : Str) : Bytes := s.flatMap String.utf8EncodeChar

def len (s : Str) : ℕ := s.asBytes.length

def isAscii (s : Str) : Bool := s.all fun c => decide (c.val.toNat < 128)

/-- `str::eq_ignore_ascii_case`; `Char.toLower` changes the letters of ASCII only. -/
def eqIgnoreAsciiCase (s t : Str) : Bool := s.map Char.toLower = t.map Char.toLower

/-- `str::replace` of one character by another. -/
def replace (s : Str) (before after : Char) : Str := s.map fun c => if c = before then after else c

def stripPrefix (s start : Str) : Option Str :=
  if start <+: s then some (s.drop start.length) else none

def trimEndMatches (s : Str) (c : Char) : Str := s.rdropWhile (· = c)

def trimStartMatches (s : Str) (c : Char) : Str := s.dropWhile (· = c)

def split (s : Str) (c : Char) : List Str := List.splitOn c s

def splitOnce (s : Str) (c : Char) : Option (Str × Str) :=
  match s.dropWhile (· ≠ c) with
  | [] => none
  | _ :: rest => some (s.takeWhile (· ≠ c), rest)

def le : Str → Str → Bool
  | [], _ => true
  | _ :: _, [] => false
  | c :: s, d :: r => decide (c.val.toNat < d.val.toNat) || (decide (c.val = d.val) && le s r)

/-- `str::find` of a text: the offset of its first occurrence. -/
def find : Str → Str → Option ℕ
  | [], text => if text = [] then some 0 else none
  | c :: s, text => if text <+: c :: s then some 0 else (find s text).map (· + c.utf8Size)

/-- `&s[start..]`, which panics inside a character as well. -/
def sliceFrom {ε : Type} : Str → ℕ → Except (Fault ε) Str
  | s, 0 => .ok s
  | [], _ + 1 => .error .panicked
  | c :: s, start + 1 =>
    if c.utf8Size ≤ start + 1 then sliceFrom s (start + 1 - c.utf8Size) else .error .panicked

theorem asBytes_pos {s : Str} (h : s ≠ []) : 1 ≤ s.asBytes.length := by
  cases s with
  | nil => exact absurd rfl h
  | cons c s =>
    have hc := Char.utf8Size_pos c
    rw [asBytes, List.flatMap_cons, List.length_append, String.length_utf8EncodeChar]
    omega

theorem asBytes_intercalate (sep : Str) (parts : List Str) :
    asBytes (sep.intercalate parts) = sep.asBytes.intercalate (parts.map asBytes) := by
  induction parts with
  | nil => rfl
  | cons part parts ih =>
    cases parts with
    | nil => simp [List.intercalate_singleton]
    | cons next parts =>
      rw [List.intercalate_cons_cons, List.map_cons, List.map_cons, List.intercalate_cons_cons]
      simp only [asBytes, List.flatMap_append] at ih ⊢
      rw [ih]
      rfl

@[simp] theorem len_cons (c : Char) (s : Str) : len (c :: s) = c.utf8Size + s.len := by
  rw [len, asBytes, List.flatMap_cons, List.length_append, String.length_utf8EncodeChar]
  rfl

@[simp] theorem len_append (s r : Str) : len (s ++ r) = s.len + r.len := by
  rw [len, asBytes, List.flatMap_append, List.length_append]
  rfl

theorem len_of_isAscii {s : Str} (h : s.isAscii = true) : s.len = s.length := by
  induction s with
  | nil => rfl
  | cons c s ih =>
    rw [isAscii, List.all_cons, Bool.and_eq_true, decide_eq_true_eq] at h
    have hsize : c.utf8Size = 1 := by
      rw [Char.utf8Size_eq_one_iff, UInt32.le_iff_toNat_le]
      have hmax : (127 : UInt32).toNat = 127 := rfl
      omega
    rw [len_cons, hsize, ih h.2, List.length_cons]
    omega

theorem not_mem_replace {a b : Char} (h : a ≠ b) (s : Str) : a ∉ s.replace a b := by
  intro hmem
  obtain ⟨c, hc, heq⟩ := List.mem_map.mp hmem
  split_ifs at heq with hca
  · exact h heq.symm
  · exact hca heq

theorem replace_of_not_mem {a : Char} (b : Char) {s : Str} (h : a ∉ s) : s.replace a b = s := by
  refine (List.map_congr_left fun c hc => ?_).trans (List.map_id s)
  have hne : c ≠ a := fun heq => h (heq ▸ hc)
  rw [if_neg hne, id]

theorem splitOnce_of_not_mem {before : Str} {c : Char} (h : c ∉ before) (after : Str) :
    splitOnce (before ++ c :: after) c = some (before, after) := by
  have hall : ∀ d ∈ before, decide (d ≠ c) = true := by
    intro d hd
    exact decide_eq_true fun heq => h (heq ▸ hd)
  rw [splitOnce, List.dropWhile_append_of_pos hall, List.takeWhile_append_of_pos hall,
    List.dropWhile_cons_of_neg (by simp), List.takeWhile_cons_of_neg (by simp), List.append_nil]

theorem splitOnce_append {s : Str} {c : Char} (h : c ∈ s) (r : Str) :
    splitOnce (s ++ r) c = (s.splitOnce c).map fun p => (p.1, p.2 ++ r) := by
  obtain ⟨before, after, rfl, hbefore⟩ := List.eq_append_cons_of_mem h
  rw [List.append_assoc, List.cons_append, splitOnce_of_not_mem hbefore,
    splitOnce_of_not_mem hbefore, Option.map_some]

theorem find_eq_none_iff {s text : Str} : s.find text = none ↔ ¬ text <:+: s := by
  induction s with
  | nil => simp [find]
  | cons c s ih =>
    rw [find, List.infix_cons_iff]
    split_ifs with h
    · simp [h]
    · simp [h, ih]

theorem find_of_first {before text : Str} (after : Str) (hne : text ≠ [])
    (h : ¬ text <:+: before ++ text.dropLast) :
    find (before ++ (text ++ after)) text = some before.len := by
  induction before with
  | nil =>
    obtain ⟨c, text, rfl⟩ := List.exists_cons_of_ne_nil hne
    exact if_pos (List.prefix_append _ _)
  | cons c before ih =>
    rw [List.cons_append, List.infix_cons_iff, not_or] at h
    have hno : ¬ text <+: c :: (before ++ (text ++ after)) := by
      intro hstart
      have hlonger : c :: (before ++ text.dropLast) <+: c :: (before ++ (text ++ after)) := by
        rw [List.prefix_cons_inj, List.prefix_append_right_inj]
        exact (List.dropLast_prefix text).trans (List.prefix_append _ _)
      refine h.1 (List.prefix_of_prefix_length_le hstart hlonger ?_)
      have hpos := List.length_pos_of_ne_nil hne
      simp only [List.length_cons, List.length_append, List.length_dropLast]
      omega
    rw [List.cons_append, find, if_neg hno, ih h.2, Option.map_some, len_cons, Nat.add_comm]

theorem sliceFrom_append {ε : Type} (s r : Str) :
    sliceFrom (s ++ r) s.len = (.ok r : Except (Fault ε) Str) := by
  induction s with
  | nil => cases r <;> rfl
  | cons c s ih =>
    obtain ⟨n, hn⟩ := Nat.exists_eq_succ_of_ne_zero (Char.utf8Size_pos c).ne'
    have hlen : len (c :: s) = n + len s + 1 := by
      rw [len_cons, hn]
      omega
    have hrest : n + len s + 1 - n.succ = len s := by omega
    rw [hlen, List.cons_append, sliceFrom, if_pos (by omega), hn, hrest]
    exact ih

theorem eq_append_of_sliceFrom {ε : Type} {s r : Str} {start : ℕ}
    (h : s.sliceFrom start = (.ok r : Except (Fault ε) Str)) :
    ∃ before, s = before ++ r ∧ before.len = start := by
  induction s generalizing start with
  | nil =>
    cases start with
    | zero => exact ⟨[], Except.ok.inj h, rfl⟩
    | succ start => cases h
  | cons c s ih =>
    cases start with
    | zero => exact ⟨[], Except.ok.inj h, rfl⟩
    | succ start =>
      rw [sliceFrom] at h
      split_ifs at h with hsize
      obtain ⟨before, hs, hlen⟩ := ih h
      exact ⟨c :: before, by rw [hs, List.cons_append], by rw [len_cons]; omega⟩

end Str

end MouseVpn.Lib
