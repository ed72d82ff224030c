import MouseVpn.Lib.RustStr

/-!
# Reading a byte string through a cursor

A reader is given a position in a byte string and answers with a value and the position behind
it, or stops with an error or a fault. `Reads` says of a reader that it never faults inside the
byte string and that it accepts the encodings of the valid values and nothing else. It is shown
for a counted loop from its body.
-/

namespace MouseVpn.Lib

variable {ε α : Type}

abbrev CursorReader (ε α : Type) := ℕ → Except (Fault ε) (α × ℕ)

/-- `for _ in 0..n`, where each pass reads one value. -/
def readMany (read : CursorReader ε α) : ℕ → CursorReader ε (List α)
  | 0, cursor => .ok ([], cursor)
  | n + 1, cursor =>
    read cursor >>= fun head =>
      readMany read n head.2 >>= fun tail => .ok (head.1 :: tail.1, tail.2)

/-- `&v[start..stop]`. -/
def slice (v : Bytes) (start stop : ℕ) : Except (Fault ε) Bytes :=
  if start ≤ stop ∧ stop ≤ v.length then .ok ((v.drop start).take (stop - start))
  else .error .panicked

def subtract (a b : ℕ) : Except (Fault ε) ℕ := if b ≤ a then .ok (a - b) else .error .panicked

theorem slice_of_le {v : Bytes} {start n : ℕ} (h : start + n ≤ v.length) :
    slice v start (start + n) = (.ok ((v.drop start).take n) : Except (Fault ε) Bytes) := by
  rw [slice, if_pos ⟨Nat.le_add_right start n, h⟩, Nat.add_sub_cancel_left]

theorem subtract_of_le {a b : ℕ} (h : b ≤ a) :
    subtract a b = (.ok (a - b) : Except (Fault ε) ℕ) := if_pos h

structure Reads (input : Bytes) (valid : α → Prop) (encode : α → Bytes)
    (read : CursorReader ε α) : Prop where
  total : ∀ cursor ≤ input.length, read cursor ≠ .error .panicked
  accepts : ∀ cursor ≤ input.length, ∀ a next, read cursor = .ok (a, next) ↔
    valid a ∧ next ≤ input.length ∧ input.drop cursor = encode a ++ input.drop next

variable {input : Bytes} {valid : α → Prop} {encode : α → Bytes} {read : CursorReader ε α}

theorem drop_injective {i j : ℕ} (hi : i ≤ input.length) (hj : j ≤ input.length)
    (h : input.drop i = input.drop j) : i = j := by
  have hlen := congrArg List.length h
  rw [List.length_drop, List.length_drop] at hlen
  omega

theorem Reads.many (reads : Reads input valid encode read) (n : ℕ) :
    Reads input (fun as => as.length = n ∧ ∀ a ∈ as, valid a) (fun as => as.flatMap encode)
      (readMany read n) := by
  induction n with
  | zero =>
    refine ⟨fun cursor _ => by simp [readMany], ?_⟩
    intro cursor hcursor as next
    rw [readMany, Except.ok.injEq, Prod.mk.injEq]
    constructor
    · intro h
      obtain ⟨rfl, rfl⟩ := h
      exact ⟨⟨rfl, by simp⟩, hcursor, rfl⟩
    · intro h
      obtain ⟨⟨hlen, -⟩, hnext, hrest⟩ := h
      obtain rfl := List.length_eq_zero_iff.mp hlen
      exact ⟨rfl, drop_injective hcursor hnext hrest⟩
  | succ n ih =>
    constructor
    · intro cursor hcursor
      refine bind_ne_panicked (reads.total cursor hcursor) ?_
      intro head hhead
      obtain ⟨-, hnext, -⟩ := (reads.accepts cursor hcursor head.1 head.2).mp hhead
      refine bind_ne_panicked (ih.total head.2 hnext) ?_
      simp
    · intro cursor hcursor as next
      rw [readMany, bind_eq_ok]
      constructor
      · intro h
        obtain ⟨head, hhead, hrest⟩ := h
        obtain ⟨tail, htail, heq⟩ := bind_eq_ok.mp hrest
        obtain ⟨rfl, rfl⟩ := Prod.mk.inj (Except.ok.inj heq)
        obtain ⟨hvalid, hmid, hdrop⟩ := (reads.accepts cursor hcursor head.1 head.2).mp hhead
        obtain ⟨⟨hlen, hall⟩, hnext, hdrop'⟩ := (ih.accepts head.2 hmid tail.1 tail.2).mp htail
        refine ⟨⟨by simp [hlen], List.forall_mem_cons.mpr ⟨hvalid, hall⟩⟩, hnext, ?_⟩
        rw [hdrop, hdrop', List.flatMap_cons, List.append_assoc]
      · intro h
        obtain ⟨⟨hlen, hall⟩, hnext, hdrop⟩ := h
        obtain ⟨a, as, rfl⟩ := List.exists_cons_of_length_eq_add_one hlen
        rw [List.flatMap_cons, List.append_assoc] at hdrop
        obtain ⟨hvalid, hall⟩ := List.forall_mem_cons.mp hall
        -- the position behind the first value
        have hmid : cursor + (encode a).length ≤ input.length := by
          have hlength := congrArg List.length hdrop
          rw [List.length_drop, List.length_append] at hlength
          omega
        have hrest : input.drop (cursor + (encode a).length) =
            as.flatMap encode ++ input.drop next := by
          rw [← List.drop_drop, hdrop, List.drop_left]
        refine ⟨(a, cursor + (encode a).length), ?_, bind_eq_ok.mpr ⟨(as, next), ?_, rfl⟩⟩
        · exact (reads.accepts cursor hcursor _ _).mpr ⟨hvalid, hmid, by rw [hrest, hdrop]⟩
        · exact (ih.accepts _ hmid _ _).mpr ⟨⟨by simpa using hlen, hall⟩, hnext, hrest⟩

end MouseVpn.Lib
