import HttpFraming.Wire.FieldCollector

/-!
# Header lines in pieces

A name or a value that comes in two pieces is collected as if it came in one. The limits allow this
because they grow tighter with what is collected, and so does the order of the checks: the line
before is stored at the first piece of a name, and the number of lines does not change at the
second.

## The two laws

`FieldCollector.addName_append` and `FieldCollector.addValue_append` are equations between results,
errors included: the pieces are refused if and only if the whole is, and for the same reason. They
have no hypothesis, since a collector needs no invariant for them.

For a name this needs a second look. A piece of a name stores the line that is pending, which may
fail, and then counts the lines. After the first piece nothing is pending
(`FieldCollector.pending_of_flush`), so that the second piece does neither once more. This is
`FieldCollector.addName_of_not_pending`, and it is where the order of the checks matters.

## What a collector cannot say

The grammar is a matter of the lexer. That no error of a collector is a breach of the grammar is
said at the end, once for each operation. It is what makes two errors comparable that are found at
one cut (`Verdict.Anticipates`).
-/

namespace HttpFraming

theorem map_eq_ok_iff {ε α β : Type} {x : Except ε α} {f : α → β} {b : β} :
    x.map f = .ok b ↔ ∃ a, x = .ok a ∧ f a = b := by
  cases x <;> simp [Except.map]

theorem map_eq_error_iff {ε α β : Type} {x : Except ε α} {f : α → β} {e : ε} :
    x.map f = .error e ↔ x = .error e := by
  cases x <;> simp [Except.map]

/-- Two steps have a result if the first one has, and the second one from there. -/
theorem bind_eq_ok_iff {ε α β : Type} {x : Except ε α} {f : α → Except ε β} {b : β} :
    x >>= f = .ok b ↔ ∃ a, x = .ok a ∧ f a = .ok b := by
  cases x <;> simp [bind, Except.bind]

namespace FieldCollector

variable {limits : Limits} {c c' : FieldCollector} {a b : Octets}

/-- Once the line before is stored, none is pending. -/
theorem pending_of_flush (h : c.flush = .ok c') : c'.pending = false := by
  unfold flush store at h
  split at h
  case isTrue =>
    split at h
    · cases h
    · split at h
      · cases h
      · cases h
        rfl
  case isFalse hpending =>
    cases h
    simpa using hpending

/-- Nothing is stored where no line is pending. -/
theorem flush_of_not_pending (h : c.pending = false) : c.flush = .ok c := by
  rw [flush, h, if_neg Bool.false_ne_true]

/-- A piece of a name that follows another piece of it. -/
theorem addName_of_not_pending (h : c.pending = false) (hsize : c.headers.size < limits.headerCount)
    (b : Octets) :
    c.addName limits b =
      if limits.header < c.name.length + b.length then .error .headerTooLong
      else .ok { c with name := c.name ++ b } := by
  rw [addName, flush_of_not_pending h]
  exact if_neg (Nat.not_le.2 hsize)

/-- **A name in two pieces** is collected, or refused, as the name in one. -/
theorem addName_append (limits : Limits) (c : FieldCollector) (a b : Octets) :
    c.addName limits (a ++ b) = (c.addName limits a).bind fun c' ↦ c'.addName limits b := by
  unfold addName
  rcases hflush : c.flush with e | c₀
  · rfl
  have hpending := pending_of_flush hflush
  simp only
  by_cases hcount : limits.headerCount ≤ c₀.headers.size
  · rw [if_pos hcount, if_pos hcount]
    rfl
  rw [if_neg hcount, if_neg hcount, List.length_append, ← Nat.add_assoc]
  by_cases ha : limits.header < c₀.name.length + a.length
  · rw [if_pos ha, if_pos (Nat.lt_add_right _ ha)]
    rfl
  -- The line before was stored with the first piece, and the second finds nothing pending.
  · rw [if_neg ha, ← List.append_assoc]
    have hname : pending { c₀ with name := c₀.name ++ a } = false := hpending
    refine Eq.trans ?_ (addName_of_not_pending hname (Nat.not_le.1 hcount) b).symm
    rw [List.length_append]

/-- **A value in two pieces** is collected, or refused, as the value in one. -/
theorem addValue_append (limits : Limits) (c : FieldCollector) (a b : Octets) :
    c.addValue limits (a ++ b) = (c.addValue limits a).bind fun c' ↦ c'.addValue limits b := by
  unfold addValue
  by_cases ha : limits.header < c.name.length + c.value.length + a.length
  · rw [if_pos ha, if_pos (by rw [List.length_append]; omega)]
    rfl
  · rw [if_neg ha, List.length_append, ← Nat.add_assoc, ← List.append_assoc]
    simp only [Except.bind, List.length_append, Nat.add_assoc]

/-! ### Refusals

What is refused of a header line is refused for its length, the number of lines or its encoding. -/

/-- A line that cannot be stored is not text. -/
theorem flush_ne_malformed (c : FieldCollector) (cause : SyntaxError) :
    c.flush ≠ .error (.malformed cause) := by
  intro h
  unfold flush store at h
  split at h
  · split at h
    · cases h
    · split at h <;> cases h
  · cases h

/-- A piece of a name is refused for the line before it, or for a limit. -/
theorem addName_ne_malformed (limits : Limits) (c : FieldCollector) (a : Octets)
    (cause : SyntaxError) : c.addName limits a ≠ .error (.malformed cause) := by
  intro h
  unfold addName at h
  split at h
  · rename_i e hflush
    cases h
    exact c.flush_ne_malformed cause hflush
  · split at h
    · cases h
    · split at h <;> cases h

/-- A piece of a value is refused for a limit. -/
theorem addValue_ne_malformed (limits : Limits) (c : FieldCollector) (a : Octets)
    (cause : SyntaxError) : c.addValue limits a ≠ .error (.malformed cause) := by
  intro h
  unfold addValue at h
  split at h <;> cases h

end FieldCollector

end HttpFraming
