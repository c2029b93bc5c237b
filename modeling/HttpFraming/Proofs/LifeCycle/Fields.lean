import HttpFraming.Proofs.Fragmentation.FieldCollector
import HttpFraming.Proofs.LifeCycle.Reports

/-!
# What can be wrong with a header line

The name of a header is made of token characters, which are within ASCII, so that it is always text.
A collector asks all the same, and has an error for a name that is not. `FieldCollector.IsToken` is
the invariant that keeps this error from being seen, and `Proper` what it makes of every result: a
success keeps the invariant, and an error tells of the octets.

There is one law for each operation of a collector, and together they are used by both kinds of
drafts. `Proper` carries the predicate of a success, because the operations are sequenced: a name is
added to a collector that has stored the line before, and the predicate is what is known of that
one.

Of the errors of a collector, only the one for a name that is not text needs the invariant. A value
that is not text is an error that octets can bring about, and so are the limits.
-/

namespace HttpFraming

open CharClass

/-- Errors that tell of the use of a parser, or of what no octets can bring about. -/
def ParseError.isInternal : ParseError → Bool
  | malformed cause => cause.isInternal
  | notUtf8 part => part == .headerName
  | headerTooLong | tooManyHeaders | targetTooLong | reasonTooLong | wrongState => false

/-- Three errors are internal: an abortion, a closed lexer, and a name that is no text. -/
theorem ParseError.isInternal_eq_false_iff {e : ParseError} : e.isInternal = false ↔
    e ≠ .malformed .aborted ∧ e ≠ .malformed .closed ∧ e ≠ .notUtf8 .headerName := by
  cases e with
  | malformed cause => cases cause <;> simp [isInternal, SyntaxError.isInternal]
  | notUtf8 part => simp [isInternal]
  | headerTooLong | tooManyHeaders | targetTooLong | reasonTooLong | wrongState =>
    simp [isInternal]

/-- A success that satisfies `P`, or an error that tells of the octets. -/
def Proper {α : Type} (P : α → Prop) : Except ParseError α → Prop
  | .ok a => P a
  | .error e => e.isInternal = false

/-- What is made of a proper result is proper. -/
theorem Proper.map {α β : Type} {P : α → Prop} {Q : β → Prop} {f : α → β}
    {x : Except ParseError α} (hx : Proper P x) (hf : ∀ {a}, P a → Q (f a)) :
    Proper Q (x.map f) := by
  cases x with
  | ok a => exact hf hx
  | error e => exact hx

/-- Octets of a token are text. -/
theorem Utf8.decode?_ne_none_of_token {x : Octets} (h : Only isTchar x) : decode? x ≠ none := by
  obtain ⟨s, hs⟩ := exists_encode_of_ascii fun b hb ↦ lt_of_isTchar _ (h b hb)
  rw [← hs, decode?_encode]
  exact Option.some_ne_none s

namespace FieldCollector

variable {c : FieldCollector} {piece : Octets}

/-- The name of the line in progress is made of token characters. -/
def IsToken (c : FieldCollector) : Prop :=
  Only isTchar c.name

/-- To store a line whose name is a token is proper. -/
theorem proper_store (hc : c.IsToken) : Proper IsToken c.store := by
  unfold store
  split
  · rename_i hnone
    exact absurd hnone (Utf8.decode?_ne_none_of_token hc)
  · split
    · exact rfl
    · exact only_nil

theorem proper_flush (hc : c.IsToken) : Proper IsToken c.flush := by
  unfold flush
  split
  · exact proper_store hc
  · exact hc

/-- To take a piece of a name is proper, if it is made of token characters. -/
theorem proper_addName (limits : Limits) (hc : c.IsToken) (hpiece : Only isTchar piece) :
    Proper IsToken (c.addName limits piece) := by
  have hflush := proper_flush hc
  unfold addName
  cases hcflush : c.flush with
  | error e =>
    rw [hcflush] at hflush
    exact hflush
  | ok c' =>
    rw [hcflush] at hflush
    simp only
    split
    · exact rfl
    · split
      · exact rfl
      · exact only_append.2 ⟨hflush, hpiece⟩

/-- To take a piece of a value is proper. -/
theorem proper_addValue (limits : Limits) (hc : c.IsToken) (piece : Octets) :
    Proper IsToken (c.addValue limits piece) := by
  unfold addValue
  split
  · exact rfl
  · exact hc

/-- To finish the headers is proper. -/
theorem proper_finish (hc : c.IsToken) : Proper (fun _ ↦ True) c.finish := by
  have hflush := proper_flush hc
  unfold finish
  cases hcflush : c.flush with
  | error e =>
    rw [hcflush] at hflush
    exact hflush
  | ok c' => exact trivial

end FieldCollector

end HttpFraming
