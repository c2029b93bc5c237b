import HttpFraming.Text.Cut
import HttpFraming.Text.Decimal

/-!
# Protocol versions

A version is a pair of numbers, ordered by the first and then by the second. It is written
`HTTP/major.minor`, and both numbers have to fit in 32 bits when they are read from a text of their
own. `Version.parse?_toText` says that what is written is read back.

## Two readers of versions

A version in a text of its own is read by `Version.parse?`, which allows leading zeros and any
number in 32 bits. A version in the first line of a message is read octet by octet by the lexer,
which stops at numbers above 999. The two agree where both apply, and that is proved beside the
grammar of the start line. A request line without a version has version 0.9, which no text of its
own is needed for.

## The order

What depends on a version depends on whether it is at least 1.1 or exactly 1.0. The order is given
by its definition (`Version.le_iff`, `Version.lt_iff`) and is total (`Version.not_le`), and nothing
more is needed of it.
-/

namespace HttpFraming

/-- A protocol version. -/
structure Version where
  major : Nat
  minor : Nat
deriving Repr, DecidableEq

namespace Version

/-- The version of a request line that names none. -/
def http09 : Version := ⟨0, 9⟩

/-- The first version with a persistence option of its own. -/
def http10 : Version := ⟨1, 0⟩

/-- The version from which connections persist and transfer codings apply. -/
def http11 : Version := ⟨1, 1⟩

/-- A version not yet read is `0.0`. -/
instance : Inhabited Version := ⟨⟨0, 0⟩⟩

instance : LE Version where
  le v w := v.major < w.major ∨ (v.major = w.major ∧ v.minor ≤ w.minor)

instance : LT Version where
  lt v w := v.major < w.major ∨ (v.major = w.major ∧ v.minor < w.minor)

instance (v w : Version) : Decidable (v ≤ w) :=
  inferInstanceAs (Decidable (_ ∨ _))

instance (v w : Version) : Decidable (v < w) :=
  inferInstanceAs (Decidable (_ ∨ _))

/-- Both numbers are below this bound. -/
def bound : Nat := UInt32.size

/-- A version as it stands in a start line. -/
def toText (v : Version) : String :=
  "HTTP/" ++ Decimal.print v.major ++ "." ++ Decimal.print v.minor

/-- A text that is no version. -/
structure Invalid where
  text : String
deriving Repr, DecidableEq

/-- What is said about a text that is no version. -/
def Invalid.message (e : Invalid) : String :=
  "invalid HTTP version: " ++ e.text

/-- Reads the numbers of a version, which the first full stop divides. -/
def ofNumbers? (s : List Char) : Option Version :=
  match cut? (· == '.') s with
  | none => none
  | some (major, _, minor) =>
    match Decimal.readBelow? bound major, Decimal.readBelow? bound minor with
    | some a, some b => some ⟨a, b⟩
    | _, _ => none

/-- Reads a version from a whole text. -/
def parse? (s : String) : Option Version :=
  match s.toList with
  | 'H' :: 'T' :: 'T' :: 'P' :: '/' :: numbers => ofNumbers? numbers
  | _ => none

/-- Reads a version from a whole text, and says which text it was when it is none. -/
def parse (s : String) : Except Invalid Version :=
  match parse? s with
  | some v => .ok v
  | none => .error ⟨s⟩

/-! ### The order -/

/-- One version is at most another, by its first number and then by its second. -/
theorem le_iff {v w : Version} :
    v ≤ w ↔ v.major < w.major ∨ (v.major = w.major ∧ v.minor ≤ w.minor) :=
  Iff.rfl

/-- One version is before another, by its first number and then by its second. -/
theorem lt_iff {v w : Version} :
    v < w ↔ v.major < w.major ∨ (v.major = w.major ∧ v.minor < w.minor) :=
  Iff.rfl

theorem not_le {v w : Version} : ¬ v ≤ w ↔ w < v := by
  rw [le_iff, lt_iff]
  omega

/-- Two versions of which each is at most the other are one. -/
theorem le_antisymm {v w : Version} (h : v ≤ w) (h' : w ≤ v) : v = w := by
  rw [le_iff] at h h'
  cases v; cases w
  simp at h h' ⊢
  omega

/-! ### What is written is read back -/

theorem toList_toText (v : Version) :
    v.toText.toList =
      'H' :: 'T' :: 'T' :: 'P' :: '/' ::
        (Decimal.digits v.major ++ '.' :: Decimal.digits v.minor) := by
  simp [toText, Decimal.print]

/-- The numbers that are written are read back, around the first full stop. -/
theorem ofNumbers?_digits {v : Version} (hmajor : v.major < bound) (hminor : v.minor < bound) :
    ofNumbers? (Decimal.digits v.major ++ '.' :: Decimal.digits v.minor) = some v := by
  have hcut : cut? (· == '.') (Decimal.digits v.major ++ '.' :: Decimal.digits v.minor) =
      some (Decimal.digits v.major, '.', Decimal.digits v.minor) := by
    apply cut?_append (by simp)
    intro c hc
    have hd := List.all_eq_true.1 (Decimal.all_isDigit_digits v.major) c hc
    have hne : c ≠ '.' := by
      rintro rfl
      exact absurd hd (by decide)
    simpa using hne
  simp [ofNumbers?, hcut, Decimal.readBelow?_digits, hmajor, hminor]

/-- What is written is read back. -/
theorem parse?_toText {v : Version} (hmajor : v.major < bound) (hminor : v.minor < bound) :
    parse? v.toText = some v := by
  rw [parse?, toList_toText]
  exact ofNumbers?_digits hmajor hminor

end Version

end HttpFraming
