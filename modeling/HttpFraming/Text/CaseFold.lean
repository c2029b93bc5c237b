/-!
# Names that ignore case

Header names, connection options and transfer codings are compared without regard to the case of
ASCII letters. Two names are the same when folding brings them to one key (`foldCase`), so that
sameness is an equivalence by construction, and a table of names can be searched by their keys.

## What folding is, and what it is not

Only the letters `A` to `Z` are folded. A letter outside ASCII keeps its case, and two names that
differ in it are two names. That is what the grammar of header names needs, since no such letter can
stand in one, and it keeps every name as many octets long as it was.

* `sameName` is a test that runs, and `sameName_iff` is what it means.
* `sameName_congr` is the law that later modules use most: in a question about a name, the name may
  be replaced by any that is the same.
* `lowerCase` is the key as a text, for places where a name is written in its normal form.
-/

namespace HttpFraming

/-- The key of a name: its characters, the letters `A` to `Z` brought to lower case. -/
def foldCase (s : String) : List Char :=
  s.toList.map Char.toLower

/-- Whether two names differ at most in the case of their ASCII letters. -/
def sameName (a b : String) : Bool :=
  foldCase a == foldCase b

/-- A text with the letters `A` to `Z` brought to lower case. -/
def lowerCase (s : String) : String :=
  String.ofList (foldCase s)

/-- The test for sameness compares keys. -/
theorem sameName_iff {a b : String} : sameName a b = true ↔ foldCase a = foldCase b := by
  simp [sameName]

@[simp] theorem sameName_refl (a : String) : sameName a a = true := by
  simp [sameName]

theorem sameName_comm (a b : String) : sameName a b = sameName b a := by
  rw [Bool.eq_iff_iff, sameName_iff, sameName_iff]
  exact eq_comm

theorem sameName_congr {a b : String} (h : sameName a b = true) (c : String) :
    sameName a c = sameName b c := by
  rw [sameName, sameName, sameName_iff.1 h]

end HttpFraming
