import HttpFraming.FieldValue.Token

/-!
# Comma separated sequences

Many header values are lists, `#element` in the grammar: elements separated by commas, where list
elements may be empty and blanks may surround a comma, but where at least one element is there and
none may be preceded by a blank:

`*( "," OWS ) element *( OWS "," [ OWS element ] ) OWS`

What an element is, is a parameter. All that the list needs to know about it is that reading one
does not lengthen the text, so that law is part of `ElementReader`. With it, the reader of a list
terminates whatever an element is, and token lists and extension lists are two uses of one reader.

## How a list is read

The empty elements in front are dropped (`ElementReader.skipEmpty`), one element is read, and then
what follows it, to the end of the text (`ElementReader.readMore?`): blanks, a comma, again empty
elements and blanks, and either the end or another element. Nothing else may follow an element. The
blanks at the very end belong to no element and to no comma, and are skipped like those in front of
a comma.

## Several values

A header may be given more than once, and its values are then one list, read value by value
(`ElementReader.readLists?`). One value that is no list spoils the whole, since the elements of the
other values would be the answer to another question. To join the values with commas and to read the
result is another way to the same list, and that the two agree is proved beside the grammar.
-/

namespace HttpFraming.FieldValue

/-- A reader of one list element. -/
structure ElementReader (α : Type) where
  /-- Reads an element and returns it with what is left, or fails. -/
  read? : List Char → Option (α × List Char)
  /-- What is left is never longer than what was there. -/
  length_le : ∀ {s rest a}, read? s = some (a, rest) → rest.length ≤ s.length

namespace ElementReader

variable {α : Type}

/-- Drops the empty elements in front of an element: `*( "," OWS )`. -/
def skipEmpty : List Char → List Char
  | ',' :: rest => skipEmpty (skipWhitespace rest)
  | s => s
termination_by s => s.length
decreasing_by
  have := length_skipWhitespace_le rest
  simp; omega

/-- To skip empty elements lengthens nothing. -/
theorem length_skipEmpty_le (s : List Char) : (skipEmpty s).length ≤ s.length := by
  fun_induction skipEmpty s with
  | case1 rest ih =>
    have := length_skipWhitespace_le rest
    simp; omega
  | case2 => exact Nat.le_refl _

/-- Reads what follows an element: the remaining elements, each after a comma, to the end of the
text. -/
def readMore? (e : ElementReader α) (s : List Char) : Option (List α) :=
  match _hs : skipWhitespace s with
  | [] => some []
  | ',' :: rest =>
    match skipEmpty (skipWhitespace rest), length_skipEmpty_le (skipWhitespace rest) with
    | [], _ => some []
    | c :: next, _hn =>
      match _he : e.read? (c :: next) with
      | none => none
      | some (a, after) => (e.readMore? after).map (a :: ·)
  | _ :: _ => none
termination_by s.length
decreasing_by
  have h1 := length_skipWhitespace_le s
  have h2 := length_skipWhitespace_le rest
  have h3 := e.length_le _he
  rw [_hs] at h1
  simp at h1 h3 _hn ⊢
  omega

/-- Reads a whole text as a list and returns its elements in order. -/
def readList? (e : ElementReader α) (s : List Char) : Option (List α) :=
  match skipEmpty s with
  | [] => none
  | c :: next =>
    match e.read? (c :: next) with
    | none => none
    | some (a, rest) => (e.readMore? rest).map (a :: ·)

/-- Reads several texts, such as the values of a header that is given more than once, as one list.
No text at all is not a list. -/
def readLists? (e : ElementReader α) : List (List Char) → Option (List α)
  | [] => none
  | values => (values.mapM e.readList?).map List.flatten

end ElementReader

end HttpFraming.FieldValue
