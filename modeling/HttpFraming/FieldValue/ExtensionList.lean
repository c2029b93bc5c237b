import HttpFraming.FieldValue.Sequence
import HttpFraming.Text.CaseFold

/-!
# Extension lists

Lists such as the value of `Transfer-Encoding`: names separated by commas, each followed by
parameters:

`extension = token *( OWS ";" OWS token OWS "=" OWS ( token / quoted-string ) )`

Names are looked up without regard to case. Two lists are equal when they are written with the same
names in the same case, so equality of the types is meant literally.

## Where an extension ends

A reader of an element has to leave blanks that belong to the list, such as those in front of a
comma. So the reader of parameters looks behind the blanks for a semicolon, and where there is none,
it stops in front of them (`Extension.readParameters?`). Behind a semicolon there is no way back: a
parameter has to follow, and if none does, the whole list is refused.

A value is a quoted string where a quotation mark begins it, and a token elsewhere. A quoted string
may stand for the empty text, a token may not, and a value loses its marks when it is read. So a
quoted token and the same token without marks are one value, and nothing remembers which it was.
-/

namespace HttpFraming

open FieldValue

/-- A parameter of an extension. The value is without the quotation marks it may have had. -/
structure ExtensionParameter where
  name : String
  value : String
deriving Repr, DecidableEq

/-- A named extension with its parameters in order. -/
structure Extension where
  name : String
  parameters : List ExtensionParameter
deriving Repr, DecidableEq

/-- Extensions in the order in which a header value lists them. -/
structure ExtensionList where
  extensions : List Extension
deriving Repr, DecidableEq

namespace ExtensionParameter

/-- Reads the value of a parameter: a quoted string where one begins, and a token elsewhere. -/
def value? (s : List Char) : Option (List Char × List Char) :=
  match s with
  | '"' :: _ => quotedString? s
  | _ => token? s

/-- Reads `token OWS "=" OWS ( token / quoted-string )`. -/
def read? (s : List Char) : Option (ExtensionParameter × List Char) :=
  match token? s with
  | none => none
  | some (name, afterName) =>
    match skipWhitespace afterName with
    | '=' :: afterSign =>
      (value? (skipWhitespace afterSign)).map fun (value, rest) ↦
        (⟨String.ofList name, String.ofList value⟩, rest)
    | _ => none

/-- What is left behind a value is no longer than what was there. -/
theorem length_le_of_value? {s value rest : List Char} (h : value? s = some (value, rest)) :
    rest.length ≤ s.length := by
  unfold value? at h
  split at h
  · exact length_le_of_quotedString? h
  · exact length_le_of_token? h

/-- What is left behind a parameter is no longer than what was there. -/
theorem length_le_of_read? {s rest : List Char} {p : ExtensionParameter}
    (h : read? s = some (p, rest)) : rest.length ≤ s.length := by
  unfold read? at h
  split at h
  · simp at h
  · rename_i name afterName ht
    split at h
    · rename_i afterSign hs
      obtain ⟨⟨v, r⟩, hv, heq⟩ := Option.map_eq_some_iff.1 h
      cases heq
      have h1 := length_le_of_token? ht
      have h2 := length_skipWhitespace_le afterName
      have h3 := length_skipWhitespace_le afterSign
      have h4 := length_le_of_value? hv
      rw [hs] at h2
      simp at h2
      omega
    · simp at h

end ExtensionParameter

namespace Extension

/-- Reads the parameters that follow a name. Blanks that no semicolon follows are left over. -/
def readParameters? (s : List Char) : Option (List ExtensionParameter × List Char) :=
  match _hs : skipWhitespace s with
  | ';' :: rest =>
    match _hp : ExtensionParameter.read? (skipWhitespace rest) with
    | none => none
    | some (p, after) => (readParameters? after).map fun (ps, left) ↦ (p :: ps, left)
  | _ => some ([], s)
termination_by s.length
decreasing_by
  have h1 := length_skipWhitespace_le s
  have h2 := length_skipWhitespace_le rest
  have h3 := ExtensionParameter.length_le_of_read? _hp
  rw [_hs] at h1
  simp at h1
  omega

/-- What is left behind parameters is no longer than what was there. -/
theorem length_le_of_readParameters? {s left : List Char} {ps : List ExtensionParameter}
    (h : readParameters? s = some (ps, left)) : left.length ≤ s.length := by
  -- One parameter after the other, until no semicolon follows.
  fun_induction readParameters? s generalizing ps with
  | case1 s rest hs hp => simp at h
  | case2 s rest hs p after hp ih =>
    obtain ⟨⟨qs, l⟩, hq, heq⟩ := Option.map_eq_some_iff.1 h
    cases heq
    have h1 := length_skipWhitespace_le s
    have h2 := length_skipWhitespace_le rest
    have h3 := ExtensionParameter.length_le_of_read? hp
    have h4 := ih hq
    rw [hs] at h1
    simp at h1
    omega
  | case3 s hs =>
    cases h
    exact Nat.le_refl _

/-- Reads a name and its parameters. -/
def read? (s : List Char) : Option (Extension × List Char) :=
  match token? s with
  | none => none
  | some (name, rest) =>
    (readParameters? rest).map fun (ps, left) ↦ (⟨String.ofList name, ps⟩, left)

/-- The first parameter of a name, in whatever case. -/
def parameter? (e : Extension) (name : String) : Option ExtensionParameter :=
  e.parameters.find? (sameName ·.name name)

def hasParameter (e : Extension) (name : String) : Bool :=
  (e.parameter? name).isSome

end Extension

namespace ExtensionList

/-- One extension with its parameters. -/
def element : ElementReader Extension where
  read? := Extension.read?
  length_le h := by
    unfold Extension.read? at h
    split at h
    · simp at h
    · rename_i name rest ht
      obtain ⟨⟨ps, l⟩, hp, heq⟩ := Option.map_eq_some_iff.1 h
      cases heq
      exact Nat.le_trans (Extension.length_le_of_readParameters? hp) (length_le_of_token? ht)

/-- Reads a list from one header value. -/
def parse? (value : String) : Option ExtensionList :=
  (element.readList? value.toList).map ExtensionList.mk

/-- Reads a list from all values of a header, in their order. -/
def parseAll? (values : List String) : Option ExtensionList :=
  (element.readLists? (values.map String.toList)).map ExtensionList.mk

/-- The number of extensions, repetitions included. -/
def size (l : ExtensionList) : Nat :=
  l.extensions.length

def isEmpty (l : ExtensionList) : Bool :=
  l.extensions.isEmpty

/-- The first extension of a name, in whatever case. -/
def get? (l : ExtensionList) (name : String) : Option Extension :=
  l.extensions.find? (sameName ·.name name)

def contains (l : ExtensionList) (name : String) : Bool :=
  (l.get? name).isSome

end ExtensionList

end HttpFraming
