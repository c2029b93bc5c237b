import HttpFraming.Text.CaseFold

/-!
# Header fields

The fields of a message form an ordered multimap. Names are compared without regard to case and keep
the casing with which they first came in; a name has one value or more, in the order of arrival.

## How it is kept

`fields` holds one entry per name, in the order in which the names first came in. `size` is the
number of values in all entries. It is kept beside them, and not counted each time, because a parser
asks for it at every header line.

So there is an invariant, that no two entries are of one name, that each has a value, and that
`size` counts the values. It is no part of the type. The operations keep it, and that they do is
proved of all ways in which headers can come about, together with what a caller can conclude from
it.

## Operations on one name

`insertAll`, `replace` and `erase` change the entry of one name and leave all others where they are.
A name that is replaced keeps its place; a name that is erased and inserted again comes last. To
insert no value and to replace by no value are cases of their own: the first does nothing, and the
second erases, because an entry without values must not be there.

## Writing

The lines of `Host` come first and all others follow in the order of their entries
(`Headers.hostFirst`). Values of one name that came in with other names in between are written
together, so that what is written may be in another order than what was read.
-/

namespace HttpFraming

/-- A name with its values in the order of arrival. -/
structure Field where
  name : String
  values : List String
deriving Repr, DecidableEq

namespace Field

/-- The values of the first field of a name. -/
def find? : List Field → String → Option (List String)
  | [], _ => none
  | f :: fs, name => if sameName f.name name then some f.values else find? fs name

/-- Adds values to the first field of a name, or a field at the end. -/
def append : List Field → String → List String → List Field
  | [], name, values => [⟨name, values⟩]
  | f :: fs, name, values =>
    if sameName f.name name then ⟨f.name, f.values ++ values⟩ :: fs
    else f :: append fs name values

/-- Gives the first field of a name other values, or adds a field at the end. -/
def replace : List Field → String → List String → List Field
  | [], name, values => [⟨name, values⟩]
  | f :: fs, name, values =>
    if sameName f.name name then ⟨f.name, values⟩ :: fs
    else f :: replace fs name values

/-- Drops the first field of a name. -/
def erase : List Field → String → List Field
  | [], _ => []
  | f :: fs, name => if sameName f.name name then fs else f :: erase fs name

/-- The lines of a field: its name with each of its values. -/
def lines (f : Field) : List (String × String) :=
  f.values.map fun v ↦ (f.name, v)

/-- The number of values in some fields. -/
def count : List Field → Nat
  | [] => 0
  | f :: fs => f.values.length + count fs

end Field

/-- The header fields of a message. -/
structure Headers where
  /-- One entry per name, in the order in which the names first came in. -/
  fields : List Field
  /-- The number of values in all entries. -/
  size : Nat
deriving Repr, DecidableEq

namespace Headers

/-- No field at all. -/
def empty : Headers := ⟨[], 0⟩

instance : Inhabited Headers := ⟨empty⟩

/-- Whether there is no value. -/
def isEmpty (h : Headers) : Bool :=
  h.size == 0

/-- All values of a name, in the order of arrival. -/
def getAll? (h : Headers) (name : String) : Option (List String) :=
  Field.find? h.fields name

/-- The value of a name that has exactly one. -/
def get? (h : Headers) (name : String) : Option String :=
  match h.getAll? name with
  | some [value] => some value
  | _ => none

def contains (h : Headers) (name : String) : Bool :=
  (h.getAll? name).isSome

/-- Adds values to a name. Without values nothing changes. -/
def insertAll (h : Headers) (name : String) (values : List String) : Headers :=
  if values.isEmpty then h
  else ⟨Field.append h.fields name values, h.size + values.length⟩

/-- Adds one value to a name. -/
def insert (h : Headers) (name value : String) : Headers :=
  h.insertAll name [value]

/-- Drops a name with all its values. -/
def erase (h : Headers) (name : String) : Headers :=
  match h.getAll? name with
  | some old => ⟨Field.erase h.fields name, h.size - old.length⟩
  | none => h

/-- Gives a name other values, in the place it had. Without values the name is dropped. -/
def replace (h : Headers) (name : String) (values : List String) : Headers :=
  if values.isEmpty then h.erase name
  else
    match h.getAll? name with
    | some old => ⟨Field.replace h.fields name values, h.size - old.length + values.length⟩
    | none => ⟨Field.replace h.fields name values, h.size + values.length⟩

/-- The fields that come from adding values one by one. -/
def ofList (pairs : List (String × String)) : Headers :=
  pairs.foldl (fun h (name, value) ↦ h.insert name value) empty

/-- The names with their values, in the order in which the names first came in. -/
def toList (h : Headers) : List (String × List String) :=
  h.fields.map fun f ↦ (f.name, f.values)

/-- The fields in the order in which they are written: `Host` first. -/
def hostFirst (h : Headers) : List Field :=
  h.fields.filter (sameName ·.name "Host") ++ h.fields.filter (!sameName ·.name "Host")

/-- The lines in the order in which they are written. -/
def lines (h : Headers) : List (String × String) :=
  h.hostFirst.flatMap Field.lines

/-- One line as it is written. -/
def lineText (line : String × String) : String :=
  line.1 ++ ": " ++ line.2 ++ "\r\n"

/-- The fields as they stand in a message. -/
def toText (h : Headers) : String :=
  String.join (h.lines.map lineText)

end Headers

end HttpFraming
