import HttpFraming.Message.Headers
import HttpFraming.Text.CharClass
import HttpFraming.Text.Utf8
import HttpFraming.Wire.Error
import HttpFraming.Wire.Limits

/-!
# Collecting header lines

Names and values arrive in pieces. A collector puts the pieces of a line together and stores the
line when the next one begins, or when the headers end. The limits are checked at every piece, so
that no line takes more memory than allowed while it arrives.

## When a line is complete

A piece of a value may be empty, and a value may be continued by a further piece, so nothing in the
pieces of a line says that it is the last. A line is complete when a piece of a name follows a piece
of a value, or at the end. That is what `pending` remembers: that a value has begun.

Storing is where octets become text, and where it can turn out that they are none. The error then
belongs to the line before the piece that is being added. The spaces and tabs at the end of a value
are cut off when it is stored, and count for the limits until then.

## Which error comes first

Of a piece of a name, first the line before it is stored, then the number of lines is checked, and
then the size. A value is checked for its size alone. This order can be observed, and other modules
depend on it.
-/

namespace HttpFraming

/-- The header lines read so far, the last of them perhaps in part. -/
structure FieldCollector where
  /-- The octets of the name of the line in progress. -/
  name : Octets
  /-- The octets of its value. -/
  value : Octets
  /-- Whether its value has begun. -/
  pending : Bool
  /-- The lines before it. -/
  headers : Headers
deriving Repr, DecidableEq

namespace FieldCollector

def empty : FieldCollector := ⟨[], [], false, .empty⟩

instance : Inhabited FieldCollector := ⟨empty⟩

/-- A value without the spaces and tabs at its end. -/
def trimEnd (value : Octets) : Octets :=
  (value.reverse.dropWhile fun b ↦ CharClass.isWhitespace b.toNat).reverse

/-- Stores the line in progress. -/
def store (c : FieldCollector) : Except ParseError FieldCollector :=
  match Utf8.decode? c.name with
  | none => .error (.notUtf8 .headerName)
  | some name =>
    match Utf8.decode? (trimEnd c.value) with
    | none => .error (.notUtf8 .headerValue)
    | some value => .ok ⟨[], [], false, c.headers.insert name value⟩

/-- Stores the line in progress if its value has begun. -/
def flush (c : FieldCollector) : Except ParseError FieldCollector :=
  if c.pending then c.store else .ok c

/-- Takes a piece of a name. After a value, it begins a new line. -/
def addName (limits : Limits) (c : FieldCollector) (piece : Octets) :
    Except ParseError FieldCollector :=
  match c.flush with
  | .error e => .error e
  | .ok c =>
    if limits.headerCount ≤ c.headers.size then .error .tooManyHeaders
    else if limits.header < c.name.length + piece.length then .error .headerTooLong
    else .ok { c with name := c.name ++ piece }

/-- Takes a piece of a value, which may be empty. -/
def addValue (limits : Limits) (c : FieldCollector) (piece : Octets) :
    Except ParseError FieldCollector :=
  if limits.header < c.name.length + c.value.length + piece.length then .error .headerTooLong
  else .ok { c with value := c.value ++ piece, pending := true }

/-- The headers when no line follows. -/
def finish (c : FieldCollector) : Except ParseError Headers :=
  match c.flush with
  | .error e => .error e
  | .ok c => .ok c.headers

end FieldCollector

end HttpFraming
