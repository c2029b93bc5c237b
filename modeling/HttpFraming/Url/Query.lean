import HttpFraming.Text.Cut
import HttpFraming.Url.Percent

/-!
# Query strings

A query is a list of named values in form encoding. Order and repetitions are kept; names are told
apart by case.

Names and values are texts, and are written octet by octet as `Percent.escapePlus` writes octets. So
the ampersands and equals signs that stand between them are never written inside them. A reader
accepts more than is written: it takes a semicolon for an ampersand, a parameter without an equals
sign for one without a value, and parts that are empty. What it refuses is a name or a value whose
escapes cannot be undone, or that is no text when they are.
-/

namespace HttpFraming

/-- A named value, decoded. -/
structure QueryParameter where
  name : String
  value : String
deriving Repr, DecidableEq

/-- Named values in their order. -/
structure Query where
  parameters : List QueryParameter
deriving Repr, DecidableEq

namespace Query

def empty : Query := ⟨[]⟩

instance : Inhabited Query := ⟨empty⟩

def ofList (pairs : List (String × String)) : Query :=
  ⟨pairs.map fun (name, value) ↦ ⟨name, value⟩⟩

/-- The number of values, repetitions included. -/
def size (q : Query) : Nat :=
  q.parameters.length

def isEmpty (q : Query) : Bool :=
  q.parameters.isEmpty

/-- All values of a name, in order. -/
def getAll (q : Query) (name : String) : List String :=
  (q.parameters.filter (·.name == name)).map QueryParameter.value

/-- The first value of a name. -/
def get? (q : Query) (name : String) : Option String :=
  (q.parameters.find? (·.name == name)).map QueryParameter.value

def contains (q : Query) (name : String) : Bool :=
  (q.get? name).isSome

/-! ### Writing -/

/-- A parameter as it is written. -/
def parameterText (p : QueryParameter) : String :=
  Percent.escapePlus (Utf8.encode p.name) ++ "=" ++ Percent.escapePlus (Utf8.encode p.value)

/-- A query as it is written: `name=value` pairs, each but the first after an ampersand. -/
def toText (q : Query) : String :=
  String.intercalate "&" (q.parameters.map parameterText)

/-! ### Reading -/

/-- Whether a character ends a parameter. -/
def isSeparator (c : Char) : Bool :=
  c == '&' || c == ';'

/-- The texts of the parameters, each ended by a separator or by the end of the query. Nothing
follows a separator at the very end. -/
def split : List Char → List (List Char)
  | [] => []
  | c :: cs =>
    if isSeparator c then [] :: split cs
    else
      match split cs with
      | [] => [[c]]
      | p :: ps => (c :: p) :: ps

/-- Undoes the form encoding of a name or a value, which has to be text. -/
def decode? (s : List Char) : Option String :=
  (Percent.unescapePlus? (Utf8.encode (String.ofList s))).bind Utf8.decode?

/-- Reads a parameter, whose first equals sign ends the name. Without one the value is empty. -/
def readParameter? (s : List Char) : Option QueryParameter :=
  let (name, value) := match cut? (· == '=') s with
    | some (name, _, value) => (name, value)
    | none => (s, [])
  match decode? name, decode? value with
  | some n, some v => some ⟨n, v⟩
  | _, _ => none

/-- Reads a query. One parameter that cannot be decoded spoils the whole. -/
def parse? (s : String) : Option Query :=
  ((split s.toList).mapM readParameter?).map Query.mk

end Query

end HttpFraming
