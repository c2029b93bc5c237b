import HttpFraming.Text.Decimal
import HttpFraming.Text.Hexadecimal

/-!
# JSON documents

Options and the plain data types of the library can be given as JSON. This module reads documents
strictly: no trailing commas, no comments, no byte order mark, no numbers with leading zeros, no
controls in strings.

## What is kept

Two things are kept that a reader might throw away, because what is wrong with a document may depend
on where in it they stand. A number is `natural` only if it is written as digits alone. A string is
kept as its code units, of which an escape may write any: half a surrogate pair makes it no text,
which matters only where its text is asked for.

## Nesting

Values, items and members are read by three functions that call one another, and what they recurse
on is a depth, which each call lowers. It is no limit on documents: every level of nesting and every
item takes some characters, and a depth that is twice the length of a document is never used up.

## Records

A record may be given as an object or as an array (`Json.record?`). Of an object the members may be
in any order, and unknown members are passed over, but two members with one key are an error. An
array has the fields in the order in which the type has them. What is made of a field that is
missing is up to the type, and so is what is made of `null`.
-/

namespace HttpFraming

/-- A JSON value. -/
inductive Json where
  | null
  | bool (b : Bool)
  /-- A number that is written as digits alone. -/
  | natural (n : Nat)
  /-- Any other number. -/
  | otherNumber
  | string (units : List Nat)
  | array (items : List Json)
  | object (members : List (List Nat × Json))

namespace Json

open CharClass

/-! ### Strings -/

/-- The text of a string, in which surrogates stand only in pairs. A unit is either the code point
of a character or what an escape writes. -/
def textChars? : List Nat → Option (List Char)
  | [] => some []
  | u :: rest =>
    if 0xD800 ≤ u ∧ u < 0xDC00 then
      match rest with
      | v :: rest' =>
        if 0xDC00 ≤ v ∧ v < 0xE000 then
          (textChars? rest').map
            (Char.ofNat (0x10000 + 0x400 * (u - 0xD800) + (v - 0xDC00)) :: ·)
        else none
      | [] => none
    else if 0xDC00 ≤ u ∧ u < 0xE000 then none
    else (textChars? rest).map (Char.ofNat u :: ·)

/-- The text of a string, if it is one. -/
def text? (units : List Nat) : Option String :=
  (textChars? units).map String.ofList

/-- The unit that a one-letter escape stands for. -/
def shortEscape? (c : Char) : Option Nat :=
  match c with
  | '"' => some 0x22
  | '\\' => some 0x5C
  | '/' => some 0x2F
  | 'b' => some 0x08
  | 'f' => some 0x0C
  | 'n' => some 0x0A
  | 'r' => some 0x0D
  | 't' => some 0x09
  | _ => none

/-- The unit that four hexadecimal digits denote. -/
def unit? (a b c d : Char) : Option Nat :=
  match Hexadecimal.value? a.toNat, Hexadecimal.value? b.toNat, Hexadecimal.value? c.toNat,
    Hexadecimal.value? d.toNat with
  | some a, some b, some c, some d => some (16 * (16 * (16 * a + b) + c) + d)
  | _, _, _, _ => none

/-- Reads a string after its opening quotation mark, up to the closing one. -/
def readString? : List Char → Option (List Nat × List Char)
  | [] => none
  | '"' :: rest => some ([], rest)
  | '\\' :: 'u' :: a :: b :: c :: d :: rest =>
    match unit? a b c d with
    | some u => (readString? rest).map fun (units, after) ↦ (u :: units, after)
    | none => none
  | '\\' :: c :: rest =>
    match shortEscape? c with
    | some u => (readString? rest).map fun (units, after) ↦ (u :: units, after)
    | none => none
  | c :: rest =>
    if c.toNat < 0x20 ∨ c = '\\' then none
    else (readString? rest).map fun (units, after) ↦ (c.toNat :: units, after)

/-! ### Numbers -/

/-- Divides off the digits in front. -/
def spanDigits (s : List Char) : List Char × List Char :=
  (s.takeWhile fun c ↦ isDigit c.toNat, s.dropWhile fun c ↦ isDigit c.toNat)

/-- Reads the digits in front, of which there has to be one. -/
def skipDigits? (s : List Char) : Option (List Char) :=
  match spanDigits s with
  | ([], _) => none
  | (_, rest) => some rest

/-- Reads the digits of a number before any point, with no zero in front of others. -/
def readInteger? (s : List Char) : Option (Nat × List Char) :=
  match spanDigits s with
  | ([], _) => none
  | ('0' :: _ :: _, _) => none
  | (digits, rest) => some (Decimal.value digits, rest)

/-- Reads the exponent of a number, if there is one; the result says whether there was. -/
def readExponent? (s : List Char) : Option (Bool × List Char) :=
  match s with
  | c :: rest =>
    if c = 'e' ∨ c = 'E' then
      match rest with
      | '+' :: digits => (skipDigits? digits).map (true, ·)
      | '-' :: digits => (skipDigits? digits).map (true, ·)
      | digits => (skipDigits? digits).map (true, ·)
    else some (false, s)
  | [] => some (false, [])

/-- Reads what follows the integer of a number; the result says whether there was anything. -/
def readFraction? (s : List Char) : Option (Bool × List Char) :=
  match s with
  | '.' :: digits =>
    match skipDigits? digits with
    | none => none
    | some rest => (readExponent? rest).map fun (_, after) ↦ (true, after)
  | _ => readExponent? s

/-- Reads a number. -/
def readNumber? (s : List Char) : Option (Json × List Char) :=
  match s with
  | '-' :: rest =>
    match readInteger? rest with
    | none => none
    | some (_, afterInteger) =>
      (readFraction? afterInteger).map fun (_, after) ↦ (otherNumber, after)
  | _ =>
    match readInteger? s with
    | none => none
    | some (n, afterInteger) =>
      (readFraction? afterInteger).map fun (more, after) ↦
        (if more then otherNumber else natural n, after)

/-! ### Documents -/

/-- Drops the blanks in front. -/
def skipBlanks (s : List Char) : List Char :=
  s.dropWhile fun c ↦ c == ' ' || c == '\t' || c == '\n' || c == '\r'

mutual

/-- Reads a value, nested no deeper than `depth` allows. -/
def readValue? (depth : Nat) (s : List Char) : Option (Json × List Char) :=
  match depth with
  | 0 => none
  | depth + 1 =>
    match skipBlanks s with
    | 'n' :: 'u' :: 'l' :: 'l' :: rest => some (null, rest)
    | 't' :: 'r' :: 'u' :: 'e' :: rest => some (bool true, rest)
    | 'f' :: 'a' :: 'l' :: 's' :: 'e' :: rest => some (bool false, rest)
    | '"' :: rest => (readString? rest).map fun (units, after) ↦ (string units, after)
    | '[' :: rest =>
      match skipBlanks rest with
      | ']' :: after => some (array [], after)
      | _ => (readItems? depth rest).map fun (items, after) ↦ (array items, after)
    | '\x7b' :: rest =>
      match skipBlanks rest with
      | '\x7d' :: after => some (object [], after)
      | _ => (readMembers? depth rest).map fun (members, after) ↦ (object members, after)
    | other => readNumber? other

/-- Reads the items of an array, of which there is one at least, and its end. -/
def readItems? (depth : Nat) (s : List Char) : Option (List Json × List Char) :=
  match depth with
  | 0 => none
  | depth + 1 =>
    match readValue? depth s with
    | none => none
    | some (item, rest) =>
      match skipBlanks rest with
      | ']' :: after => some ([item], after)
      | ',' :: more => (readItems? depth more).map fun (items, after) ↦ (item :: items, after)
      | _ => none

/-- Reads the members of an object, of which there is one at least, and its end. -/
def readMembers? (depth : Nat) (s : List Char) : Option (List (List Nat × Json) × List Char) :=
  match depth with
  | 0 => none
  | depth + 1 =>
    match skipBlanks s with
    | '"' :: afterQuote =>
      match readString? afterQuote with
      | none => none
      | some (key, afterKey) =>
        match skipBlanks afterKey with
        | ':' :: afterColon =>
          match readValue? depth afterColon with
          | none => none
          | some (value, rest) =>
            match skipBlanks rest with
            | '\x7d' :: after => some ([(key, value)], after)
            | ',' :: more =>
              (readMembers? depth more).map fun (members, after) ↦ ((key, value) :: members, after)
            | _ => none
        | _ => none
    | _ => none

end

/-- Reads a document: one value, with blanks around it and nothing else. Every level of nesting, and
every item, takes two characters at least, so that twice the length is deep enough. -/
def parse? (s : String) : Option Json :=
  let cs := s.toList
  match readValue? (2 * cs.length + 2) cs with
  | none => none
  | some (value, rest) => if (skipBlanks rest).isEmpty then some value else none

/-! ### Records -/

/-- The value of the only member with a key, if there is one. Two members with one key are an
error. -/
def member? (members : List (String × Json)) (key : String) : Option (Option Json) :=
  match members.filter (·.1 == key) with
  | [] => some none
  | [(_, value)] => some (some value)
  | _ => none

/-- The fields of a record by their names. An object gives them in any order, and may have members
that are none of them. An array gives them in order; it may give fewer only if `partly` is set, and
never more. -/
def record? (names : List String) (partly : Bool) : Json → Option (List (Option Json))
  | object members => do
    let named ← members.mapM fun (key, value) ↦ (text? key).map (·, value)
    names.mapM (member? named)
  | array items =>
    if names.length < items.length then none
    else if !partly && items.length < names.length then none
    else some (items.map some ++ List.replicate (names.length - items.length) none)
  | _ => none

/-- A field that is a number below a bound. -/
def naturalBelow? (bound : Nat) : Json → Option Nat
  | natural n => if n < bound then some n else none
  | _ => none

/-- A field that is a text. -/
def string? : Json → Option String
  | string units => text? units
  | _ => none

/-- A field that may be missing or `null`. -/
def optional? {α : Type} (read : Json → Option α) : Option Json → Option (Option α)
  | none => some none
  | some null => some none
  | some value => (read value).map some

/-- A field that may be missing, but not `null`. -/
def withDefault? {α : Type} (fallback : α) (read : Json → Option α) : Option Json → Option α
  | none => some fallback
  | some value => read value

end Json

end HttpFraming
