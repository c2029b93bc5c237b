import HttpFraming.Text.CharClass
import HttpFraming.Text.Hexadecimal
import HttpFraming.Text.Utf8

/-!
# Percent-encoding

Octets are written as text by escaping all but the unreserved ones: `%` and two hexadecimal digits.
Form encoding differs in one octet, the space, which it writes as `+`. Each reader undoes its
writer, and the reader of form encoding undoes both, because no writer leaves a plus sign as it is.

## Octets on one side, characters on the other

A writer takes octets and makes a text, and a reader takes the octets of a text, since whoever reads
an escape may find octets beside it that belong to a character outside ASCII. Those stand for
themselves, and are never written. So readers accept more than writers write, and are inverse in one
direction only.

## Normal forms

Normalization works on text that has escapes already. It brings the escapes to one form, and never
looks at what the escapes mean together: an escape of an unreserved character becomes that
character, and any other gets its digits in upper case. A percent sign that begins no escape stays
as it is, and the characters behind it are looked at again, which is why one pass may leave what a
second pass would change.
-/

namespace HttpFraming.Percent

open CharClass Hexadecimal

/-- One octet, escaped unless it is unreserved. -/
def escapeOctet (b : UInt8) : List Char :=
  if isUnreserved b.toNat then [Char.ofNat b.toNat]
  else ['%', digit (b.toNat / 16), digit (b.toNat % 16)]

/-- One octet in form encoding. -/
def escapeOctetPlus (b : UInt8) : List Char :=
  if b = 0x20 then ['+'] else escapeOctet b

/-- Writes octets as text, escaping all but the unreserved ones. -/
def escape (data : Octets) : String :=
  String.ofList (data.flatMap escapeOctet)

/-- Writes octets as text in form encoding. -/
def escapePlus (data : Octets) : String :=
  String.ofList (data.flatMap escapeOctetPlus)

/-- Undoes the escapes in a text given by its octets; fails where a `%` is not followed by two
hexadecimal digits. In form encoding, `plus`, a plus sign stands for a space. -/
def unescapeWith (plus : Bool) : Octets → Option Octets
  | [] => some []
  | 0x25 :: h :: l :: rest =>
    match value? h.toNat, value? l.toNat with
    | some high, some low =>
      (unescapeWith plus rest).map (UInt8.ofNat (16 * high + low) :: ·)
    | _, _ => none
  | b :: rest =>
    if b = 0x25 then none
    else (unescapeWith plus rest).map ((if plus && b == 0x2B then 0x20 else b) :: ·)

/-- Undoes the escapes in a text given by its octets. -/
def unescape? (data : Octets) : Option Octets :=
  unescapeWith false data

/-- Undoes the escapes in a text in form encoding. -/
def unescapePlus? (data : Octets) : Option Octets :=
  unescapeWith true data

/-- The normal form of the escape of an octet given by its two digits: the character itself when it
is unreserved, and upper-case digits otherwise. -/
def normalEscape (high low : Nat) : List Char :=
  if isUnreserved (16 * high + low) then [Char.ofNat (16 * high + low)]
  else ['%', digit high, digit low]

/-- Brings every escape to its normal form. A percent sign that begins no escape stays. -/
def normalizeChars : List Char → List Char
  | [] => []
  | '%' :: h :: l :: rest =>
    match value? h.toNat, value? l.toNat with
    | some high, some low => normalEscape high low ++ normalizeChars rest
    | _, _ => '%' :: normalizeChars (h :: l :: rest)
  | c :: rest => c :: normalizeChars rest

/-- Brings every escape in a text to its normal form. -/
def normalize (s : String) : String :=
  String.ofList (normalizeChars s.toList)

end HttpFraming.Percent
