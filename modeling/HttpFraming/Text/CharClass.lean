/-!
# Character classes

The classes out of which the grammars of RFC 7230 and RFC 3986 are built. A class is a predicate on
a code value, so that one definition serves both the octets of the wire and the characters of a
text: an octet is asked about by its number, a character by its code point. The two readings agree,
because every class treats all values from 0x80 upwards alike, and a character outside ASCII is
spelled by such octets only.
-/

namespace HttpFraming.CharClass

/-- A decimal digit. -/
def isDigit (c : Nat) : Bool :=
  0x30 ≤ c && c ≤ 0x39

/-- A letter of the ASCII alphabet, of either case. -/
def isAlpha (c : Nat) : Bool :=
  (0x41 ≤ c && c ≤ 0x5A) || (0x61 ≤ c && c ≤ 0x7A)

/-- A letter or a decimal digit. -/
def isAlphanumeric (c : Nat) : Bool :=
  isAlpha c || isDigit c

/-- A space or a horizontal tab. -/
def isWhitespace (c : Nat) : Bool :=
  c == 0x20 || c == 0x09

/-- Whatever lies outside ASCII: `obs-text` in a header value. -/
def isObsText (c : Nat) : Bool :=
  0x80 ≤ c

/-- The `tchar` of which tokens are made: a letter, a digit, or one of fifteen marks. -/
def isTchar (c : Nat) : Bool :=
  c == 0x21 || (0x23 ≤ c && c ≤ 0x27) || c == 0x2A || c == 0x2B || c == 0x2D || c == 0x2E ||
    (0x5E ≤ c && c ≤ 0x60) || c == 0x7C || c == 0x7E || isAlphanumeric c

/-- The `qdtext` that stands for itself inside a quoted string: neither a quotation mark nor a
backslash nor a control. -/
def isQdtext (c : Nat) : Bool :=
  isWhitespace c || c == 0x21 || (0x23 ≤ c && c ≤ 0x5B) || (0x5D ≤ c && c ≤ 0x7E) || isObsText c

/-- What a backslash may be followed by inside a quoted string. -/
def isQuotedPairChar (c : Nat) : Bool :=
  isWhitespace c || (0x21 ≤ c && c ≤ 0x7E) || isObsText c

/-- What a header value or a reason phrase is made of: no control but the tab. -/
def isFieldValueChar (c : Nat) : Bool :=
  c == 0x09 || (0x20 ≤ c && c != 0x7F)

/-- What a request target, or any URL, is made of: neither blank nor control. -/
def isTargetChar (c : Nat) : Bool :=
  0x20 < c && c != 0x7F

/-- The `unreserved` set, which percent-encoding leaves alone. -/
def isUnreserved (c : Nat) : Bool :=
  isAlphanumeric c || c == 0x2D || c == 0x2E || c == 0x5F || c == 0x7E

/-- What a scheme is made of after its first letter. -/
def isSchemeChar (c : Nat) : Bool :=
  isAlphanumeric c || c == 0x2B || c == 0x2D || c == 0x2E

/-- What a host name is made of: `unreserved`, `sub-delims`, a percent sign, or anything outside
ASCII. -/
def isHostChar (c : Nat) : Bool :=
  isUnreserved c || c == 0x21 || (0x24 ≤ c && c ≤ 0x2C) || c == 0x3B || c == 0x3D || isObsText c

/-- What stands between the brackets of an IP literal. -/
def isLiteralChar (c : Nat) : Bool :=
  isUnreserved c || c == 0x3A || c == 0x25

end HttpFraming.CharClass
