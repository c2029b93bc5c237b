/-!
# Limits on what is read

Parsers take memory in proportion to what they are sent. These limits say how much, for heads and
for the trailers of chunked bodies.

Each limit is the greatest size that is allowed. They are limits on single parts, and what a parser
holds in all follows from them: the start line, so many header lines, and the line in progress, each
within its limit. Limits are data, and nothing is assumed of them. A limit of zero forbids what it
limits, and what a parser then does is as much a part of its description as for any other limit.
-/

namespace HttpFraming

/-- How long the parts of a head may be. -/
structure Limits where
  /-- The octets of a request target. -/
  target : Nat
  /-- The octets of a reason phrase. -/
  reason : Nat
  /-- The octets of one header, name and value together. -/
  header : Nat
  /-- The number of header values. -/
  headerCount : Nat
deriving Repr, DecidableEq

namespace Limits

/-- The limits that apply where none are given. -/
def standard : Limits := ⟨8192, 8192, 8192, 256⟩

instance : Inhabited Limits := ⟨standard⟩

end Limits

end HttpFraming
