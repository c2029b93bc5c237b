import HttpFraming.Wire.Limits

/-!
# Options of readers

How much is read ahead, and how long the parts of what is read may be. Both are data, and nothing is
assumed of them: a buffer size of zero reads one octet at a time, and limits of zero forbid what
they limit. Statements about readers are made for all options.
-/

namespace HttpFraming

/-- How readers work. -/
structure ReadOptions where
  /-- The limits on heads and trailers. -/
  limits : Limits
  /-- How many octets a reader asks a transport for at a time. -/
  bufferSize : Nat
deriving Repr, DecidableEq

namespace ReadOptions

/-- The options that apply where none are given. -/
def standard : ReadOptions := ⟨.standard, 4096⟩

instance : Inhabited ReadOptions := ⟨standard⟩

end ReadOptions

end HttpFraming
