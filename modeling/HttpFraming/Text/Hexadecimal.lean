/-!
# Hexadecimal digits

Percent-escapes and chunk sizes are written in hexadecimal. A digit is read in either case; an
escape is written in upper case.

A digit is asked about by its code value, as the classes of characters are, so that one function
reads the digits of a chunk size from octets and those of an escape from characters. Reading and
writing are not inverse to each other, because reading forgets the case. What holds is one direction
(`Hexadecimal.value?_digit`), and the other is where two spellings of one octet come from: the
normal form of an escape is the one in upper case.
-/

namespace HttpFraming.Hexadecimal

/-- The value of a hexadecimal digit of either case, given by its code value. -/
def value? (c : Nat) : Option Nat :=
  if 0x30 ≤ c ∧ c ≤ 0x39 then some (c - 0x30)
  else if 0x41 ≤ c ∧ c ≤ 0x46 then some (c - 0x41 + 10)
  else if 0x61 ≤ c ∧ c ≤ 0x66 then some (c - 0x61 + 10)
  else none

/-- The upper-case digit that writes a value below sixteen. -/
def digit (d : Nat) : Char :=
  if d < 10 then Char.ofNat (0x30 + d) else Char.ofNat (0x41 + (d - 10))

/-- A digit denotes less than sixteen, so that two of them denote an octet. -/
theorem value?_lt {c d : Nat} (h : value? c = some d) : d < 16 := by
  unfold value? at h
  split at h
  · cases h; omega
  split at h
  · cases h; omega
  split at h
  · cases h; omega
  · cases h

/-- The digit that is written for a value is read back. -/
theorem value?_digit : ∀ d < 16, value? (digit d).toNat = some d := by
  decide

end HttpFraming.Hexadecimal
