import HttpFraming.Text.CharClass

/-!
# Decimal numbers

Versions, status codes, ports and content lengths are written in decimal. Writing uses the fewest
digits; reading accepts any number of leading zeros and nothing but digits.

A number has no bound of its own. A place where only so many numbers are allowed names its bound to
`Decimal.readBelow?`, and the bound is then part of that place and not of numbers.

## What is written is read back

`Decimal.read?_digits` says so for every number, and rests on two facts about what is written: it is
made of digits and not empty (`all_isDigit_digits`, `digits_ne_nil`), and its value is the number
(`value_digits`). The value of some digits is a fold from the left, and the digits of a number are
given by recursion on its quotient by ten. So the two meet in `value_append_digit`, which adds one
digit at the end, and not at the beginning.

The converse does not hold, because of leading zeros. What is read of a text with leading zeros is
written without them, which is said where it matters: for ports, versions and lengths.
-/

namespace HttpFraming.Decimal

open CharClass

/-- The character that writes a digit. -/
def digit (d : Nat) : Char :=
  Char.ofNat (0x30 + d)

/-- The digits of a number, the most significant first, without leading zeros. -/
def digits (n : Nat) : List Char :=
  if n < 10 then [digit n] else digits (n / 10) ++ [digit (n % 10)]

/-- A number in as few digits as it needs. -/
def print (n : Nat) : String :=
  String.ofList (digits n)

/-- A number in at least `width` digits, filled up with zeros on the left. -/
def printPadded (width n : Nat) : String :=
  String.ofList (List.replicate (width - (digits n).length) '0' ++ digits n)

/-- The number that a run of digits denotes. -/
def value (cs : List Char) : Nat :=
  cs.foldl (fun v c ↦ 10 * v + (c.toNat - 0x30)) 0

/-- Reads a number: one digit or more, and nothing else. -/
def read? (cs : List Char) : Option Nat :=
  if !cs.isEmpty && cs.all (fun c ↦ isDigit c.toNat) then some (value cs) else none

/-- Reads a number that has to be smaller than `bound`. -/
def readBelow? (bound : Nat) (cs : List Char) : Option Nat :=
  (read? cs).filter (· < bound)

/-! ### What is written is read back -/

theorem toNat_digit : ∀ {d : Nat}, d < 10 → (digit d).toNat = 0x30 + d := by
  decide

/-- A digit is written by a digit. -/
theorem isDigit_digit {d : Nat} (h : d < 10) : isDigit (digit d).toNat = true := by
  rw [toNat_digit h]
  simp only [isDigit, Bool.and_eq_true, decide_eq_true_eq]
  omega

theorem digits_ne_nil (n : Nat) : digits n ≠ [] := by
  unfold digits
  split <;> simp

/-- Numbers are written by digits only. -/
theorem all_isDigit_digits (n : Nat) : (digits n).all (fun c ↦ isDigit c.toNat) = true := by
  induction n using digits.induct with
  | case1 n h => simp [digits, h, isDigit_digit]
  | case2 n h ih =>
    rw [digits, if_neg h, List.all_append, ih]
    simp [isDigit_digit (Nat.mod_lt n (by decide))]

/-- One more digit at the end: ten times what was there, and the digit. -/
theorem value_append_digit (cs : List Char) {d : Nat} (h : d < 10) :
    value (cs ++ [digit d]) = 10 * value cs + d := by
  simp [value, toNat_digit h]

/-- The digits of a number denote it. -/
theorem value_digits (n : Nat) : value (digits n) = n := by
  induction n using digits.induct with
  | case1 n h => simp [digits, h, value, toNat_digit h]
  | case2 n h ih =>
    rw [digits, if_neg h, value_append_digit _ (Nat.mod_lt n (by decide)), ih]
    omega

/-- What is written is read back. -/
@[simp] theorem read?_digits (n : Nat) : read? (digits n) = some n := by
  simp [read?, digits_ne_nil, all_isDigit_digits, value_digits]

/-- What is written is read back wherever it is below the bound. -/
theorem readBelow?_digits {bound n : Nat} (h : n < bound) :
    readBelow? bound (digits n) = some n := by
  simp [readBelow?, h]

end HttpFraming.Decimal
