import HttpFraming.Text.Utf8

/-!
# Operations that can leave their range

A number of fixed width does not hold every sum and every product, a list does not have an element
at every place, and before the first place there are none. The operations here have a result only
where it is the one that is meant. So what is computed with them is what is computed with numbers
without bound, or nothing at all.

This makes the absence of overflow a statement about results: a computation is safe if it has one.
No operation wraps and none has a value by convention, so that nothing can be said of a computation
that leaves its range but that it does. A statement of safety then cannot hold for the wrong reason.

Numbers are vectors of bits, given by their width, and places are numbers without bound, since a
place is compared with the length of an input that exists.
-/

namespace HttpFraming

/-- The result of an operation, or nothing where the operation would leave its range. -/
abbrev Checked (α : Type) := Option α

namespace Checked

variable {w : Nat}

/-- A number in so many bits, if they hold it. -/
def ofNat? (w n : Nat) : Checked (BitVec w) :=
  if (BitVec.ofNat w n).toNat = n then some (BitVec.ofNat w n) else none

/-- The sum of two numbers, if their width holds it. -/
def add? (a b : BitVec w) : Checked (BitVec w) :=
  ofNat? w (a.toNat + b.toNat)

/-- The product of two numbers, if their width holds it. -/
def mul? (a b : BitVec w) : Checked (BitVec w) :=
  ofNat? w (a.toNat * b.toNat)

/-- The difference of two numbers, if the second is not greater than the first. -/
def sub? (a b : BitVec w) : Checked (BitVec w) :=
  if b.toNat ≤ a.toNat then ofNat? w (a.toNat - b.toNat) else none

/-- The place that lies so many octets before another, if so many lie before it. -/
def before? (place n : Nat) : Checked Nat :=
  if n ≤ place then some (place - n) else none

/-- The octets from `start` up to but without `stop`, if both are places in the octets, or behind
them, and in this order. -/
def slice? (octets : Octets) (start stop : Nat) : Checked Octets :=
  if start ≤ stop ∧ stop ≤ octets.length then some ((octets.take stop).drop start) else none

end Checked

end HttpFraming
