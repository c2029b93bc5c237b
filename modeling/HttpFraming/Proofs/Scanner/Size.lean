import HttpFraming.Proofs.Grammar.Number
import HttpFraming.Proofs.Lexer.Step
import Mathlib.Algebra.Group.Nat.Defs
import Mathlib.Data.List.DropRight

/-!
# The digits of a size

The size of a chunk may come in many pieces. Its digits are the last ones of all octets that a lexer
has consumed by then: a size begins where a body or a line begins, and a line feed is no digit. So
the lexer stands in a size with exactly the value of these digits (`KnowsSize`), and refuses the one
with which it reaches the bound (`KnowsSize.step_eq_overflow_iff`).

## Why the last digits

The number in the phase of a lexer is what it has computed, and to say that it is right one needs
the digits that it was computed from. They are in no state: a call that begins inside a size has
only the number. What a caller has is all that was consumed, and the digits of the size are the
longest run of digits at its end (`lastDigits`). It is not longer than the size, because the octet
in front of the first digit is a line feed or nothing.

## One octet

`KnowsSize` is kept by one octet (`KnowsSize.step`), for which two things have to be known of a
lexer: how it comes into the phases of a size, and when it refuses one. Both are read off a step,
and nothing else of the lexer matters. Of final phases nothing is said.
-/

namespace HttpFraming

open Radix (hexadecimal)

namespace Lexer

variable {part : MessagePart} {l l' : Lexer part} {b : UInt8} {effect : Effect}

/-- A lexer comes to the start of a size by a line feed, and into a size by a digit. -/
theorem size_of_step (h : l.step b = .ok (l', effect)) :
    (l'.phase = .sizeStart → b = 0x0A) ∧ ∀ n, l'.phase = .size n →
      ∃ d, Hexadecimal.value? b.toNat = some d ∧
        ((l.phase = .sizeStart ∧ n = d) ∨ ∃ m, l.phase = .size m ∧ n = 16 * m + d) := by
  cases hp : l.phase <;> simp only [step, hp, endHeaders_eq, enter, afterSize] at h <;>
    (repeat' split at h) <;> cases h <;> simp_all [← UInt8.toNat_inj]

/-- A size is refused for its value at a digit with which it reaches the bound. -/
theorem step_eq_overflow_iff :
    l.step b = .error .chunkSizeOverflow ↔ ∃ n d, l.phase = .size n ∧
      Hexadecimal.value? b.toNat = some d ∧ chunkSizeBound ≤ 16 * n + d := by
  cases hp : l.phase <;> simp only [step, hp, endHeaders_eq, enter] <;>
    (repeat' split) <;> simp_all

end Lexer

/-- The digits at the end of some octets. -/
def lastDigits (octets : Octets) : Octets :=
  octets.rtakeWhile fun b ↦ hexadecimal.isDigit b.toNat

/-- The last digits go on with a digit and end with any other octet. -/
theorem lastDigits_append_singleton (octets : Octets) (b : UInt8) :
    lastDigits (octets ++ [b]) =
      if hexadecimal.isDigit b.toNat then lastDigits octets ++ [b] else [] :=
  List.rtakeWhile_concat _ _ _

/-- One more digit is one more of the last digits. -/
theorem lastDigits_append_of_value? {b : UInt8} {d : Nat}
    (hd : Hexadecimal.value? b.toNat = some d) (octets : Octets) :
    lastDigits (octets ++ [b]) = lastDigits octets ++ [b] := by
  have hb : hexadecimal.isDigit b.toNat = true := Option.isSome_of_eq_some hd
  rw [lastDigits_append_singleton, if_pos hb]

/-- One more digit behind a number. -/
theorem value_append_of_value? {b : UInt8} {d : Nat} (hd : Hexadecimal.value? b.toNat = some d)
    (digits : Octets) :
    hexadecimal.value (digits ++ [b]) = 16 * hexadecimal.value digits + d := by
  have hdigit : hexadecimal.digit b.toNat = d := by
    show (Hexadecimal.value? b.toNat).getD 0 = d
    rw [hd, Option.getD_some]
  rw [Radix.value_append_singleton, hdigit]
  rfl

/-- In the phase `p`, after some octets were consumed, no digit of a size is read or all of them are
known. -/
structure KnowsSize (consumed : Octets) (p : Phase) : Prop where
  start : p = .sizeStart → lastDigits consumed = []
  size : ∀ n, p = .size n → lastDigits consumed ≠ [] ∧ hexadecimal.value (lastDigits consumed) = n

namespace KnowsSize

variable {part : MessagePart} {l l' : Lexer part} {b : UInt8} {effect : Effect} {consumed : Octets}

/-- Before a message no digit is read. -/
theorem of_startPhase (part : MessagePart) : KnowsSize [] (Lexer.startPhase part) := by
  cases part with
  | chunkedBody =>
    refine ⟨fun _ ↦ rfl, fun n h ↦ ?_⟩
    cases h
  | request | response => refine ⟨fun h ↦ ?_, fun n h ↦ ?_⟩ <;> cases h

theorem of_isFinal {p : Phase} (h : p.isFinal = true) : KnowsSize consumed p := by
  refine ⟨?_, fun n ↦ ?_⟩ <;> rintro rfl <;> cases h

/-- **The digits of a size are known** after each octet. -/
theorem step (h : KnowsSize consumed l.phase) (hstep : l.step b = .ok (l', effect)) :
    KnowsSize (consumed ++ [b]) l'.phase where
  start hstart := by
    rw [(Lexer.size_of_step hstep).1 hstart, lastDigits_append_singleton]
    rfl
  size n hn := by
    obtain ⟨d, hd, hdigits⟩ := (Lexer.size_of_step hstep).2 n hn
    rw [lastDigits_append_of_value? hd, value_append_of_value? hd]
    refine ⟨List.append_ne_nil_of_right_ne_nil _ (List.cons_ne_nil b []), ?_⟩
    obtain ⟨hphase, rfl⟩ | ⟨m, hphase, rfl⟩ := hdigits
    · rw [h.start hphase]
      exact Nat.zero_add n
    · rw [(h.size m hphase).2]

/-- **A size is refused for its value** at the digit with which it reaches the bound. -/
theorem step_eq_overflow_iff (h : KnowsSize consumed l.phase) :
    l.step b = .error .chunkSizeOverflow ↔ (∃ n, l.phase = .size n) ∧
      hexadecimal.isDigit b.toNat = true ∧
        2 ^ 64 ≤ hexadecimal.value (lastDigits consumed ++ [b]) := by
  rw [Lexer.step_eq_overflow_iff]
  constructor
  · rintro ⟨n, d, hphase, hd, hle⟩
    rw [value_append_of_value? hd, (h.size n hphase).2]
    exact ⟨⟨n, hphase⟩, Option.isSome_of_eq_some hd, hle⟩
  · rintro ⟨⟨n, hphase⟩, hdigit, hle⟩
    obtain ⟨d, hd⟩ := Option.isSome_iff_exists.1 hdigit
    rw [value_append_of_value? hd, (h.size n hphase).2] at hle
    exact ⟨n, d, hphase, hd, hle⟩

end KnowsSize

end HttpFraming
