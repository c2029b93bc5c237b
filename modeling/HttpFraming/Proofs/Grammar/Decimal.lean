import HttpFraming.Proofs.Grammar.Number
import HttpFraming.Proofs.Text.Ascii
import HttpFraming.Text.Decimal
import Mathlib.Data.List.Basic
import Mathlib.Data.List.Induction

/-!
# Decimal numbers as text and as octets

A text and the octets that spell it denote the same number, so that `Decimal.readBelow?`, which
reads a text, and the grammar of numbers on the wire agree (`Radix.spells_encode_iff`). Digits that
denote a number are the digits in which it is written, with zeros in front of them
(`Decimal.exists_zeros_append_digits`).

Decimal numbers are read by a lexer in a start line, and from a text in a version, a declared length
and a port. The bounds differ, and a lexer computes the number digit by digit. Nevertheless there is
one notion of digits that denote a number, `Radix.Spells`, and what is read elsewhere is translated
to it here.

That leading zeros are all that can be dropped is shown by an induction from the last digit on, the
way in which a number grows when it is read. As long as the number is zero, there have been nothing
but zeros, of which one is the digit that writes it.
-/

namespace HttpFraming

theorem lt_of_isDigit {c : Nat} (h : CharClass.isDigit c = true) : c < 0x80 := by
  simp only [CharClass.isDigit, Bool.and_eq_true, decide_eq_true_eq] at h
  omega

namespace Decimal

/-- A number is read from one digit or more, if it is below the bound. -/
theorem readBelow?_eq_some_iff {bound n : Nat} {cs : List Char} :
    readBelow? bound cs = some n ↔
      cs ≠ [] ∧ (∀ c ∈ cs, CharClass.isDigit c.toNat = true) ∧ value cs = n ∧ n < bound := by
  simp only [readBelow?, read?, Option.filter_eq_some_iff, Option.ite_none_right_eq_some,
    Bool.and_eq_true, Bool.not_eq_true', List.isEmpty_eq_false_iff, List.all_eq_true,
    Option.some.injEq, decide_eq_true_eq, and_assoc, ne_eq]

/-- A digit is written as itself. -/
theorem exists_digit_of_isDigit {c : Char} (hc : CharClass.isDigit c.toNat = true) :
    ∃ d < 10, c = digit d := by
  simp only [CharClass.isDigit, Bool.and_eq_true, decide_eq_true_eq] at hc
  have hd : c.toNat - 0x30 < 10 := by omega
  refine ⟨c.toNat - 0x30, hd, Char.toNat_inj.1 ?_⟩
  rw [toNat_digit hd]
  omega

theorem digits_of_lt {n : Nat} (h : n < 10) : digits n = [digit n] := by
  rw [digits, if_pos h]

/-- A digit at the end of a number that is not zero is a digit more. -/
theorem digits_mul_add {v d : Nat} (hv : v ≠ 0) (hd : d < 10) :
    digits (10 * v + d) = digits v ++ [digit d] := by
  have hdiv : (10 * v + d) / 10 = v := by omega
  have hmod : (10 * v + d) % 10 = d := by omega
  rw [digits, if_neg (by omega), hdiv, hmod]

/-- **What some digits add to the number that they denote are zeros in front.** -/
theorem exists_zeros_append_digits {cs : List Char} (hne : cs ≠ [])
    (hdigits : ∀ c ∈ cs, CharClass.isDigit c.toNat = true) :
    ∃ zeros, cs = List.replicate zeros '0' ++ digits (value cs) := by
  induction cs using List.reverseRecOn with
  | nil => exact absurd rfl hne
  | append_singleton cs c ih =>
    obtain ⟨hcs, hc⟩ := List.forall_mem_append.1 hdigits
    obtain ⟨d, hd, rfl⟩ := exists_digit_of_isDigit (hc c (List.mem_singleton.2 rfl))
    rw [value_append_digit cs hd]
    by_cases hnil : cs = []
    · subst hnil
      have hvalue : 10 * value [] + d = d := Nat.zero_add d
      rw [hvalue, digits_of_lt hd]
      exact ⟨0, rfl⟩
    obtain ⟨zeros, hzeros⟩ := ih hnil hcs
    by_cases hvalue : value cs = 0
    · -- Nothing but zeros so far: the one that writes the number is in front now.
      rw [hvalue] at hzeros ⊢
      rw [digits_of_lt (by decide)] at hzeros
      refine ⟨zeros + 1, ?_⟩
      rw [hzeros, Nat.mul_zero, Nat.zero_add, digits_of_lt hd, List.replicate_succ']
      rfl
    · refine ⟨zeros, ?_⟩
      rw [digits_mul_add hvalue hd, ← List.append_assoc, ← hzeros]

end Decimal

namespace Radix

/-- Digits denote the same number as characters and as octets. -/
theorem value_encode {s : String} (h : ∀ c ∈ s.toList, CharClass.isDigit c.toNat = true) :
    decimal.value (Utf8.encode s) = Decimal.value s.toList := by
  have hascii : ∀ c ∈ s.toList, c.toNat < 0x80 := fun c hc ↦ lt_of_isDigit (h c hc)
  have hencode := Utf8.encode_ofList_of_ascii hascii
  rw [String.ofList_toList] at hencode
  rw [hencode, value, List.foldl_map, Decimal.value]
  refine List.foldl_ext _ _ 0 fun v c hc ↦ ?_
  have hoctet : (UInt8.ofNat c.toNat).toNat = c.toNat := by
    have := hascii c hc
    rw [UInt8.toNat_ofNat']
    omega
  rw [hoctet]
  rfl

/-- To read a text as a number is to read the octets that spell it. -/
theorem spells_encode_iff {bound n : Nat} {s : String} :
    decimal.Spells bound n (Utf8.encode s) ↔ Decimal.readBelow? bound s.toList = some n := by
  have hne : Utf8.encode s ≠ [] ↔ s.toList ≠ [] := by
    rw [Ne, Utf8.encode_eq_nil_iff, Ne, String.toList_eq_nil_iff]
  have honly : Only CharClass.isDigit (Utf8.encode s) ↔
      ∀ c ∈ s.toList, CharClass.isDigit c.toNat = true :=
    Utf8.only_encode_iff (fun _ ↦ lt_of_isDigit) s
  rw [Decimal.readBelow?_eq_some_iff]
  constructor
  · rintro ⟨hnil, hdigits, hvalue, hlt⟩
    exact ⟨hne.1 hnil, honly.1 hdigits, value_encode (honly.1 hdigits) ▸ hvalue, hlt⟩
  · rintro ⟨hnil, hdigits, hvalue, hlt⟩
    exact ⟨hne.2 hnil, honly.2 hdigits, (value_encode hdigits).trans hvalue, hlt⟩

/-- A number that is written spells itself. -/
theorem spells_print {bound n : Nat} (h : n < bound) :
    decimal.Spells bound n (Utf8.encode (Decimal.print n)) := by
  rw [spells_encode_iff, Decimal.print, String.toList_ofList]
  exact Decimal.readBelow?_digits h

end Radix

end HttpFraming
