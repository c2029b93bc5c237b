import HttpFraming.Wire.Checked
import Mathlib.Algebra.Group.Nat.Defs

/-!
# Where operations have a result

An operation has a result if its range holds the one that is meant, and then it is that one. There
is one law of this kind for each operation, with a hypothesis about numbers without bound. Whoever
computes with numbers of fixed width has to show that hypothesis where the operation is used, and
may then forget the width.

All of them come down to `Checked.ofNat?_eq_some_iff`: a result is the number that was asked for. It
is an equivalence, so that a failure is as exact as a success. `Checked.ofNat?_eq_none_iff` says
that numbers fail exactly from two to the power of the width on, and it is what an overflow that is
reported as an error is compared with.
-/

namespace HttpFraming.Checked

variable {w : Nat} {a b c : BitVec w} {n : Nat}

/-- A result is the number that is meant, in so many bits. -/
theorem ofNat?_eq_some_iff : ofNat? w n = some c ↔ c.toNat = n := by
  rw [ofNat?]
  split
  · rename_i h
    rw [Option.some.injEq, ← BitVec.toNat_inj, h]
    exact eq_comm
  · rename_i h
    refine iff_of_false (by rintro ⟨⟩) ?_
    rintro rfl
    exact h (by rw [BitVec.ofNat_toNat, BitVec.setWidth_eq])

/-- There is no result exactly where the bits do not hold the number. -/
theorem ofNat?_eq_none_iff : ofNat? w n = none ↔ 2 ^ w ≤ n := by
  rw [ofNat?, BitVec.toNat_ofNat]
  split
  · rename_i h
    refine iff_of_false (by rintro ⟨⟩) (Nat.not_le_of_lt ?_)
    exact h ▸ Nat.mod_lt n (Nat.two_pow_pos w)
  · rename_i h
    exact iff_of_true rfl (Nat.le_of_not_lt fun hlt ↦ h (Nat.mod_eq_of_lt hlt))

theorem exists_ofNat? (h : n < 2 ^ w) : ∃ c, ofNat? w n = some c ∧ c.toNat = n := by
  obtain ⟨c, hc⟩ := Option.ne_none_iff_exists'.1 (mt ofNat?_eq_none_iff.1 (Nat.not_le_of_lt h))
  exact ⟨c, hc, ofNat?_eq_some_iff.1 hc⟩

/-- To count on has a result below the bound. -/
theorem exists_add_one? (h : a.toNat + 1 < 2 ^ w) :
    ∃ c, add? a 1 = some c ∧ c.toNat = a.toNat + 1 := by
  have hwidth : 1 < 2 ^ w := by omega
  have hone : (1 : BitVec w).toNat = 1 := Nat.mod_eq_of_lt hwidth
  rw [add?, hone]
  exact exists_ofNat? h

/-- A difference has a result where it does not fall below zero. -/
theorem exists_sub? (h : b.toNat ≤ a.toNat) :
    ∃ c, sub? a b = some c ∧ c.toNat = a.toNat - b.toNat := by
  rw [sub?, if_pos h]
  exact exists_ofNat? (Nat.lt_of_le_of_lt (Nat.sub_le _ _) a.isLt)

/-- There is a place before another, if so many octets lie in front of it. -/
theorem before?_of_le {place : Nat} (h : n ≤ place) : before? place n = some (place - n) :=
  if_pos h

/-- A range that lies in some octets is cut out of them. -/
theorem slice?_of_le {octets : Octets} {start stop : Nat} (h : start ≤ stop)
    (hstop : stop ≤ octets.length) :
    slice? octets start stop = some ((octets.take stop).drop start) :=
  if_pos ⟨h, hstop⟩

end HttpFraming.Checked
