import HttpFraming.Wire.Error

/-!
# What two cuts of an input have in common

Limits are checked when a piece is reported, and the grammar at every octet. So of an input that
breaks both, one cut may show the one error and another cut the other. This is all that a cut can
change, and it goes one way: the finer cut `Anticipates` the coarser one. The coarsest is the input
in one piece, and with it every cut is compared. Two cuts are not compared with each other directly.
That they agree follows from both of them foreseeing the verdict on the input in one piece
(`Verdict.Anticipates.agree`).

## Two relations

* `Anticipates` is not symmetric, and it is what an induction over the pieces can carry: a cut that
  goes on after a refusal in one of its pieces has nothing left to say, whatever the whole comes to.
* `Agree` is what a caller can be told of two cuts, neither of which is finer than the other. It is
  weaker for refusals, where only two by the grammar have to be for one cause at one place, and it
  says of inputs that are not finished that all of their octets are consumed.

Both are about a verdict together with the number of octets consumed, since a verdict alone would
let two cuts accept different beginnings of an input. No parser occurs here: heads and bodies both
come to verdicts, and the relations are shared.
-/

namespace HttpFraming

/-- What a reader of messages says of what it has read. -/
inductive Verdict (α : Type) where
  | unfinished
  | accepted (value : α)
  | refused (cause : ParseError)

namespace Verdict

variable {α : Type}

/-- One verdict, with the number of octets consumed, foresees another: it is the same, or it refuses
for another reason than the grammar what the other refuses for whatever reason. -/
inductive Anticipates : Verdict α × Nat → Verdict α × Nat → Prop
  | refl (v : Verdict α × Nat) : Anticipates v v
  | refused {e f : ParseError} {m n : Nat} (h : ∀ cause, e ≠ .malformed cause) :
    Anticipates (.refused e, m) (.refused f, n)

/-- Two verdicts on `total` octets agree: on the same value and as many octets consumed, on a
refusal, or on nothing yet with all octets consumed. Two refusals by the grammar are for the same
cause at the same place. -/
inductive Agree (total : Nat) : Verdict α × Nat → Verdict α × Nat → Prop
  | accepted (value : α) (n : Nat) : Agree total (.accepted value, n) (.accepted value, n)
  | refused {e f : ParseError} {m n : Nat}
    (h : ∀ c d, e = .malformed c → f = .malformed d → c = d ∧ m = n) :
    Agree total (.refused e, m) (.refused f, n)
  | unfinished : Agree total (.unfinished, total) (.unfinished, total)

variable {u v w : Verdict α × Nat}

/-- What verdicts that agree say. -/
theorem Agree.split {total : Nat} (h : Agree total u v) :
    (∃ value, u.1 = .accepted value ∧ v.1 = .accepted value ∧ u.2 = v.2) ∨
      (∃ e f, u.1 = .refused e ∧ v.1 = .refused f ∧
        ∀ c d, e = .malformed c → f = .malformed d → c = d ∧ u.2 = v.2) ∨
      ((u.1 = .unfinished ∧ u.2 = total) ∧ v.1 = .unfinished ∧ v.2 = total) := by
  cases h with
  | accepted value n => exact .inl ⟨value, rfl, rfl, rfl⟩
  | @refused e f m n h => exact .inr (.inl ⟨e, f, rfl, rfl, h⟩)
  | unfinished => exact .inr (.inr ⟨⟨rfl, rfl⟩, rfl, rfl⟩)

namespace Anticipates

/-- Only refusals foresee one another without being the same. -/
theorem eq_or_refused (h : Anticipates u v) :
    u = v ∨ ∃ e f, u.1 = .refused e ∧ v.1 = .refused f := by
  cases h with
  | refl => exact .inl rfl
  | @refused e f m n h => exact .inr ⟨e, f, rfl, rfl⟩

theorem add_consumed {v w : Verdict α} {m n : Nat} (h : Anticipates (v, m) (w, n)) (k : Nat) :
    Anticipates (v, k + m) (w, k + n) := by
  cases h with
  | refl => exact .refl _
  | refused h => exact .refused h

/-- Two verdicts that foresee the same one agree. -/
theorem agree {total : Nat} (hu : Anticipates u w) (hv : Anticipates v w)
    (hw : w.1 = .unfinished → w.2 = total) : Agree total u v := by
  obtain ⟨w, n⟩ := w
  cases hu with
  | refl =>
    cases hv with
    | refl =>
      cases w with
      | unfinished =>
        obtain rfl : n = total := hw rfl
        exact .unfinished
      | accepted value => exact .accepted value n
      | refused e =>
        refine .refused fun c d hc hd ↦ ⟨?_, rfl⟩
        exact ParseError.malformed.inj (hc.symm.trans hd)
    | refused h => exact .refused fun _ d _ hd ↦ absurd hd (h d)
  | refused h =>
    cases hv with
    | refl | refused => exact .refused fun c _ hc _ ↦ absurd hc (h c)

end Anticipates

end Verdict

end HttpFraming
