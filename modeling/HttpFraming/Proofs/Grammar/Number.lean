import HttpFraming.Proofs.Grammar.Ends
import HttpFraming.Text.Hexadecimal

/-!
# Numbers as they are written

Versions are written in decimal and sizes of chunks in hexadecimal. Both are written with any number
of leading zeros, and both have a bound. A lexer computes the number as the digits come and checks
the bound at each of them; `Radix.loop_iff` says that this is to check the number in the end.

That it is the same needs the bound to be hereditary: a number does not shrink when digits are put
behind it, since its base is not zero. So no beginning of an admissible number is refused.

A number has a first digit, in a phase of its own, for otherwise it could be empty. `Radix.First` is
that phase. The loop is about what comes behind it, and sees each digit with the number so far. It
is `Lexer.boundedLoop_iff`, for the digits read as a stack.
-/

namespace HttpFraming

/-- A way of writing numbers: its base, its digits and what they count. -/
structure Radix where
  base : Nat
  isDigit : Nat → Bool
  digit : Nat → Nat

namespace Radix

def decimal : Radix :=
  ⟨10, CharClass.isDigit, fun c ↦ c - 0x30⟩

/-- Digits above nine are letters of either case. -/
def hexadecimal : Radix :=
  ⟨16, fun c ↦ (Hexadecimal.value? c).isSome, fun c ↦ (Hexadecimal.value? c).getD 0⟩

variable {r : Radix} {m : Nat} {x : Octets}

/-- The number that some digits denote. -/
def value (r : Radix) (digits : Octets) : Nat :=
  digits.foldl (fun n b ↦ r.base * n + r.digit b.toNat) 0

/-- One more digit behind a number. -/
theorem value_append_singleton (r : Radix) (digits : Octets) (b : UInt8) :
    r.value (digits ++ [b]) = r.base * r.value digits + r.digit b.toNat := by
  simp [value]

/-- Some octets spell a number below a bound. -/
structure Spells (r : Radix) (bound n : Nat) (digits : Octets) : Prop where
  nonempty : digits ≠ []
  only : Only r.isDigit digits
  value : r.value digits = n
  lt_bound : n < bound

/-- The first digit of a number, with `E` for what comes after it. -/
def First (r : Radix) (E : Nat → Octets → Prop) (x : Octets) : Prop :=
  ∃ b y, x = b :: y ∧ r.isDigit b.toNat = true ∧ E (r.digit b.toNat) y

/-- A phase that takes a digit and nothing else. -/
theorem ends_iff_first {part : MessagePart} {σ : Type} {handle : σ → Event → σ × Flow}
    {k : Lexer part} {s s' : σ} {opened : Octets} {line : StartLine} {E : Nat → Octets → Prop}
    (hnil : k.phase.endsHeaders = false)
    (hfirst : ∀ {b x}, r.isDigit b.toNat = true →
      (Lexer.Ends handle k s opened (b :: x) s' line ↔ E (r.digit b.toNat) x))
    (hother : ∀ {b : UInt8}, r.isDigit b.toNat = false → ∃ e, k.step b = .error e) :
    Lexer.Ends handle k s opened x s' line ↔ r.First E x := by
  cases x with
  | nil => exact iff_of_false (Lexer.not_ends_nil hnil) (by simp [First])
  | cons b x =>
    cases hb : r.isDigit b.toNat with
    | true =>
      rw [hfirst hb]
      constructor
      · exact fun h ↦ ⟨b, x, rfl, hb, h⟩
      · rintro ⟨d, y, hx, -, h⟩
        obtain ⟨rfl, rfl⟩ := List.cons.inj hx
        exact h
    | false =>
      obtain ⟨e, he⟩ := hother hb
      refine iff_of_false (Lexer.not_ends_cons_error he) ?_
      rintro ⟨d, y, hx, hd, -⟩
      obtain ⟨rfl, -⟩ := List.cons.inj hx
      exact absurd (hb.symm.trans hd) Bool.false_ne_true

/-- **A loop over the digits of a number.** `E n` says that it ends well once the digits so far
denote `n`, and `X n` what has to come when it is left. -/
theorem loop_iff {E X : Nat → Octets → Prop} (hbase : 0 < r.base)
    (hdigit : ∀ c, r.isDigit c = true → r.digit c < m) (hnil : ∀ n, ¬ E n [])
    (hstay : ∀ {n b x}, r.isDigit b.toNat = true → (E n (b :: x) ↔
      r.base * n + r.digit b.toNat < m ∧ E (r.base * n + r.digit b.toNat) x))
    (hleave : ∀ {n b x}, r.isDigit b.toNat = false → (E n (b :: x) ↔ X n (b :: x)))
    (hexit : ∀ {n rest}, X n rest → ∃ b x, rest = b :: x ∧ r.isDigit b.toNat = false) :
    r.First E x ↔ ∃ digits n rest, x = digits ++ rest ∧ r.Spells m n digits ∧ X n rest := by
  have hone (b : UInt8) : r.value [b] = r.digit b.toNat := by simp [value]
  have hloop {b : UInt8} (hb : r.isDigit b.toNat = true) (y : Octets) :
      E (r.value [b]) y ↔ ∃ run rest, y = run ++ rest ∧ Only r.isDigit run ∧
        r.value (b :: run) < m ∧ X (r.value (b :: run)) rest := by
    have h := Lexer.boundedLoop_iff (p := r.isDigit) (B := fun o ↦ r.value o.reverse < m)
      (E := fun o x ↦ E (r.value o.reverse) x) (X := fun o rest ↦ X (r.value o.reverse) rest)
      (o := [b]) (x := y) (fun _ ↦ hnil _) ?stay hleave hexit ?bound ?first
    case stay =>
      intro o d x hd
      rw [List.reverse_cons, value_append_singleton]
      exact hstay hd
    case bound =>
      -- A number does not shrink with the digits, so its beginnings are below the bound too.
      intro d o h
      rw [List.reverse_cons, value_append_singleton] at h
      have := Nat.le_mul_of_pos_left (r.value o.reverse) hbase
      omega
    case first =>
      show r.value [b] < m
      rw [hone]
      exact hdigit _ hb
    simpa using h
  constructor
  · rintro ⟨b, y, rfl, hb, hE⟩
    rw [← hone] at hE
    obtain ⟨run, rest, rfl, hrun, hlt, hX⟩ := (hloop hb y).1 hE
    exact ⟨b :: run, _, rest, rfl, ⟨List.cons_ne_nil b run, only_cons.2 ⟨hb, hrun⟩, rfl, hlt⟩, hX⟩
  · rintro ⟨digits, _, rest, rfl, ⟨hne, honly, rfl, hlt⟩, hX⟩
    cases digits with
    | nil => exact absurd rfl hne
    | cons b run =>
      obtain ⟨hb, hrun⟩ := only_cons.1 honly
      refine ⟨b, run ++ rest, rfl, hb, ?_⟩
      rw [← hone]
      exact (hloop hb _).2 ⟨run, rest, rfl, hrun, hlt, hX⟩

end Radix

end HttpFraming
