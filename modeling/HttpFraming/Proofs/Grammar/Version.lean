import HttpFraming.Proofs.Grammar.Number

/-!
# The language of versions

A version in a start line is `HTTP/` and two numbers below 1000 with a dot between them. It is read
alike in requests and in responses, up to what comes after it.

What comes after it is therefore a parameter of `ends_version`: `X v rest` says that `rest` may
follow the version `v`, and `hleave` that the lexer leaves the second number for exactly this. The
first number is left for the dot alone.

The name of the protocol is compared octet by octet, and `ends_protocol` is an induction over what
is left of it. The lexer counts how far it has come, so that what is left is given by a number, and
the hypothesis `protocolName.drop k = name` ties the two together.
-/

namespace HttpFraming

/-- Some octets spell a version. -/
inductive SpellsVersion (v : Version) : Octets → Prop
  | mk {major minor : Octets} (spellsMajor : Radix.decimal.Spells 1000 v.major major)
    (spellsMinor : Radix.decimal.Spells 1000 v.minor minor) :
    SpellsVersion v (Lexer.protocolName ++ (major ++ 0x2E :: minor))

namespace Lexer

open CharClass

variable {part : MessagePart} {σ : Type} {handle : σ → Event → σ × Flow} {l : Lexer part}
  {s s' : σ} {line : StartLine} {opened x : Octets}

/-- A lexer that has read another version. -/
def withVersion (l : Lexer part) (v : Version) : Lexer part :=
  { l with version := v }

/-- What is left of the protocol name has to come, and then a version. -/
theorem ends_protocol (name : Octets) :
    ∀ {k : Nat} {s : σ} {opened x : Octets}, name ≠ [] → protocolName.drop k = name →
      (Ends handle (l.inPhase (.protocol k)) s opened x s' line ↔
        ∃ y, x = name ++ y ∧ Ends handle (l.inPhase .majorStart) s [] y s' line) := by
  induction name with
  | nil => exact fun hne ↦ absurd rfl hne
  | cons d name ih =>
    intro k s opened x _ hdrop
    have hget : protocolName[k]? = some d := by
      rw [← List.head?_drop, hdrop]
      rfl
    obtain ⟨hlt, -⟩ := List.getElem?_eq_some_iff.1 hget
    have hrest : protocolName.drop (k + 1) = name := by
      rw [← List.tail_drop, hdrop]
      rfl
    cases x with
    | nil => exact iff_of_false (not_ends_nil rfl) (by simp)
    | cons b x =>
      by_cases hb : d = b
      · subst hb
        -- The last letter of the name leads to the first number, and every other one to the letter
        -- after it.
        by_cases hname : name = []
        · have hlast : k + 1 = protocolName.length :=
            Nat.le_antisymm hlt (List.drop_eq_nil_iff.1 (hrest.trans hname))
          have hstep : (l.inPhase (.protocol k)).step d = .ok (l.inPhase .majorStart, .skip) := by
            simp [step, inPhase, enter, hget, hlast]
          rw [ends_cons_skip hstep, hname]
          simp
        · have hnext : k + 1 ≠ protocolName.length := fun h ↦
            hname (hrest.symm.trans (List.drop_eq_nil_iff.2 (Nat.le_of_eq h.symm)))
          have hstep : (l.inPhase (.protocol k)).step d =
              .ok (l.inPhase (.protocol (k + 1)), .skip) := by
            simp [step, inPhase, enter, hget, hnext]
          rw [ends_cons_skip hstep, ih hname hrest]
          simp
      · have hstep : (l.inPhase (.protocol k)).step b = .error .invalidConstant := by
          simp [step, inPhase, hget, hb]
        refine iff_of_false (not_ends_cons_error hstep) ?_
        rintro ⟨y, hy, -⟩
        exact hb (List.cons.inj hy).1.symm

theorem digit_lt {c : Nat} (h : isDigit c = true) : c - 0x30 < 1000 := by
  simp only [isDigit, Bool.and_eq_true, decide_eq_true_eq] at h
  omega

/-- A digit is added to a number if the number stays below the bound. -/
theorem versionDigit?_eq {n c : Nat} (h : isDigit c = true) :
    versionDigit? n c =
      if 10 * n + (c - 0x30) < 1000 then some (10 * n + (c - 0x30)) else none := by
  rw [versionDigit?, if_pos h, maxVersionNumber]
  simp only [Nat.lt_succ_iff]

theorem versionDigit?_eq_none {n c : Nat} (h : isDigit c = false) : versionDigit? n c = none := by
  rw [versionDigit?, h, if_neg Bool.false_ne_true]

/-- The number before the dot. -/
theorem ends_majorStart :
    Ends handle (l.inPhase .majorStart) s opened x s' line ↔
      ∃ digits n rest, x = digits ++ rest ∧ Radix.decimal.Spells 1000 n digits ∧
        ∃ y, rest = 0x2E :: y ∧
          Ends handle ((l.withVersion ⟨n, l.version.minor⟩).inPhase .minorStart) s [] y s'
            line := by
  have hfirst : Ends handle (l.inPhase .majorStart) s opened x s' line ↔
      Radix.decimal.First (fun n y ↦
        Ends handle ((l.withVersion ⟨n, l.version.minor⟩).inPhase .major) s [] y s' line) x :=
    Radix.ends_iff_first rfl (fun hb ↦ ends_cons_skip (if_pos hb))
      fun hb ↦ ⟨.invalidVersion, if_neg (Bool.eq_false_iff.1 hb)⟩
  refine hfirst.trans <| Radix.loop_iff (by decide) (fun _ ↦ digit_lt) (fun _ ↦ not_ends_nil rfl)
    ?stay ?leave ?exit
  case stay =>
    intro n b x hb
    have hdot : b.toNat ≠ 0x2E := ne_of_class hb rfl
    have hdigit := versionDigit?_eq (n := n) hb
    show _ ↔ 10 * n + (b.toNat - 0x30) < 1000 ∧ _
    refine ends_cons_skip_iff (fun hlt ↦ ?_) fun hlt ↦ ⟨.invalidVersion, ?_⟩
    · rw [if_pos hlt] at hdigit
      simp only [step, inPhase, withVersion, hdot, if_false, hdigit]
      rfl
    · rw [if_neg hlt] at hdigit
      simp only [step, inPhase, withVersion, hdot, if_false, hdigit]
  case leave =>
    intro n b x hb
    by_cases hdot : b.toNat = 0x2E
    · obtain rfl : b = 0x2E := UInt8.toNat_inj.1 hdot
      have hstep : ((l.withVersion ⟨n, l.version.minor⟩).inPhase .major).step 0x2E =
          .ok ((l.withVersion ⟨n, l.version.minor⟩).inPhase .minorStart, .skip) := rfl
      rw [ends_cons_skip hstep]
      simp
    · have hb' : b ≠ 0x2E := fun h ↦ hdot (congrArg UInt8.toNat h)
      have hstep : ((l.withVersion ⟨n, l.version.minor⟩).inPhase .major).step b =
          .error .invalidVersion := by
        simp [step, inPhase, withVersion, hdot, versionDigit?_eq_none hb]
      exact iff_of_false (not_ends_cons_error hstep) (by simp [hb'])
  case exit =>
    rintro n rest ⟨y, rfl, -⟩
    exact ⟨0x2E, y, rfl, rfl⟩

/-- The number after the dot, and what has to come then. -/
theorem ends_minorStart {X : Version → Octets → Prop}
    (hleave : ∀ {v b y}, isDigit b.toNat = false →
      (Ends handle ((l.withVersion v).inPhase .minor) s [] (b :: y) s' line ↔ X v (b :: y)))
    (hexit : ∀ {v rest}, X v rest → ∃ b y, rest = b :: y ∧ isDigit b.toNat = false) :
    Ends handle (l.inPhase .minorStart) s opened x s' line ↔
      ∃ digits n rest, x = digits ++ rest ∧ Radix.decimal.Spells 1000 n digits ∧
        X ⟨l.version.major, n⟩ rest := by
  have hfirst : Ends handle (l.inPhase .minorStart) s opened x s' line ↔
      Radix.decimal.First (fun n y ↦
        Ends handle ((l.withVersion ⟨l.version.major, n⟩).inPhase .minor) s [] y s' line) x :=
    Radix.ends_iff_first rfl (fun hb ↦ ends_cons_skip (if_pos hb))
      fun hb ↦ ⟨.invalidVersion, if_neg (Bool.eq_false_iff.1 hb)⟩
  refine hfirst.trans <| Radix.loop_iff (X := fun n rest ↦ X ⟨l.version.major, n⟩ rest) (by decide)
    (fun _ ↦ digit_lt) (fun _ ↦ not_ends_nil rfl) ?stay hleave hexit
  case stay =>
    intro n b x hb
    have hdigit := versionDigit?_eq (n := n) hb
    show _ ↔ 10 * n + (b.toNat - 0x30) < 1000 ∧ _
    refine ends_cons_skip_iff (fun hlt ↦ ?_) fun hlt ↦ ⟨.invalidVersion, ?_⟩
    · rw [if_pos hlt] at hdigit
      simp only [step, inPhase, withVersion, hdigit]
      rfl
    · rw [if_neg hlt] at hdigit
      have hcr : b.toNat ≠ 0x0D := ne_of_class hb rfl
      have hlf : b.toNat ≠ 0x0A := ne_of_class hb rfl
      have hspace : b.toNat ≠ 0x20 := ne_of_class hb rfl
      -- What may end a version depends on the part that is read, but it is never a digit.
      cases part <;> simp [step, inPhase, withVersion, hdigit, hcr, hlf, hspace]

/-- Both numbers, and what has to come then. -/
theorem ends_version {X : Version → Octets → Prop}
    (hleave : ∀ {v b y}, isDigit b.toNat = false →
      (Ends handle ((l.withVersion v).inPhase .minor) s [] (b :: y) s' line ↔ X v (b :: y)))
    (hexit : ∀ {v rest}, X v rest → ∃ b y, rest = b :: y ∧ isDigit b.toNat = false) :
    Ends handle (l.inPhase .majorStart) s opened x s' line ↔
      ∃ text v rest, x = text ++ rest ∧ SpellsVersion v (protocolName ++ text) ∧ X v rest := by
  have hminor (n : Nat) (y : Octets) :
      Ends handle ((l.withVersion ⟨n, l.version.minor⟩).inPhase .minorStart) s [] y s' line ↔
        ∃ digits k rest, y = digits ++ rest ∧ Radix.decimal.Spells 1000 k digits ∧ X ⟨n, k⟩ rest :=
    ends_minorStart hleave hexit
  rw [ends_majorStart]
  constructor
  · rintro ⟨major, n, _, rfl, hn, y, rfl, h⟩
    obtain ⟨minor, k, rest, rfl, hk, hrest⟩ := (hminor n y).1 h
    exact ⟨major ++ 0x2E :: minor, ⟨n, k⟩, rest, by simp, .mk hn hk, hrest⟩
  · rintro ⟨text, ⟨n, k⟩, rest, rfl, hspells, hrest⟩
    generalize htext : protocolName ++ text = z at hspells
    cases hspells with
    | @mk major minor hn hk =>
      obtain rfl := List.append_cancel_left htext
      refine ⟨major, n, 0x2E :: (minor ++ rest), by simp, hn, minor ++ rest, rfl, ?_⟩
      exact (hminor n _).2 ⟨minor, k, rest, rfl, hk, hrest⟩

end Lexer

end HttpFraming
