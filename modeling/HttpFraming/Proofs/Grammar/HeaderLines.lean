import HttpFraming.Proofs.Grammar.Ends

/-!
# The language of header lines

Which octets lead a lexer from the beginning of a header line to where the headers can end, and what
its handler is told on the way. This part of a message is read alike in heads and in the trailers of
chunked bodies, and whoever handles it.

## From the value back to the name

Each phase has an equivalence of its own, and since they are about all that is left, they are proved
from the end of a line to its beginning: the value, the blanks in front of it, the colon, the name.
A value may be empty, but if it is not, it does not begin with a blank. `EndsAfterValue` is this
rule, and it is what the loop over the blanks is left for.

## From one line to all

`ends_fieldStart` is the step: either the headers end here, or there is a line and then `Ends` from
the same phase. `ends_headerLines` is the induction. In one direction it is over the length of what
is left, in the other over the lines.

Nothing is said of limits. A handler may refuse a piece, and then it is not told what follows, which
is what `tellLines?` is about.
-/

namespace HttpFraming.Lexer

open CharClass

variable {part : MessagePart} {σ : Type} {handle : σ → Event → σ × Flow} {l : Lexer part}
  {s s' : σ} {line : StartLine} {opened x : Octets}

/-- The state after a handler was told a header line, if it wants to go on. -/
def tellLine? (handle : σ → Event → σ × Flow) (s : σ) (f : RawLine) : Option σ :=
  (told? handle s .fieldName f.name).bind fun t ↦ told? handle t .fieldValue f.value

/-- The state after a handler was told some header lines, if it wants to go on. -/
def tellLines? (handle : σ → Event → σ × Flow) (s : σ) (lines : List RawLine) : Option σ :=
  lines.foldlM (tellLine? handle) s

/-! ### One line -/

theorem needsLf_fieldLf (l : Lexer part) : NeedsLf (l.inPhase .fieldLf) (l.inPhase .fieldStart) :=
  fun _ ↦ rfl

/-- The octets of a value reach up to the end of the line. -/
theorem ends_fieldValue :
    Ends handle (l.inPhase .fieldValue) s opened x s' line ↔
      ∃ value rest, x = value ++ rest ∧ Only isFieldValueChar value ∧
        ∃ t, told? handle s .fieldValue (value.reverse ++ opened).reverse = some t ∧
          EndsAfterLine handle (l.inPhase .fieldStart) t rest s' line := by
  refine ends_upToLineEnd (p := isFieldValueChar) rfl rfl (fun b hb ↦ ?stay) rfl rfl
    (fun b hb hcr hlf ↦ ⟨.invalidFieldValue, ?other⟩) (needsLf_fieldLf l) rfl rfl
  case stay =>
    have hcr : b.toNat ≠ 0x0D := ne_of_class hb rfl
    have hlf : b.toNat ≠ 0x0A := ne_of_class hb rfl
    simp [step, inPhase, hcr, hlf, hb]
  case other => simp [step, inPhase, hcr, hlf, hb]

/-- A value that does not begin with a blank, up to the end of the line. -/
def EndsAfterValue (handle : σ → Event → σ × Flow) (l : Lexer part) (s : σ) (x : Octets) (s' : σ)
    (line : StartLine) : Prop :=
  ∃ value rest, x = value ++ rest ∧ Only isFieldValueChar value ∧
    (∀ b ∈ value.head?, isWhitespace b.toNat = false) ∧
      ∃ t, told? handle s .fieldValue value = some t ∧
        EndsAfterLine handle (l.inPhase .fieldStart) t rest s' line

/-- What comes after the blanks in front of a value begins with no blank. -/
theorem exists_of_endsAfterValue (h : EndsAfterValue handle l s x s' line) :
    ∃ b y, x = b :: y ∧ isWhitespace b.toNat = false := by
  obtain ⟨value, rest, rfl, -, hhead, t, -, hrest⟩ := h
  cases value with
  | nil => exact stops_of_endsAfterLine rfl rfl hrest
  | cons b value => exact ⟨b, value ++ rest, rfl, hhead b rfl⟩

/-- Blanks, and then a value up to the end of the line. -/
theorem ends_valueStart :
    Ends handle (l.inPhase .valueStart) s [] x s' line ↔
      ∃ blanks rest, x = blanks ++ rest ∧ Only isWhitespace blanks ∧
        EndsAfterValue handle l s rest s' line := by
  refine loop_iff (E := fun _ x ↦ Ends handle (l.inPhase .valueStart) s [] x s' line)
    (X := fun _ rest ↦ EndsAfterValue handle l s rest s' line) (o := [])
    (fun _ ↦ not_ends_nil rfl) ?stay ?leave exists_of_endsAfterValue
  case stay =>
    intro _ b x hb
    exact ends_cons_skip (by simp [step, inPhase, hb])
  case leave =>
    intro _ b x hb
    -- The value begins, or it is empty and the line ends.
    by_cases hvalue : isFieldValueChar b.toNat = true
    · have hcr : b.toNat ≠ 0x0D := ne_of_class hvalue rfl
      have hlf : b.toNat ≠ 0x0A := ne_of_class hvalue rfl
      have hstep : (l.inPhase .valueStart).step b = .ok (l.inPhase .fieldValue, .extend) := by
        simp [step, inPhase, enter, hb, hcr, hlf, hvalue]
      rw [ends_cons_extend hstep, ends_fieldValue]
      constructor
      · rintro ⟨value, rest, rfl, honly, t, ht, hrest⟩
        refine ⟨b :: value, rest, rfl, only_cons.2 ⟨hvalue, honly⟩, ?_, t, ?_, hrest⟩
        · simpa using hb
        · simpa using ht
      · rintro ⟨value, rest, hx, honly, hhead, t, ht, hrest⟩
        rcases List.cons_eq_append_iff.1 hx with ⟨-, rfl⟩ | ⟨value, rfl, rfl⟩
        · exact absurd hrest (not_endsAfterLine_cons hcr hlf)
        · refine ⟨value, rest, rfl, (only_cons.1 honly).2, t, ?_, hrest⟩
          simpa using ht
    · have hstep (hcr : b.toNat ≠ 0x0D) (hlf : b.toNat ≠ 0x0A) :
          ∃ e, (l.inPhase .valueStart).step b = .error e :=
        ⟨.invalidFieldValue, by simp [step, inPhase, hb, hcr, hlf, hvalue]⟩
      rw [ends_cons_lineEnd_close rfl rfl (needsLf_fieldLf l) rfl hstep]
      constructor
      · rintro ⟨t, ht, hrest⟩
        exact ⟨[], b :: x, rfl, only_nil, by simp, t, ht, hrest⟩
      · rintro ⟨value, rest, hx, honly, -, t, ht, hrest⟩
        rcases List.cons_eq_append_iff.1 hx with ⟨rfl, rfl⟩ | ⟨value, rfl, -⟩
        · exact ⟨t, ht, hrest⟩
        · exact absurd (only_cons.1 honly).1 hvalue

/-- A name reaches up to the colon. -/
theorem ends_fieldName :
    Ends handle (l.inPhase .fieldName) s opened x s' line ↔
      ∃ name rest, x = name ++ rest ∧ Only isTchar name ∧
        ∃ y t, rest = 0x3A :: y ∧
          told? handle s .fieldName (name.reverse ++ opened).reverse = some t ∧
            Ends handle (l.inPhase .valueStart) t [] y s' line := by
  refine loop_iff (E := fun o x ↦ Ends handle (l.inPhase .fieldName) s o x s' line)
    (X := fun o rest ↦ ∃ y t, rest = 0x3A :: y ∧ told? handle s .fieldName o.reverse = some t ∧
      Ends handle (l.inPhase .valueStart) t [] y s' line)
    (fun _ ↦ not_ends_nil rfl) ?stay ?leave ?exit
  case stay =>
    intro o b x hb
    exact ends_cons_extend (by simp [step, inPhase, hb])
  case leave =>
    intro o b x hb
    by_cases hcolon : b.toNat = 0x3A
    · obtain rfl : b = 0x3A := UInt8.toNat_inj.1 hcolon
      have hstep : (l.inPhase .fieldName).step 0x3A =
          .ok (l.inPhase .valueStart, .close .fieldName) := rfl
      rw [ends_cons_close hstep]
      simp
    · have hb' : b ≠ 0x3A := fun h ↦ hcolon (congrArg UInt8.toNat h)
      have hstep : (l.inPhase .fieldName).step b = .error .invalidFieldName := by
        simp [step, inPhase, hb, hcolon]
      exact iff_of_false (not_ends_cons_error hstep) (by simp [hb'])
  case exit =>
    rintro o rest ⟨y, t, rfl, -⟩
    exact ⟨0x3A, y, rfl, rfl⟩

/-- A whole line and what follows it. -/
def EndsAfterField (handle : σ → Event → σ × Flow) (l : Lexer part) (s : σ) (x : Octets) (s' : σ)
    (line : StartLine) : Prop :=
  ∃ f y rest t, x = y ++ rest ∧ RawLine.Spells f y ∧ tellLine? handle s f = some t ∧
    Ends handle (l.inPhase .fieldStart) t [] rest s' line

/-- A name of which the first octet is read, and what follows it on its line. -/
theorem ends_fieldName_cons {b : UInt8} (hb : isTchar b.toNat = true) :
    Ends handle (l.inPhase .fieldName) s [b] x s' line ↔
      EndsAfterField handle l s (b :: x) s' line := by
  rw [ends_fieldName]
  constructor
  · rintro ⟨name, _, rfl, hname, _, t, rfl, ht, hrest⟩
    obtain ⟨blanks, _, rfl, hblanks, value, _, rfl, hvalue, hhead, u, hu, eol, rest, rfl, heol,
      hrest⟩ := ends_valueStart.1 hrest
    refine ⟨⟨b :: name, value⟩, b :: name ++ 0x3A :: (blanks ++ (value ++ eol)), rest, u, ?_, ?_,
      ?_, hrest⟩
    · simp
    · exact .mk (List.cons_ne_nil b name) (only_cons.2 ⟨hb, hname⟩) hblanks hvalue hhead heol
    · have ht' : told? handle s .fieldName (b :: name) = some t := by simpa using ht
      rw [tellLine?, ht']
      exact hu
  · rintro ⟨⟨name, value⟩, _, rest, u, hx, hspells, htell, hrest⟩
    obtain ⟨t, ht, hu⟩ := Option.bind_eq_some_iff.1 htell
    cases hspells with
    | @mk blanks eol hne hname hblanks hvalue hhead heol =>
      cases name with
      | nil => exact absurd rfl hne
      | cons d name =>
        obtain ⟨rfl, rfl⟩ := List.cons.inj hx
        have hvalueStart : Ends handle (l.inPhase .valueStart) t []
            (blanks ++ (value ++ (eol ++ rest))) s' line :=
          ends_valueStart.2 ⟨blanks, _, rfl, hblanks, value, _, rfl, hvalue, hhead, u, hu, eol,
            rest, rfl, heol, hrest⟩
        refine ⟨name, 0x3A :: (blanks ++ (value ++ (eol ++ rest))), by simp, (only_cons.1 hname).2,
          _, t, rfl, ?_, hvalueStart⟩
        simpa using ht

/-- Nothing but the last line feed comes after a carriage return at the beginning of a line. -/
theorem ends_headLf :
    Ends handle (l.inPhase .headLf) s [] x s' line ↔ x = [] ∧ s = s' ∧ l.startLine = line := by
  cases x with
  | nil =>
    rw [ends_nil]
    simp [inPhase, startLine]
  | cons b x =>
    refine iff_of_false ?_ (by simp)
    by_cases hlf : b.toNat = 0x0A
    · obtain rfl : b = 0x0A := UInt8.toNat_inj.1 hlf
      exact not_ends_cons_lf (.inr rfl)
    · exact not_ends_cons_error (e := .lfExpected) (by simp [step, inPhase, hlf])

/-- Header lines come one after the other, until an empty line begins. -/
theorem ends_fieldStart :
    Ends handle (l.inPhase .fieldStart) s [] x s' line ↔
      ((x = [] ∨ x = [0x0D]) ∧ s = s' ∧ l.startLine = line) ∨
        EndsAfterField handle l s x s' line := by
  have hnotField {b : UInt8} {y : Octets} (hb : isTchar b.toNat ≠ true) :
      ¬ EndsAfterField handle l s (b :: y) s' line := by
    rintro ⟨⟨name, value⟩, z, rest, t, hx, hspells, -⟩
    cases hspells with
    | mk hne hname =>
      cases name with
      | nil => exact hne rfl
      | cons d name =>
        obtain ⟨rfl, -⟩ := List.cons.inj hx
        exact hb (only_cons.1 hname).1
  cases x with
  | nil =>
    have hfield : ¬ EndsAfterField handle l s [] s' line := by
      rintro ⟨f, y, rest, t, hx, hspells, -⟩
      cases hspells with
      | mk => simp at hx
    rw [ends_nil]
    simp [hfield, inPhase, startLine]
  | cons b x =>
    by_cases hcr : b.toNat = 0x0D
    · obtain rfl : b = 0x0D := UInt8.toNat_inj.1 hcr
      have hfield := hnotField (b := 0x0D) (y := x) (by decide)
      have hstep : (l.inPhase .fieldStart).step 0x0D = .ok (l.inPhase .headLf, .skip) := rfl
      rw [ends_cons_skip hstep, ends_headLf]
      simp [hfield, startLine]
    by_cases hlf : b.toNat = 0x0A
    · obtain rfl : b = 0x0A := UInt8.toNat_inj.1 hlf
      refine iff_of_false (not_ends_cons_lf (.inl rfl)) ?_
      simp [hnotField (b := 0x0A) (y := x) (by decide)]
    by_cases hb : isTchar b.toNat = true
    · have hwhite := isWhitespace_of_isTchar hb
      have hstep : (l.inPhase .fieldStart).step b = .ok (l.inPhase .fieldName, .extend) := by
        simp [step, inPhase, enter, hcr, hlf, hwhite, hb]
      have hb' : b ≠ 0x0D := fun h ↦ hcr (congrArg UInt8.toNat h)
      rw [ends_cons_extend hstep, ends_fieldName_cons hb]
      simp [hb']
    · have hstep : ∃ e, (l.inPhase .fieldStart).step b = .error e := by
        cases hwhite : isWhitespace b.toNat with
        | true => exact ⟨.obsoleteLineFolding, by simp [step, inPhase, hcr, hlf, hwhite]⟩
        | false => exact ⟨.invalidFieldName, by simp [step, inPhase, hcr, hlf, hwhite, hb]⟩
      obtain ⟨e, he⟩ := hstep
      have hb' : b ≠ 0x0D := fun h ↦ hcr (congrArg UInt8.toNat h)
      refine iff_of_false (not_ends_cons_error he) ?_
      simp [hnotField hb, hb']

/-! ### All lines -/

/-- **The language of header lines.** What leads to the end of the headers is any number of header
lines, of which the handler is told in order. -/
theorem ends_headerLines :
    Ends handle (l.inPhase .fieldStart) s [] x s' line ↔
      ∃ lines y tail, x = y ++ tail ∧ RawLine.SpellAll lines y ∧ LineEnd (tail ++ [0x0A]) ∧
        tellLines? handle s lines = some s' ∧ l.startLine = line := by
  constructor
  -- A line is more than one octet, so the induction is on the length of what is left.
  · intro h
    induction hn : x.length using Nat.strongRecOn generalizing x s with
    | ind n ih =>
    rcases ends_fieldStart.1 h with ⟨htail, hs, hline⟩ | ⟨f, y, rest, t, rfl, hspells, ht, hrest⟩
    · exact ⟨[], [], x, rfl, .nil, lineEnd_append_lf.2 htail, congrArg some hs, hline⟩
    · have hlt : rest.length < n := by
        have := hspells.lt_length
        rw [← hn, List.length_append]
        omega
      obtain ⟨lines, z, tail, rfl, hlines, htail, htell, hline⟩ := ih _ hlt hrest rfl
      refine ⟨f :: lines, y ++ z, tail, by simp, .cons hspells hlines, htail, ?_, hline⟩
      rw [tellLines?, List.foldlM_cons, ht]
      exact htell
  · rintro ⟨lines, y, tail, rfl, hspells, htail, htell, hline⟩
    induction hspells generalizing s with
    | nil =>
      obtain rfl : s = s' := Option.some.inj htell
      exact ends_fieldStart.2 (.inl ⟨lineEnd_append_lf.1 htail, rfl, hline⟩)
    | cons hf hlines ih =>
      rw [tellLines?, List.foldlM_cons] at htell
      obtain ⟨t, ht, hrest⟩ := Option.bind_eq_some_iff.1 htell
      rw [List.append_assoc]
      exact ends_fieldStart.2 (.inr ⟨_, _, _, t, rfl, hf, ht, ih hrest⟩)

end HttpFraming.Lexer
