import HttpFraming.Proofs.Grammar.Line
import HttpFraming.Proofs.Lexer.Pieces

/-!
# Inputs that lead to the end of the headers

`Lexer.Ends` says that an input leads a lexer to where the headers can end. What has to be read from
a phase on is then an equivalence about `Ends`, whatever the handler does: on the other side stand
the octets that can come, what the handler is told of them, and `Ends` for the next phase. The
languages of header lines, start lines and chunks are put together out of such equivalences.

Most phases are loops over a class of octets, for which there is `Lexer.loop_iff`, and most lines
end in one of two ways, for which there is `Lexer.EndsAfterLine`.

## Why equivalences, and why from the end

An equivalence for each phase settles both directions at once: what is read is in the language, and
the language is read. A relation between a beginning and a configuration would need an induction on
either side for each rule. Since `Ends` is about all that is left of the input, a rule can be
applied in front of any other, and the phase in which the rule stops is the phase of the next one.

## What a rule is about

* The handler is left open. A rule says what it is told, in the form `told? handle s span piece =
  some t`, and that the rest ends well from the state `t`. So each rule is used for heads, for
  bodies and for the handler that only writes down what it is told.
* The last line feed is not part of `Ends`. It ends a head before it is consumed and a body after
  it, and the rules should not depend on which of them is read. It is treated at the end of this
  module.

## Loops

`boundedLoop_iff` is the one induction over the octets of a class. What is read so far is a stack,
since that is how a lexer keeps the open part, and the bound is one that beginnings inherit. The
length of a method and the value of a number are such bounds.
-/

namespace HttpFraming

open CharClass

/-- The phases in which the last line feed of the headers may come. -/
def Phase.endsHeaders : Phase → Bool
  | fieldStart | headLf => true
  | _ => false

/-- A lexer in another phase. -/
def Lexer.inPhase {part : MessagePart} (l : Lexer part) (p : Phase) : Lexer part :=
  { l with phase := p }

namespace Lexer

variable {part : MessagePart} {σ : Type}

/-- A run over `x` leads from `l`, with a handler in the state `s` and the part `opened`, to where
only the last line feed of the headers is missing. The state is `s'` then, and the start line is
`line`. -/
def Ends (handle : σ → Event → σ × Flow) (l : Lexer part) (s : σ) (opened x : Octets) (s' : σ)
    (line : StartLine) : Prop :=
  ∃ c, (⟨l, s, opened⟩ : Config part σ).after? handle x = some c ∧
    (c.lexer.phase = .fieldStart ∨ c.lexer.phase = .headLf) ∧
      c.state = s' ∧ c.lexer.startLine = line

variable {handle : σ → Event → σ × Flow} {l l' : Lexer part} {s s' : σ} {line : StartLine}
  {opened x : Octets} {b : UInt8} {span : Span} {p q : Phase}

/-- Without octets, the end of the headers has to be reached already. -/
theorem ends_nil : Ends handle l s opened [] s' line ↔
    (l.phase = .fieldStart ∨ l.phase = .headLf) ∧ s = s' ∧ l.startLine = line := by
  simp [Ends]

/-- In a phase that cannot end the headers, something has to come. -/
theorem not_ends_nil (h : l.phase.endsHeaders = false) :
    ¬ Ends handle l s opened [] s' line := by
  intro hends
  rcases (ends_nil.1 hends).1 with hphase | hphase <;> rw [hphase] at h <;> cases h

/-- One octet leads on, and the others from where it leads. -/
theorem ends_cons : Ends handle l s opened (b :: x) s' line ↔
    ∃ c, (⟨l, s, opened⟩ : Config part σ).advance? handle b = some c ∧
      Ends handle c.lexer c.state c.opened x s' line := by
  simp only [Ends, Config.after?_cons, Option.bind_eq_some_iff]
  constructor
  · rintro ⟨c, ⟨c', hb, hx⟩, hc⟩
    exact ⟨c', hb, c, hx, hc⟩
  · rintro ⟨c', hb, c, hx, hc⟩
    exact ⟨c, ⟨c', hb, hx⟩, hc⟩

theorem ends_cons_skip (h : l.step b = .ok (l', .skip)) :
    Ends handle l s opened (b :: x) s' line ↔ Ends handle l' s [] x s' line := by
  simp [ends_cons, Config.advance?_skip h]

theorem ends_cons_extend (h : l.step b = .ok (l', .extend)) :
    Ends handle l s opened (b :: x) s' line ↔ Ends handle l' s (b :: opened) x s' line := by
  simp [ends_cons, Config.advance?_extend h]

/-- An octet at which a piece is told. -/
theorem ends_cons_told {piece : Octets}
    (h : (⟨l, s, opened⟩ : Config part σ).advance? handle b =
      (told? handle s span piece).map fun t ↦ ⟨l', t, []⟩) :
    Ends handle l s opened (b :: x) s' line ↔
      ∃ t, told? handle s span piece = some t ∧ Ends handle l' t [] x s' line := by
  rw [ends_cons, h]
  constructor
  · rintro ⟨c, hc, hends⟩
    obtain ⟨t, ht, rfl⟩ := Option.map_eq_some_iff.1 hc
    exact ⟨t, ht, hends⟩
  · rintro ⟨t, ht, hends⟩
    exact ⟨⟨l', t, []⟩, by rw [ht]; rfl, hends⟩

theorem ends_cons_close (h : l.step b = .ok (l', .close span)) :
    Ends handle l s opened (b :: x) s' line ↔
      ∃ t, told? handle s span opened.reverse = some t ∧ Ends handle l' t [] x s' line :=
  ends_cons_told (Config.advance?_close h)

theorem ends_cons_complete (h : l.step b = .ok (l', .complete span)) :
    Ends handle l s opened (b :: x) s' line ↔
      ∃ t, told? handle s span (b :: opened).reverse = some t ∧ Ends handle l' t [] x s' line :=
  ends_cons_told (Config.advance?_complete h)

/-- An octet against the grammar leads nowhere. -/
theorem not_ends_cons_error {e : SyntaxError} (h : l.step b = .error e) :
    ¬ Ends handle l s opened (b :: x) s' line := by
  simp [ends_cons, Config.advance?_error h]

/-- An octet without a part that is taken as long as `P` holds, and refused otherwise. -/
theorem ends_cons_skip_iff {P : Prop} [Decidable P] (hskip : P → l.step b = .ok (l', .skip))
    (herror : ¬ P → ∃ e, l.step b = .error e) :
    Ends handle l s opened (b :: x) s' line ↔ P ∧ Ends handle l' s [] x s' line := by
  by_cases hP : P
  · rw [ends_cons_skip (hskip hP)]
    exact (and_iff_right hP).symm
  · obtain ⟨e, he⟩ := herror hP
    exact iff_of_false (not_ends_cons_error he) fun h ↦ hP h.1

/-- A line feed where the headers can end ends them. -/
theorem step_lf (h : l.phase = .fieldStart ∨ l.phase = .headLf) : l.step 0x0A = l.endHeaders := by
  rcases h with h | h <;> simp [step, h]

/-- The line feed that ends the headers is not gone over. -/
theorem not_ends_cons_lf (h : l.phase = .fieldStart ∨ l.phase = .headLf) :
    ¬ Ends handle l s opened (0x0A :: x) s' line := by
  have hstep := (step_lf h).trans (endHeaders_eq l)
  have hnone : (⟨l, s, opened⟩ : Config part σ).advance? handle 0x0A = none := by
    split at hstep <;> simp [Config.advance?, hstep, enter]
  simp [ends_cons, hnone]

/-! ### Runs of a class -/

/-- What is bounded is bounded in its beginning. -/
theorem bound_of_append {B : Octets → Prop} (hbound : ∀ {b o}, B (b :: o) → B o) {run o : Octets}
    (h : B (run ++ o)) : B o := by
  induction run with
  | nil => exact h
  | cons b run ih => exact ih (hbound h)

/-- **A loop of a lexer and the language it reads.** As long as octets of the class `p` come, they
are put on top of those before; `E` says that the loop ends well, and `X` what has to come when it
is left. What is read has to keep within `B` all along. -/
theorem boundedLoop_iff {p : Nat → Bool} {B : Octets → Prop} {E X : Octets → Octets → Prop}
    (hnil : ∀ o, ¬ E o [])
    (hstay : ∀ {o b x}, p b.toNat = true → (E o (b :: x) ↔ B (b :: o) ∧ E (b :: o) x))
    (hleave : ∀ {o b x}, p b.toNat = false → (E o (b :: x) ↔ X o (b :: x)))
    (hexit : ∀ {o rest}, X o rest → ∃ b x, rest = b :: x ∧ p b.toNat = false)
    (hbound : ∀ {b o}, B (b :: o) → B o) {o x : Octets} (ho : B o) :
    E o x ↔ ∃ run rest, x = run ++ rest ∧ Only p run ∧ B (run.reverse ++ o) ∧
      X (run.reverse ++ o) rest := by
  constructor
  -- The loop takes one octet after the other, up to the first that is outside of the class.
  · intro h
    induction x generalizing o with
    | nil => exact absurd h (hnil o)
    | cons b x ih =>
      cases hb : p b.toNat with
      | true =>
        obtain ⟨hB, hE⟩ := (hstay hb).1 h
        obtain ⟨run, rest, rfl, hrun, hB', hX⟩ := ih hB hE
        refine ⟨b :: run, rest, rfl, only_cons.2 ⟨hb, hrun⟩, ?_, ?_⟩
        · simpa using hB'
        · simpa using hX
      | false => exact ⟨[], b :: x, rfl, only_nil, ho, (hleave hb).1 h⟩
  -- The bound is given for all of the run, and its beginnings keep within it too.
  · rintro ⟨run, rest, rfl, hrun, hB, hX⟩
    induction run generalizing o with
    | nil =>
      obtain ⟨b, x, rfl, hb⟩ := hexit hX
      exact (hleave hb).2 hX
    | cons b run ih =>
      obtain ⟨hb, hrun'⟩ := only_cons.1 hrun
      simp only [List.reverse_cons, List.append_assoc, List.singleton_append] at hB hX
      have hB' : B (b :: o) := bound_of_append hbound hB
      exact (hstay hb).2 ⟨hB', ih hB' hrun' hB hX⟩

/-- A loop without a bound. -/
theorem loop_iff {p : Nat → Bool} {E X : Octets → Octets → Prop} (hnil : ∀ o, ¬ E o [])
    (hstay : ∀ {o b x}, p b.toNat = true → (E o (b :: x) ↔ E (b :: o) x))
    (hleave : ∀ {o b x}, p b.toNat = false → (E o (b :: x) ↔ X o (b :: x)))
    (hexit : ∀ {o rest}, X o rest → ∃ b x, rest = b :: x ∧ p b.toNat = false) {o x : Octets} :
    E o x ↔ ∃ run rest, x = run ++ rest ∧ Only p run ∧ X (run.reverse ++ o) rest := by
  have h := boundedLoop_iff (p := p) (B := fun _ ↦ True) (E := E) (X := X) hnil
    (fun hb ↦ (hstay hb).trans (and_iff_right trivial).symm) hleave hexit (fun _ ↦ trivial) trivial
    (o := o) (x := x)
  simpa only [true_and] using h

/-! ### Line ends -/

/-- A line ends here, and what follows it ends well. -/
def EndsAfterLine (handle : σ → Event → σ × Flow) (l : Lexer part) (s : σ) (x : Octets) (s' : σ)
    (line : StartLine) : Prop :=
  ∃ eol rest, x = eol ++ rest ∧ LineEnd eol ∧ Ends handle l s [] rest s' line

/-- A line that ends in a line feed. -/
theorem endsAfterLine_lf :
    EndsAfterLine handle l s (0x0A :: x) s' line ↔ Ends handle l s [] x s' line := by
  constructor
  · rintro ⟨eol, rest, hx, heol, h⟩
    cases heol with
    | lf =>
      obtain ⟨-, rfl⟩ := List.cons.inj hx
      exact h
    | crlf => cases hx
  · exact fun h ↦ ⟨[0x0A], x, rfl, .lf, h⟩

/-- A line that ends in a carriage return and a line feed. -/
theorem endsAfterLine_cr :
    EndsAfterLine handle l s (0x0D :: x) s' line ↔
      ∃ rest, x = 0x0A :: rest ∧ Ends handle l s [] rest s' line := by
  constructor
  · rintro ⟨eol, rest, hx, heol, h⟩
    cases heol with
    | lf => cases hx
    | crlf => exact ⟨rest, (List.cons.inj hx).2, h⟩
  · rintro ⟨rest, rfl, h⟩
    exact ⟨[0x0D, 0x0A], rest, rfl, .crlf, h⟩

/-- The end of a line begins with a carriage return or a line feed. -/
theorem exists_of_endsAfterLine (h : EndsAfterLine handle l s x s' line) :
    ∃ b y, x = b :: y ∧ (b = 0x0D ∨ b = 0x0A) := by
  obtain ⟨eol, rest, rfl, heol, -⟩ := h
  cases heol with
  | lf => exact ⟨0x0A, rest, rfl, .inr rfl⟩
  | crlf => exact ⟨0x0D, 0x0A :: rest, rfl, .inl rfl⟩

/-- A line does not end in nothing. -/
theorem not_endsAfterLine_nil : ¬ EndsAfterLine handle l s [] s' line := by
  intro h
  obtain ⟨b, y, hx, -⟩ := exists_of_endsAfterLine h
  cases hx

/-- A class without line ends stops in front of one. -/
theorem stops_of_endsAfterLine {p : Nat → Bool} (hcr : p 0x0D = false) (hlf : p 0x0A = false)
    (h : EndsAfterLine handle l s x s' line) : ∃ b y, x = b :: y ∧ p b.toNat = false := by
  obtain ⟨b, y, rfl, rfl | rfl⟩ := exists_of_endsAfterLine h
  · exact ⟨0x0D, y, rfl, hcr⟩
  · exact ⟨0x0A, y, rfl, hlf⟩

/-- A line ends in no other octets. -/
theorem not_endsAfterLine_cons (hcr : b.toNat ≠ 0x0D) (hlf : b.toNat ≠ 0x0A) :
    ¬ EndsAfterLine handle l s (b :: x) s' line := by
  intro h
  obtain ⟨d, y, hd, hend⟩ := exists_of_endsAfterLine h
  obtain ⟨rfl, -⟩ := List.cons.inj hd
  rcases hend with rfl | rfl
  · exact hcr rfl
  · exact hlf rfl

/-- A phase in which a line feed has to come. -/
def NeedsLf (k l : Lexer part) : Prop :=
  ∀ b : UInt8, k.step b = if b.toNat = 0x0A then .ok (l, .skip) else .error .lfExpected

/-- Where a line feed has to come, it comes. -/
theorem ends_iff_of_needsLf {k : Lexer part} (hk : NeedsLf k l)
    (hnil : k.phase.endsHeaders = false) :
    Ends handle k s opened x s' line ↔
      ∃ rest, x = 0x0A :: rest ∧ Ends handle l s [] rest s' line := by
  cases x with
  | nil => exact iff_of_false (not_ends_nil hnil) (by simp)
  | cons b x =>
    by_cases hb : b.toNat = 0x0A
    · have hlf : b = 0x0A := UInt8.toNat_inj.1 hb
      rw [ends_cons_skip ((hk b).trans (if_pos hb)), hlf]
      simp
    · have hlf : b ≠ 0x0A := fun h ↦ hb (congrArg UInt8.toNat h)
      exact iff_of_false (not_ends_cons_error ((hk b).trans (if_neg hb))) (by simp [hlf])

/-- Octets that belong to no part are followed by a line end, or by nothing that is allowed. -/
theorem ends_cons_lineEnd {k klf : Lexer part} (hcr : k.step 0x0D = .ok (klf, .skip))
    (hlf : k.step 0x0A = .ok (l, .skip)) (hk : NeedsLf klf l)
    (hnil : klf.phase.endsHeaders = false)
    (hother : b.toNat ≠ 0x0D → b.toNat ≠ 0x0A → ∃ e, k.step b = .error e) :
    Ends handle k s opened (b :: x) s' line ↔ EndsAfterLine handle l s (b :: x) s' line := by
  by_cases hb : b.toNat = 0x0D
  · obtain rfl : b = 0x0D := UInt8.toNat_inj.1 hb
    rw [ends_cons_skip hcr, endsAfterLine_cr, ends_iff_of_needsLf hk hnil]
  by_cases hb' : b.toNat = 0x0A
  · obtain rfl : b = 0x0A := UInt8.toNat_inj.1 hb'
    rw [ends_cons_skip hlf, endsAfterLine_lf]
  · obtain ⟨e, he⟩ := hother hb hb'
    exact iff_of_false (not_ends_cons_error he) (not_endsAfterLine_cons hb hb')

/-- A part is closed by a line end, or followed by nothing that is allowed. -/
theorem ends_cons_lineEnd_close {k klf : Lexer part} (hcr : k.step 0x0D = .ok (klf, .close span))
    (hlf : k.step 0x0A = .ok (l, .close span)) (hk : NeedsLf klf l)
    (hnil : klf.phase.endsHeaders = false)
    (hother : b.toNat ≠ 0x0D → b.toNat ≠ 0x0A → ∃ e, k.step b = .error e) :
    Ends handle k s opened (b :: x) s' line ↔
      ∃ t, told? handle s span opened.reverse = some t ∧
        EndsAfterLine handle l t (b :: x) s' line := by
  by_cases hb : b.toNat = 0x0D
  · obtain rfl : b = 0x0D := UInt8.toNat_inj.1 hb
    rw [ends_cons_close hcr]
    simp only [endsAfterLine_cr, ends_iff_of_needsLf hk hnil]
  by_cases hb' : b.toNat = 0x0A
  · obtain rfl : b = 0x0A := UInt8.toNat_inj.1 hb'
    rw [ends_cons_close hlf]
    simp only [endsAfterLine_lf]
  · obtain ⟨e, he⟩ := hother hb hb'
    refine iff_of_false (not_ends_cons_error he) ?_
    rintro ⟨t, -, h⟩
    exact not_endsAfterLine_cons hb hb' h

/-- **A part that reaches up to the end of its line.** It is made of a class `p` in which no line
end is. -/
theorem ends_upToLineEnd {k klf : Lexer part} {p : Nat → Bool} (hpcr : p 0x0D = false)
    (hplf : p 0x0A = false) (hstay : ∀ b : UInt8, p b.toNat = true → k.step b = .ok (k, .extend))
    (hcr : k.step 0x0D = .ok (klf, .close span)) (hlf : k.step 0x0A = .ok (l, .close span))
    (hother : ∀ b : UInt8, p b.toNat = false → b.toNat ≠ 0x0D → b.toNat ≠ 0x0A →
      ∃ e, k.step b = .error e)
    (hk : NeedsLf klf l) (hnil : k.phase.endsHeaders = false)
    (hnil' : klf.phase.endsHeaders = false) :
    Ends handle k s opened x s' line ↔
      ∃ text rest, x = text ++ rest ∧ Only p text ∧
        ∃ t, told? handle s span (text.reverse ++ opened).reverse = some t ∧
          EndsAfterLine handle l t rest s' line := by
  refine loop_iff (E := fun o x ↦ Ends handle k s o x s' line)
    (X := fun o rest ↦ ∃ t, told? handle s span o.reverse = some t ∧
      EndsAfterLine handle l t rest s' line)
    (fun _ ↦ not_ends_nil hnil) ?stay ?leave ?exit
  case stay =>
    intro o b x hb
    exact ends_cons_extend (hstay b hb)
  case leave =>
    intro o b x hb
    exact ends_cons_lineEnd_close hcr hlf hk hnil' (hother b hb)
  case exit =>
    rintro o rest ⟨t, -, h⟩
    exact stops_of_endsAfterLine hpcr hplf h

/-! ### The last line feed -/

namespace Config

variable {ε ν : Type} {collect : σ → Span → Octets → Except ε σ} {refuse : σ → ε → σ}
  {view : σ → ν} {c c' : Config part σ} {n : Nat} {data rest : Octets}

/-- The last line feed ends a head. -/
theorem run_lf_head (h : c.lexer.phase = .fieldStart ∨ c.lexer.phase = .headLf)
    (hpart : part ≠ .chunkedBody) :
    c.run handle n (0x0A :: rest) = atHeadEnd handle (c.lexer.inPhase .headDone) c.state n := by
  have hstep : c.lexer.step 0x0A = .ok (c.lexer.inPhase .headDone, .endHead) := by
    rw [step_lf h, endHeaders_eq, if_neg hpart]
    rfl
  rw [run, Lexer.run, hstep]
  rfl

/-- The last line feed ends a body. -/
theorem run_lf_body {c : Config .chunkedBody σ}
    (h : c.lexer.phase = .fieldStart ∨ c.lexer.phase = .headLf) :
    c.run handle n (0x0A :: rest) =
      atBodyEnd handle (c.lexer.inPhase .bodyDone) c.state (n + 1) := by
  have hstep : c.lexer.step 0x0A = .ok (c.lexer.inPhase .bodyDone, .endBody) := step_lf h
  rw [run, Lexer.run, hstep]
  rfl

/-- If a run comes to the end of a head or of a body, then it has come to the end of the headers,
and the line feed there was the last octet that mattered. -/
theorem exists_of_run_done (G : Gathers handle collect refuse view) (hc : Coherent c)
    (h : (c.run handle n data).lexer.phase = .headDone ∨
      (c.run handle n data).lexer.phase = .bodyDone) :
    ∃ before rest c', data = before ++ 0x0A :: rest ∧ c.after? handle before = some c' ∧
      (c'.lexer.phase = .fieldStart ∨ c'.lexer.phase = .headLf) ∧
        c.run handle n data = c'.run handle (n + before.length) [0x0A] := by
  rcases run_cases handle c data with ⟨c', hc'⟩ | ⟨before, b, rest, c', rfl, hc', hb⟩
  -- A run that no octet stops leaves the lexer in a phase that is not final.
  · exfalso
    have hcoherent := hc.after? hc'
    have hnot : ¬ (c'.lexer.phase = .headDone ∨ c'.lexer.phase = .bodyDone) := by
      have hfinal := hcoherent.1
      rintro (hphase | hphase) <;> rw [hphase] at hfinal <;> cases hfinal
    have hspent := spent_of_after? G hc hc' n
    generalize c.run handle n data = r at h hspent
    cases hspent with
    | closed | taken => exact hnot h
    | refused => rcases h with h | h <;> cases h
  · have hrun : c.run handle n (before ++ b :: rest) = c'.run handle (n + before.length) [b] := by
      rw [run_append_of_after? hc', run_cons_of_advance?_none hb]
    rw [hrun] at h ⊢
    obtain ⟨l', effect, hstep, heffect⟩ : ∃ l' effect, c'.lexer.step b = .ok (l', effect) ∧
        (effect = .endHead ∨ effect = .endBody) := by
      have hhalt := halt_of_advance?_none G hb (n := n + before.length)
      generalize c'.run handle (n + before.length) [b] = r at hhalt h
      cases hhalt with
      | rejected | refused => rcases h with h | h <;> cases h
      | headEnd hstep => exact ⟨_, _, hstep, .inl rfl⟩
      | bodyEnd hstep => exact ⟨_, _, hstep, .inr rfl⟩
    obtain rfl : b = 0x0A := by
      obtain ⟨-, hties⟩ := ties_of_step hstep
      rcases heffect with rfl | rfl
      · exact hties.2.2.1
      · exact hties.2.2.1
    exact ⟨before, rest, c', rfl, hc', phase_of_step_end hstep heffect, rfl⟩

end Config

end Lexer

end HttpFraming
