import HttpFraming.Proofs.Fragmentation.Gathering
import HttpFraming.Proofs.Text.Ascii

/-!
# What a handler is told, and how its run ends

Two causes of failure say nothing about the octets that were read. A lexer fails with one of them
when its handler aborts it, and with the other when it is fed after its end. Whoever uses a lexer
may not pass them on, and whether a parser does is a question about its handler: has it always a
reason of its own when it aborts?

`Lexer.left_run` is what there is to know of a run for that. The handler is only told pieces of the
octets of which a part is made (`Event.Admissible`), as long as it goes on it keeps what its answers
keep, and at the end there is either a breach of the grammar or the last answer of the handler.

## Three predicates on the state

`P`, `Q` and `R` are what a handler keeps while it goes on, what it is when it has come to an end,
and what it is when it gives up. They are parameters, since drafts of heads and of bodies differ in
all three. What has to be shown of a handler is `Answered` for each admissible event, and what
follows for a run is `Left`: the same three, together with what the lexer says.

That a run stops by the lexer alone is possible only while the handler would go on. In this case the
lexer has an error that is not internal, since it never was aborted nor fed after its end.

## Admissible pieces

That a name is text follows from its octets being those of a token. A handler is not told so, but
the lexer reports no others, and this is an invariant of the open part: `Gathered`.
-/

namespace HttpFraming

open CharClass

/-- Causes that come from the use of a lexer and not from the octets it reads. -/
def SyntaxError.isInternal : SyntaxError → Bool
  | closed | aborted => true
  | _ => false

/-- The octets of which a part is made. -/
def Span.admits : Span → Nat → Bool
  | method | fieldName => isTchar
  | target => isTargetChar
  | reason | fieldValue => isFieldValueChar
  | chunkData => fun _ ↦ true

/-- A piece of a part is made of octets of that part. -/
def Event.Admissible : Event → Prop
  | piece span octets => Only span.admits octets
  | headEnd _ | bodyEnd => True

namespace Lexer

variable {part : MessagePart} {l l' : Lexer part} {b : UInt8} {effect : Effect} {span : Span}

/-! ### One step -/

/-- An octet that is refused breaks the grammar. -/
theorem not_isInternal_of_step {cause : SyntaxError} (hfinal : l.phase.isFinal = false)
    (h : l.step b = .error cause) : cause.isInternal = false := by
  cases hp : l.phase <;> simp only [step, hp, endHeaders_eq, enter] at h <;>
    (repeat' split at h) <;> cases h <;> first | rfl | (rw [hp] at hfinal; cases hfinal)

/-- An octet that belongs to a part is of the kind of which the part is made. -/
theorem admits_of_step (h : l.step b = .ok (l', effect))
    (hspan : effect = .extend ∧ l'.phase.span? = some span ∨ effect = .complete span) :
    span.admits b.toNat = true := by
  cases hp : l.phase <;> simp only [step, hp, endHeaders_eq, enter] at h <;>
    (repeat' split at h) <;> cases h <;> simp_all [Phase.span?] <;> subst hspan <;>
    simp_all [Span.admits]

/-- What is open is made of the octets of the part in which the lexer is. -/
def Gathered (l : Lexer part) (opened : Octets) : Prop :=
  opened = [] ∨ ∃ span, l.phase.span? = some span ∧ Only span.admits opened

/-- What is open of a part is made of octets of that part. -/
theorem Gathered.only {opened : Octets} (h : Gathered l opened)
    (hspan : l.phase.span? = none ∨ l.phase.span? = some span) : Only span.admits opened := by
  rcases h with rfl | ⟨span', hspan', honly⟩
  · exact only_nil
  · rw [hspan'] at hspan
    obtain rfl : span' = span := by simpa using hspan
    exact honly

theorem Gathered.extend {opened : Octets} (h : Gathered l opened)
    (hstep : l.step b = .ok (l', .extend)) : Gathered l' (b :: opened) := by
  obtain ⟨-, span, hspan, hties⟩ := ties_of_step hstep
  exact .inr ⟨span, hspan, only_cons.2 ⟨admits_of_step hstep (.inl ⟨rfl, hspan⟩), h.only hties⟩⟩

/-- To obey an answer fails a lexer only if the answer aborts it. -/
theorem error?_obey (l : Lexer part) (flow : Flow) :
    (l.obey flow).error? = if flow = .abort then some .aborted else l.error? := by
  cases flow <;> rfl

/-! ### A whole run -/

variable {σ : Type} {handle : σ → Event → σ × Flow} {P Q R : σ → Prop} {s : σ} {n : Nat}
  {rest : Octets}

/-- What a handler answers: it goes on and keeps `P`, it has come to an end, which is `Q`, or it
gives up, for which it has the reason `R`. -/
inductive Answered (P Q R : σ → Prop) : σ × Flow → Prop
  | goesOn {s : σ} {flow : Flow} (keeps : P s) (ne : flow ≠ .abort) : Answered P Q R (s, flow)
  | ends {s : σ} (ends : Q s) : Answered P Q R (s, .pause)
  | givesUp {s : σ} (reason : R s) : Answered P Q R (s, .abort)

/-- What a run leaves behind. If the handler would go on, then the lexer has stopped for nothing but
a breach of the grammar. -/
inductive Left (P Q R : σ → Prop) (f : Fed part σ) : Prop
  | goesOn (keeps : P f.state)
    (external : ∀ cause, f.lexer.error? = some cause → cause.isInternal = false)
  | ends (ends : Q f.state) (error? : f.lexer.error? = none)
  | givesUp (reason : R f.state)

/-- A run that stops without an error leaves a handler that would go on. -/
theorem Left.of_error?_none {f : Fed part σ} (hs : P f.state) (herror : f.lexer.error? = none) :
    Left P Q R f := by
  refine .goesOn hs fun cause hcause ↦ ?_
  cases herror.symm.trans hcause

/-- After an answer at which a run stops, the lexer has failed only if it was aborted. -/
theorem Left.of_answered {answer : σ × Flow} (h : Answered P Q R answer)
    (herror : l.error? = if answer.2 = .abort then some .aborted else none) :
    Left P Q R (⟨l, answer.1, n⟩ : Fed part σ) := by
  cases h with
  | goesOn hs hne => exact .of_error?_none hs (herror.trans (if_neg hne))
  | ends hs => exact .ends hs herror
  | givesUp hs => exact .givesUp hs

/-- What comes of an answer is left by a run, if it is by the rest of the run. -/
theorem Left.of_goOn {answer : σ × Flow} (h : Answered P Q R answer)
    (hfinal : l.phase.isFinal = false)
    (ih : ∀ s', P s' → Left P Q R (run handle l s' [] n rest)) :
    Left P Q R (goOn handle l answer n rest) := by
  have herror : (l.obey answer.2).error? = if answer.2 = .abort then some .aborted else none := by
    rw [error?_obey, error?_of_isFinal hfinal]
  have hstop : Left P Q R (⟨l.obey answer.2, answer.1, n⟩ : Fed part σ) := .of_answered h herror
  cases h with
  | @goesOn s' flow hs' _ =>
    cases flow with
    | proceed => exact ih s' hs'
    | pause | abort => exact hstop
  | ends | givesUp => exact hstop

/-- **What a run leaves behind**: what the handler keeps, its end, its reason to give up, or a
breach of the grammar. -/
theorem left_run
    (hanswers : ∀ {s event}, P s → event.Admissible → Answered P Q R (handle s event))
    (data : Octets) :
    ∀ {l : Lexer part} {s : σ} (opened : Octets) (n : Nat), l.phase.isFinal = false → P s →
      Gathered l opened → Left P Q R (run handle l s opened n data) := by
  have hpiece {s : σ} {span : Span} {piece : Octets} (hs : P s) (h : Only span.admits piece) :
      Answered P Q R (handle s (.piece span piece.reverse)) := hanswers hs (only_reverse.2 h)
  induction data with
  | nil =>
    intro l s opened n hfinal hs hopened
    have hnil {s' : σ} (hs' : P s') : Left P Q R (run handle l s' [] n []) := by
      rw [run_nil_nil]
      exact .of_error?_none hs' (error?_of_isFinal hfinal)
    rcases hopened with rfl | ⟨span, hspan, honly⟩
    · exact hnil hs
    by_cases hne : opened = []
    · rw [hne]
      exact hnil hs
    · rw [run_nil_eq_goOn hspan hne]
      exact .of_goOn (hpiece hs honly) hfinal fun _ ↦ hnil
  | cons b rest ih =>
    intro l s opened n hfinal hs hopened
    rcases hstep : l.step b with cause | ⟨l', effect⟩
    · rw [run_cons_error hstep]
      refine .goesOn hs fun cause' hcause ↦ ?_
      obtain rfl := Option.some.inj hcause
      exact not_isInternal_of_step hfinal hstep
    obtain ⟨-, hties⟩ := ties_of_step hstep
    cases effect with
    | skip =>
      rw [run_cons_skip hstep]
      exact ih [] (n + 1) hties.2 hs (.inl rfl)
    | extend =>
      obtain ⟨span, hspan, -⟩ := hties
      rw [run_cons_extend hstep]
      exact ih (b :: opened) (n + 1) (Phase.isFinal_of_span? hspan) hs (hopened.extend hstep)
    | close span =>
      rw [run_cons_close_eq_goOn hstep]
      exact .of_goOn (hpiece hs (hopened.only hties.1)) hties.2 fun s' hs' ↦
        ih [] (n + 1) hties.2 hs' (.inl rfl)
    | complete span =>
      have honly : Only span.admits (b :: opened) :=
        only_cons.2 ⟨admits_of_step hstep (.inr rfl), hopened.only (.inr hties.1)⟩
      rw [run_cons_complete_eq_goOn hstep]
      exact .of_goOn (hpiece hs honly) hties.2 fun s' hs' ↦ ih [] (n + 1) hties.2 hs' (.inl rfl)
    | endHead =>
      obtain ⟨-, hphase, -⟩ := hties
      have hrun : run handle l s opened n (b :: rest) = atHeadEnd handle l' s n := by
        rw [run, hstep]
        rfl
      have hpause : l'.pause.error? = none := by rw [error?, pause, hphase]
      have hanswer : Answered P Q R (handle s (.headEnd l'.startLine)) := hanswers hs trivial
      rw [hrun, atHeadEnd]
      generalize handle s (.headEnd l'.startLine) = answer at hanswer
      obtain ⟨s', flow⟩ := answer
      cases flow with
      | proceed | pause => exact .of_answered hanswer hpause
      | abort => exact .of_answered hanswer rfl
    | endBody =>
      obtain ⟨-, hphase, -⟩ := hties
      have herror : l'.error? = none := by rw [error?, hphase]
      rw [run_cons_endBody hstep]
      exact .of_answered (hanswers hs trivial) (by rw [error?_obey, herror])

end Lexer

end HttpFraming
