import HttpFraming.Proofs.Fragmentation.Gathering

/-!
# What a run keeps

A run goes through a lexer, the octets of the open part and the state of a handler, and stops for
one of many reasons. `Lexer.Invariant` is a relation between the three that one octet keeps, and
`Lexer.Invariant.feed` says that every call then keeps it, wherever and for whatever reason it
stops. So to know what is true between any two calls, one octet has to be looked at, and nothing
else.

Between two calls no part is open: what the input brought of it has been reported, or the lexer has
failed.

## The fields of an invariant

* `skip`, `extend` and `report` are the octet: it is passed over, added to the open part, or told.
  Two of the effects report a piece and two the end of something, and `Effect.event?` gives the
  event of each, so that one field is about all four.
* `suspend` is the end of the input inside a part.
* `fail`, `pause` and `forget` are about what a run does to its lexer besides reading: an invariant
  that mentions the lexer has to survive that it fails, is paused, or gives up what is open.

An answer may abort the lexer, and then the invariant is asked of the aborted lexer and not of the
one that read the octet (`Lexer.Keeps`).

## Why a relation between three things

Neither the lexer nor the handler knows alone how far a message is. That the phase and what is
gathered belong together, that the header line which is open is counted, that no more is held than
what the limits allow: each of these relates the phase to the open octets and to the state.
-/

namespace HttpFraming

/-- What a handler is told at the octet `b` when `opened` is open, if the octet has some effect and
the start line so far is `line`. -/
def Effect.event? (opened : Octets) (b : UInt8) (line : StartLine) : Effect → Option Event
  | skip | extend => none
  | complete span => some (.piece span (b :: opened).reverse)
  | close span => some (.piece span opened.reverse)
  | endHead => some (.headEnd line)
  | endBody => some .bodyEnd

namespace Lexer

variable {part : MessagePart} {σ : Type} {handle : σ → Event → σ × Flow}
  {I : Lexer part → Octets → σ → Prop} {l : Lexer part} {s : σ} {opened : Octets} {n : Nat}

/-- An answer keeps a relation if it does not abort the lexer, or if the relation holds of the
aborted lexer. -/
def Keeps (I : Lexer part → Octets → σ → Prop) (l : Lexer part) : σ × Flow → Prop
  | (s, .abort) => I (l.fail .aborted) [] s
  | (s, .proceed) | (s, .pause) => I l [] s

/-- A relation between a lexer, the open part and the state of a handler that one octet keeps. -/
structure Invariant (handle : σ → Event → σ × Flow) (I : Lexer part → Octets → σ → Prop) :
    Prop where
  forget : ∀ {l opened s}, I l opened s → I l [] s
  fail : ∀ {l s} (e : SyntaxError), I l [] s → I (l.fail e) [] s
  pause : ∀ {l s}, I l [] s → I l.pause [] s
  skip : ∀ {l l' b opened s}, l.step b = .ok (l', .skip) → I l opened s → I l' [] s
  extend : ∀ {l l' b opened s}, l.step b = .ok (l', .extend) → I l opened s → I l' (b :: opened) s
  /-- An octet is reported. -/
  report : ∀ {l l' b effect event opened s}, l.step b = .ok (l', effect) →
    effect.event? opened b l'.startLine = some event → I l opened s →
    Keeps I l' (handle s event)
  /-- The open part is reported as far as it came. -/
  suspend : ∀ {l span opened s}, l.phase.span? = some span → I l opened s →
    Keeps I l (handle s (.piece span opened.reverse))

namespace Invariant

variable (hI : Invariant handle I)
include hI

/-- An answer that keeps a relation keeps it of the lexer that obeys. -/
theorem obey {answer : σ × Flow} (h : Keeps I l answer) : I (l.obey answer.2) [] answer.1 := by
  obtain ⟨s, flow⟩ := answer
  cases flow with
  | proceed => exact h
  | pause => exact hI.pause h
  | abort => exact h

/-- A relation that an answer keeps is kept by what comes of the answer, if the rest of the run
keeps it. -/
theorem goOn {answer : σ × Flow} {rest : Octets} (h : Keeps I l answer)
    (ih : ∀ {s}, I l [] s →
      I (run handle l s [] n rest).lexer [] (run handle l s [] n rest).state) :
    I (goOn handle l answer n rest).lexer [] (goOn handle l answer n rest).state := by
  obtain ⟨s, flow⟩ := answer
  cases flow with
  | proceed => exact ih h
  | pause => exact hI.pause h
  | abort => exact h

/-- What the report of the end of a head keeps is kept by the run that ends there. -/
theorem atHeadEnd (h : Keeps I l (handle s (.headEnd l.startLine))) :
    I (atHeadEnd handle l s n).lexer [] (atHeadEnd handle l s n).state := by
  unfold Lexer.atHeadEnd
  generalize handle s (.headEnd l.startLine) = answer at h
  obtain ⟨s', flow⟩ := answer
  cases flow with
  | proceed | pause => exact hI.pause h
  | abort => exact h

/-- **What one octet keeps, a run keeps.** -/
theorem run (data : Octets) : ∀ {l s opened n}, I l opened s →
    I (run handle l s opened n data).lexer [] (run handle l s opened n data).state := by
  induction data with
  | nil =>
    intro l s opened n h
    -- The input ends. What is open is told if the lexer is inside a part, and else there is nothing
    -- to tell.
    rcases hspan : l.phase.span? with - | span
    · rw [run_nil_of_span?_eq_none hspan]
      exact hI.forget h
    by_cases hopened : opened = []
    · rw [hopened, run_nil_nil]
      exact hI.forget h
    · rw [run_nil_of_span? hspan hopened]
      exact hI.obey (hI.suspend hspan h)
  | cons b rest ih =>
    intro l s opened n h
    rcases hstep : l.step b with e | ⟨l', effect⟩
    · rw [run_cons_error hstep]
      exact hI.fail e (hI.forget h)
    cases effect with
    | skip =>
      rw [run_cons_skip hstep]
      exact ih (hI.skip hstep h)
    | extend =>
      rw [run_cons_extend hstep]
      exact ih (hI.extend hstep h)
    | complete span =>
      rw [run_cons_complete_eq_goOn hstep]
      exact hI.goOn (hI.report hstep rfl h) ih
    | close span =>
      rw [run_cons_close_eq_goOn hstep]
      exact hI.goOn (hI.report hstep rfl h) ih
    | endHead =>
      have hrun : Lexer.run handle l s opened n (b :: rest) = Lexer.atHeadEnd handle l' s n := by
        rw [Lexer.run, hstep]
        rfl
      rw [hrun]
      exact hI.atHeadEnd (hI.report hstep rfl h)
    | endBody =>
      rw [run_cons_endBody hstep]
      exact hI.obey (hI.report hstep rfl h)

/-- **What one octet keeps, a call keeps.** -/
theorem feed (h : I l [] s) (data : Octets) :
    I (feed handle l s data).lexer [] (feed handle l s data).state := by
  unfold Lexer.feed
  split
  · exact h
  · exact hI.run data h

end Invariant

end Lexer

end HttpFraming
