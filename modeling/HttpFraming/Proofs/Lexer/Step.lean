import HttpFraming.Wire.Lexer

/-!
# What one octet does

`Lexer.step` has a case for each phase. What all of them have in common is stated here once, so that
no later proof has to look at the phases again: `Lexer.ties_of_step` says how the effect of an octet
ties the phase before it to the phase after it. An open part is extended or ended and never left
behind, a head or a body ends at a line feed, and nothing else leads to a final phase.

## Why one statement

A phase that is added to the lexer, or one that reads another octet, has to be looked at in
`Lexer.ties_of_step` and in the three short lemmas behind it. Everything that is known of runs, of
their fragmentation and of what they keep goes by the effect of an octet, of which there are six,
and not by its phase. What is particular to one grammar rule is told elsewhere, by phases again.

Three more facts are needed about effects than that they tie phases: a message ends only where a
header line could begin, no octet is refused in the data of a chunk, and these data are never ended
from behind. `Lexer.step_of_span?` collects what an octet can do inside a part.

## Runs

`Lexer.run` has many cases, because a handler may proceed, pause or abort at each report. The
equations at the end give one of them each, under the name of the effect. A proof about runs is an
induction over the octets that rewrites with them.
-/

namespace HttpFraming

/-- The phases out of which no octet leads. -/
def Phase.isFinal : Phase → Bool
  | headDone | bodyDone | failed _ => true
  | _ => false

/-- How the effect of the octet `b` ties the phase `p` before it to the phase `q` after it. -/
def Effect.Ties (part : MessagePart) (b : UInt8) (p q : Phase) : Effect → Prop
  | skip => p.span? = none ∧ q.isFinal = false
  | extend => ∃ span, q.span? = some span ∧ (p.span? = none ∨ p.span? = some span)
  | complete span => p.span? = some span ∧ q.isFinal = false
  | close span => (p.span? = none ∨ p.span? = some span) ∧ q.isFinal = false
  | endHead => p.span? = none ∧ q = .headDone ∧ b = 0x0A ∧ part ≠ .chunkedBody
  | endBody => p.span? = none ∧ q = .bodyDone ∧ b = 0x0A ∧ part = .chunkedBody

theorem Phase.isFinal_of_span? {p : Phase} {span : Span} (h : p.span? = some span) :
    p.isFinal = false := by
  cases p <;> first | rfl | cases h

namespace Lexer

/-- No message begins in a final phase. -/
theorem isFinal_startPhase (part : MessagePart) : (startPhase part).isFinal = false := by
  cases part <;> rfl

variable {part : MessagePart} {l l' : Lexer part} {b : UInt8} {effect : Effect} {span : Span}

/-- A lexer that can read on has not failed. -/
theorem error?_of_isFinal (h : l.phase.isFinal = false) : l.error? = none := by
  unfold error?
  split
  · rename_i hphase
    rw [hphase] at h
    cases h
  · rfl

theorem error?_of_phase {e : SyntaxError} (h : l.phase = .failed e) : l.error? = some e := by
  rw [error?, h]

/-- Behind the header section a body ends, or a head does. -/
theorem endHeaders_eq (l : Lexer part) :
    l.endHeaders =
      if part = .chunkedBody then l.enter .bodyDone .endBody else l.enter .headDone .endHead := by
  cases part <;> rfl

/-- **What a step can do.** It never pauses the lexer, and its effect ties the two phases. -/
theorem ties_of_step (h : l.step b = .ok (l', effect)) :
    l'.paused = l.paused ∧ effect.Ties part b l.phase l'.phase := by
  -- The one look at all phases. Each branch of a step gives the effect and both phases.
  cases hp : l.phase <;> simp only [step, hp, endHeaders_eq, enter, afterSize] at h <;>
    (repeat' split at h) <;> cases h <;>
    simp_all [Effect.Ties, Phase.span?, Phase.isFinal, ← UInt8.toNat_inj]

/-- A head or a body ends only where a header line could begin instead. -/
theorem phase_of_step_end (h : l.step b = .ok (l', effect))
    (heffect : effect = .endHead ∨ effect = .endBody) :
    l.phase = .fieldStart ∨ l.phase = .headLf := by
  cases hp : l.phase <;> simp only [step, hp, endHeaders_eq, enter] at h <;>
    (repeat' split at h) <;> cases h <;> simp_all

/-- No octet is refused in the data of a chunk. -/
theorem step_chunkData_ne_error (h : l.phase.span? = some .chunkData) (e : SyntaxError) :
    l.step b ≠ .error e := by
  cases hp : l.phase <;> simp only [hp, Phase.span?, reduceCtorEq, Option.some.injEq] at h
  simp only [step, hp, enter]
  split <;> intro h <;> cases h

/-- The data of a chunk end with an octet of their own. -/
theorem step_ne_close_chunkData : l.step b ≠ .ok (l', .close .chunkData) := by
  intro h
  cases hp : l.phase <;> simp only [step, hp, endHeaders_eq, enter] at h <;>
    (repeat' split at h) <;> cases h

/-- Inside a part, an octet is refused, extends the part, ends it from behind, or is its last. -/
theorem step_of_span? (b : UInt8) (h : l.phase.span? = some span) :
    (span ≠ .chunkData ∧ ∃ e, l.step b = .error e) ∨
      (∃ l', l.step b = .ok (l', .extend) ∧ l'.phase.span? = some span) ∨
      (∃ l', l.step b = .ok (l', .close span)) ∨ ∃ l', l.step b = .ok (l', .complete span) := by
  rcases hs : l.step b with e | ⟨l', effect⟩
  · refine .inl ⟨?_, e, rfl⟩
    rintro rfl
    exact step_chunkData_ne_error h e hs
  · obtain ⟨-, ht⟩ := ties_of_step hs
    -- What is extended or ended is the part that the lexer is in: the two spans agree because the
    -- effect ties both to the phase.
    cases effect with
    | extend =>
      obtain ⟨span', hq, hp⟩ := ht
      rw [h] at hp
      obtain rfl : span = span' := by simpa using hp
      exact .inr (.inl ⟨l', rfl, hq⟩)
    | close span' =>
      obtain ⟨hp, -⟩ := ht
      rw [h] at hp
      obtain rfl : span = span' := by simpa using hp
      exact .inr (.inr (.inl ⟨l', rfl⟩))
    | complete span' =>
      obtain rfl : span = span' := by simpa [h] using ht.1
      exact .inr (.inr (.inr ⟨l', rfl⟩))
    | skip | endHead | endBody => exact absurd (h.symm.trans ht.1) (Option.some_ne_none span)

/-! ### A run, one octet at a time -/

section Run

variable {σ : Type} {handle : σ → Event → σ × Flow} {s s' : σ} {opened rest : Octets} {n : Nat}

/-- Where the input ends and no part is open, nothing is reported. -/
theorem run_nil_nil : run handle l s [] n [] = ⟨l, s, n⟩ := by
  rw [run]
  intro _ _ _ _ h
  cases h

theorem run_nil_of_span?_eq_none (hspan : l.phase.span? = none) :
    run handle l s opened n [] = ⟨l, s, n⟩ := by
  rw [run.eq_def]
  simp only [hspan]

/-- Where the input ends, the octets of the open part are reported. -/
theorem run_nil_of_span? (hspan : l.phase.span? = some span) (hopened : opened ≠ []) :
    run handle l s opened n [] =
      ⟨l.obey (handle s (.piece span opened.reverse)).2,
        (handle s (.piece span opened.reverse)).1, n⟩ := by
  obtain ⟨c, cs, rfl⟩ := List.exists_cons_of_ne_nil hopened
  rw [run.eq_def]
  simp only [hspan]

/-- An octet against the grammar fails the lexer, and is not consumed. -/
theorem run_cons_error {e : SyntaxError} (h : l.step b = .error e) :
    run handle l s opened n (b :: rest) = ⟨l.fail e, s, n⟩ := by
  rw [run, h]

theorem run_cons_skip (h : l.step b = .ok (l', .skip)) :
    run handle l s opened n (b :: rest) = run handle l' s [] (n + 1) rest := by
  rw [run, h]

theorem run_cons_extend (h : l.step b = .ok (l', .extend)) :
    run handle l s opened n (b :: rest) = run handle l' s (b :: opened) (n + 1) rest := by
  rw [run, h]

/-- An octet behind a part ends it, and the run goes on with no part open. -/
theorem run_cons_close (h : l.step b = .ok (l', .close span))
    (hs : handle s (.piece span opened.reverse) = (s', .proceed)) :
    run handle l s opened n (b :: rest) = run handle l' s' [] (n + 1) rest := by
  simp only [run, h, hs]

/-- The last octet of a part ends it, and the run goes on with no part open. -/
theorem run_cons_complete (h : l.step b = .ok (l', .complete span))
    (hs : handle s (.piece span (b :: opened).reverse) = (s', .proceed)) :
    run handle l s opened n (b :: rest) = run handle l' s' [] (n + 1) rest := by
  simp only [run, h, hs]

/-- A part that is ended from behind and refused fails the lexer. -/
theorem run_cons_close_of_abort (h : l.step b = .ok (l', .close span))
    (hs : handle s (.piece span opened.reverse) = (s', .abort)) :
    run handle l s opened n (b :: rest) = ⟨l'.fail .aborted, s', n + 1⟩ := by
  simp only [run, h, hs]
  rfl

theorem run_cons_complete_of_abort (h : l.step b = .ok (l', .complete span))
    (hs : handle s (.piece span (b :: opened).reverse) = (s', .abort)) :
    run handle l s opened n (b :: rest) = ⟨l'.fail .aborted, s', n + 1⟩ := by
  simp only [run, h, hs]
  rfl

/-- What every report keeps of the handler's state, a run keeps. -/
theorem state_run {P : σ → Prop} (hP : ∀ s event, P s → P (handle s event).1) (l : Lexer part)
    (hs : P s) (opened : Octets) (n : Nat) (data : Octets) :
    P (run handle l s opened n data).state := by
  have hanswer {s s' : σ} {event : Event} {flow : Flow} (heq : handle s event = (s', flow))
      (hs : P s) : P s' := by
    have h := hP s event hs
    rwa [heq] at h
  fun_induction run handle l s opened n data with
  | case1 => exact hP _ _ hs
  | case2 | case3 => exact hs
  | case4 _ _ _ _ _ _ _ _ ih | case5 _ _ _ _ _ _ _ _ ih => exact ih hs
  | case6 _ _ _ _ _ _ _ _ _ _ heq ih | case8 _ _ _ _ _ _ _ _ _ _ heq ih =>
    exact ih (hanswer heq hs)
  | case7 _ _ _ _ _ _ _ _ _ _ _ _ heq | case9 _ _ _ _ _ _ _ _ _ _ _ _ heq =>
    exact hanswer heq hs
  | case10 _ _ _ _ _ _ _ _ _ heq => exact hanswer heq hs
  | case11 _ _ _ _ _ _ _ _ _ _ _ heq => exact hanswer heq hs
  | case12 _ _ _ _ _ _ _ _ _ _ heq => exact hanswer heq hs

/-- What every report keeps of the handler's state, a call keeps. -/
theorem state_feed {P : σ → Prop} (hP : ∀ s event, P s → P (handle s event).1) (l : Lexer part)
    (hs : P s) (data : Octets) : P (feed handle l s data).state := by
  unfold feed
  split
  · exact hs
  · exact state_run hP l hs [] 0 data

end Run

end Lexer

end HttpFraming
