import HttpFraming.Proofs.LifeCycle.Fields
import HttpFraming.Proofs.Message.Provenance

/-!
# The life of a head parser

Two machines share the work of a head parser. The lexer pauses in front of the last line feed, has
failed or reads on, and the draft has a stage of its own. `HeadParser.Kept` says how the two stand
to each other between two calls: either both are in the middle of a head, or the draft has come to a
verdict and the lexer does not matter any more. Every call keeps that, with whatever octets, so that
it holds of all parsers that anybody can come by.

`HeadParser.LifeCycle` is what a caller can rely on then. An error that it sees always tells of the
octets: if the lexer was aborted, then it was for a reason that the draft knows.

## The step and the run

`HeadParser.Kept.parse` is the step. A parser that is done refuses the call, and then there is
nothing to compare. A parser that can go on makes a run, which ends in one of four ways
(`runEnd_run`), and leaves behind one of three (`left_run`). Of the twelve pairs most exclude each
other by the stage of the draft, and four are left: more is needed, an octet breaks the grammar, a
part is refused, the head is complete. `Reached.kept` is the induction over the calls.

The first description of a run knows the phase of the lexer and the number of octets, the second one
why a draft has given up. Neither could be had from the other.

## What a caller sees

Most of `LifeCycle` is about a parser at one moment, and three fields are about the next call. The
stage of awaiting the last line feed does not occur between two calls: a lexer pauses only in front
of a line feed that is in the input, and the same call consumes it.
-/

namespace HttpFraming

open CharClass

variable {H : Type}

/-- A head of which nothing but the octets decides whether it is put together. -/
class ProperHead (H : Type) [ReadableHead H] : Prop where
  part_ne : ReadableHead.part H ≠ .chunkedBody
  proper_assemble (raw : RawStartLine) (line : StartLine) :
    Proper (fun _ ↦ True) (ReadableHead.assemble (H := H) raw line)

instance : ProperHead Request where
  part_ne := by decide
  proper_assemble raw line := by
    simp only [ReadableHead.assemble]
    split
    · exact rfl
    · split
      · exact rfl
      · exact trivial

instance : ProperHead Response where
  part_ne := by decide
  proper_assemble raw line := by
    simp only [ReadableHead.assemble]
    split
    · exact rfl
    · exact trivial

namespace HeadDraft

variable {d : HeadDraft H} {event : Event}

/-- A draft in the middle of a head. -/
structure Open (d : HeadDraft H) : Prop where
  stage : d.stage = .reading
  token : d.fields.IsToken

/-- A draft that has come to a whole head. -/
def Whole (d : HeadDraft H) : Prop :=
  ∃ head, d.stage = .awaitingLf head

/-- A draft that has given up, for a reason that tells of the octets. -/
def Refused (d : HeadDraft H) : Prop :=
  ∃ e, d.stage = .failed e ∧ e.isInternal = false

/-- A draft in the middle of a head remains so with a piece of a part, or refuses it properly. -/
theorem Open.collect (hd : Open d) {span : Span} {piece : Octets}
    (hpiece : Only span.admits piece) : Proper Open (d.collect span piece) := by
  have hfields {c : FieldCollector} (hc : c.IsToken) : Open { d with fields := c } := ⟨hd.stage, hc⟩
  cases span with
  | method | chunkData => exact ⟨hd.stage, hd.token⟩
  | target | reason =>
    simp only [HeadDraft.collect]
    split
    · exact rfl
    · exact ⟨hd.stage, hd.token⟩
  | fieldName => exact (FieldCollector.proper_addName d.limits hd.token hpiece).map hfields
  | fieldValue => exact (FieldCollector.proper_addValue d.limits hd.token piece).map hfields

variable [ReadableHead H]

/-- A head is put together, or refused properly. -/
theorem Open.assemble [ProperHead H] (hd : Open d) (line : StartLine) :
    Proper (fun _ ↦ True) (d.assemble line) := by
  have hhead := ProperHead.proper_assemble (H := H) d.raw line
  unfold HeadDraft.assemble
  split
  · rename_i e he
    rwa [he] at hhead
  · exact (FieldCollector.proper_finish hd.token).map fun _ ↦ trivial

/-- **What a draft answers** to anything that it can be told. -/
theorem Open.answered [ProperHead H] (hd : Open d) (hevent : event.Admissible) :
    Lexer.Answered Open Whole Refused (d.handle event) := by
  cases event with
  | piece span piece =>
    have hcollect := hd.collect hevent
    rw [handle]
    split
    · rename_i d' hd'
      rw [hd'] at hcollect
      exact .goesOn hcollect (by decide)
    · rename_i e he
      rw [he] at hcollect
      exact .givesUp ⟨e, rfl, hcollect⟩
  -- The end of a head is told once, and then the draft has the head or a reason to refuse it.
  | headEnd line =>
    have hassemble := hd.assemble line
    rw [handle]
    split
    · rename_i head _
      exact .ends ⟨head, rfl⟩
    · rename_i e he
      rw [he] at hassemble
      exact .givesUp ⟨e, rfl, hassemble⟩
  | bodyEnd => exact .goesOn hd (by decide)

end HeadDraft

namespace HeadParser

variable [ReadableHead H] {p : HeadParser H}

/-- How lexer and draft stand to each other between two calls. -/
inductive Kept (p : HeadParser H) : Prop
  | reading (live : Live p) (token : p.draft.fields.IsToken)
  | accepted (head : H) (verdict : p.verdict = .accepted head)
  | refused (e : ParseError) (verdict : p.verdict = .refused e) (external : e.isInternal = false)

/-- A new parser is in the middle of a head. -/
theorem kept_new (limits : Limits) : Kept (.new limits : HeadParser H) :=
  .reading (live_new limits) only_nil

theorem left_run [ProperHead H] (hp : Live p) (htoken : p.draft.fields.IsToken) (data : Octets) :
    Lexer.Left HeadDraft.Open HeadDraft.Whole HeadDraft.Refused (p.run data) :=
  Lexer.left_run HeadDraft.Open.answered data [] 0 hp.isFinal ⟨hp.stage, htoken⟩ (.inl rfl)

/-- A call of a parser that is done is refused. -/
theorem parse_of_done (h : p.done = true) (data : Octets) :
    p.parse data = (p.withStage (.failed .wrongState), 0) := by
  cases hstage : p.stage with
  | complete head => rw [parse, hstage]
  | failed e => rw [parse, hstage]
  | reading | awaitingLf _ =>
    rw [done, hstage] at h
    cases h

/-- **What a call keeps.** -/
theorem Kept.parse [ProperHead H] (hp : Kept p) (data : Octets) : Kept (p.parse data).1 := by
  have hdone (h : p.done = true) : Kept (p.parse data).1 := by
    rw [parse_of_done h]
    exact .refused .wrongState rfl rfl
  cases hp with
  | reading hlive htoken =>
    have hverdict : (p.parse data).1.verdict = (runVerdict (p.run data)).1 :=
      congrArg Prod.fst (outcome_eq hlive ProperHead.part_ne data)
    have hleft := left_run hlive htoken data
    -- Each way to end a run is matched with what it leaves behind: the two agree on the stage.
    rcases runEnd_run hlive ProperHead.part_ne data with ⟨hstage, hfinal, -, -⟩ |
      ⟨cause, hstage, hphase⟩ | ⟨e, hstage, -⟩ | ⟨head, -, hstage, hphase, -⟩
    · obtain ⟨hparse, hlive'⟩ := parse_of_isFinal hlive ProperHead.part_ne hfinal
      rw [hparse]
      rcases hleft with ⟨hopen, -⟩ | ⟨⟨_, h⟩, -⟩ | ⟨_, h, -⟩
      · exact .reading hlive' hopen.token
      all_goals cases hstage.symm.trans h
    · have herror := Lexer.error?_of_phase hphase
      simp only [runVerdict, hstage, herror] at hverdict
      rcases hleft with ⟨-, hexternal⟩ | ⟨⟨_, h⟩, -⟩ | ⟨_, h, -⟩
      · exact .refused _ hverdict (hexternal cause herror)
      all_goals cases hstage.symm.trans h
    · simp only [runVerdict, hstage] at hverdict
      rcases hleft with ⟨hopen, -⟩ | ⟨⟨_, h⟩, -⟩ | ⟨e', h, hexternal⟩
      · cases hstage.symm.trans hopen.stage
      · cases hstage.symm.trans h
      · obtain rfl := Stage.failed.inj (h.symm.trans hstage)
        exact .refused _ hverdict hexternal
    · have herror : (p.run data).lexer.error? = none := by rw [Lexer.error?, hphase]
      simp only [runVerdict, hstage, herror] at hverdict
      exact .accepted head hverdict
  | accepted head hverdict => exact hdone (of_verdict_accepted hverdict).1
  | refused e hverdict _ => exact hdone (of_verdict_refused hverdict).1

/-- **What any calls keep.** -/
theorem Reached.kept [ProperHead H] (hp : p.Reached) : Kept p := by
  induction hp with
  | new limits => exact kept_new limits
  | parse _ data ih => exact ih.parse data

/-! ### What a caller can rely on -/

/-- **The life of a parser** between two calls, and what the next call does to it. -/
structure LifeCycle (p : HeadParser H) : Prop where
  /-- An error is there only when the parser is done. -/
  done_of_error : ∀ e, p.error? = some e → p.done = true
  /-- A head is there exactly when the parser is done without an error. -/
  head_iff : p.head?.isSome = true ↔ p.done = true ∧ p.error? = none
  toExcept_of_head : ∀ head, p.head? = some head → p.toExcept = .ok head
  toExcept_of_error : ∀ e, p.error? = some e → p.toExcept = .error e
  toExcept_of_not_done : p.done = false → p.toExcept = .error .wrongState
  /-- The last line feed is never left to the next call. -/
  stage_ne_awaitingLf : ∀ head, p.stage ≠ .awaitingLf head
  /-- An error tells of the octets or of the use of the parser, and not of its parts. -/
  external : ∀ e, p.error? = some e ∨ p.toExcept = .error e →
    e ≠ .malformed .aborted ∧ e ≠ .malformed .closed ∧ e ≠ .notUtf8 .headerName
  consumed_le : ∀ data, (p.parse data).2 ≤ data.length
  /-- A call after which the parser is not done has consumed all it was fed. -/
  of_not_done : ∀ data, (p.parse data).1.done = false →
    (p.parse data).2 = data.length ∧ (p.parse data).1.error? = none
  /-- A call of a parser that is done is refused. -/
  of_done : p.done = true → ∀ data,
    (p.parse data).2 = 0 ∧ (p.parse data).1.error? = some .wrongState

/-- What a parser gives is what it says. -/
theorem toExcept_eq (p : HeadParser H) :
    p.toExcept = match p.verdict with
      | .unfinished => .error .wrongState
      | .accepted head => .ok head
      | .refused e => .error e := by
  cases hstage : p.stage <;> simp only [toExcept, verdict, hstage]

theorem done_of_error? {e : ParseError} (h : p.error? = some e) : p.done = true := by
  cases hstage : p.stage <;> simp_all [error?, done]

/-- There is a head exactly if the parser is done without an error. -/
theorem isSome_head?_iff : p.head?.isSome = true ↔ p.done = true ∧ p.error? = none := by
  cases hstage : p.stage <;> simp [head?, done, error?, hstage]

/-- A parser with an error gives it. -/
theorem toExcept_of_error? {e : ParseError} (h : p.error? = some e) : p.toExcept = .error e := by
  cases hstage : p.stage <;> simp_all [error?, toExcept]

/-- A parser that is not done has nothing to give. -/
theorem toExcept_of_not_done (h : p.done = false) : p.toExcept = .error .wrongState := by
  cases hstage : p.stage <;> simp_all [done, toExcept]

/-- What a parser gives as an error is no secret of its parts. -/
theorem Kept.external (hp : Kept p) {e : ParseError}
    (h : p.error? = some e ∨ p.toExcept = .error e) : e.isInternal = false := by
  have htoExcept : p.toExcept = .error e := h.elim toExcept_of_error? id
  rw [toExcept_eq] at htoExcept
  cases hp with
  | reading hlive _ =>
    have hverdict : p.verdict = .unfinished := by rw [verdict, hlive.stage]
    rw [hverdict] at htoExcept
    obtain rfl := Except.error.inj htoExcept
    rfl
  | accepted head hverdict =>
    rw [hverdict] at htoExcept
    cases htoExcept
  | refused e' hverdict hexternal =>
    rw [hverdict] at htoExcept
    obtain rfl := Except.error.inj htoExcept
    exact hexternal

/-- No call stops in front of the last line feed. -/
theorem Kept.stage_ne_awaitingLf (hp : Kept p) (head : H) : p.stage ≠ .awaitingLf head := by
  intro hstage
  have hverdict : p.verdict = .unfinished := by rw [verdict, hstage]
  cases hp with
  | reading hlive _ => cases hlive.stage.symm.trans hstage
  | accepted _ h | refused _ h _ => cases hverdict.symm.trans h

/-- A parser lives as it should from a state that calls keep. -/
theorem Kept.lifeCycle [ProperHead H] (hp : Kept p) : LifeCycle p where
  done_of_error _ h := done_of_error? h
  head_iff := isSome_head?_iff
  toExcept_of_head head h := by rw [toExcept_eq, verdict_eq_accepted_iff.2 h]
  toExcept_of_error _ h := toExcept_of_error? h
  toExcept_of_not_done h := HeadParser.toExcept_of_not_done h
  stage_ne_awaitingLf := hp.stage_ne_awaitingLf
  external _ h := ParseError.isInternal_eq_false_iff.1 (hp.external h)
  consumed_le := p.consumed_parse_le
  of_not_done data h := by
    cases hp with
    | reading hlive _ =>
      rw [done_parse hlive ProperHead.part_ne] at h
      obtain ⟨hparse, hlive'⟩ := parse_of_isFinal hlive ProperHead.part_ne h
      rw [hparse]
      exact ⟨rfl, by rw [error?, hlive'.stage]⟩
    | accepted _ hverdict =>
      rw [parse_of_done (of_verdict_accepted hverdict).1] at h
      cases h
    | refused _ hverdict _ =>
      rw [parse_of_done (of_verdict_refused hverdict).1] at h
      cases h
  of_done h data := by
    rw [parse_of_done h]
    exact ⟨rfl, rfl⟩

/-- **Every parser lives as it should**, for requests and for responses, after any calls with
whatever octets. -/
theorem lifeCycle_of_reached :
    (∀ p : RequestParser, p.Reached → LifeCycle p) ∧
      (∀ p : ResponseParser, p.Reached → LifeCycle p) :=
  ⟨fun _ hp ↦ hp.kept.lifeCycle, fun _ hp ↦ hp.kept.lifeCycle⟩

/-- A parser after `G` and nothing, and one that was fed after its end. -/
theorem lifeCycle_of_two_calls :
    LifeCycle (((new .standard : RequestParser).parse [0x47]).1.parse []).1 ∧
      LifeCycle (((new .standard : ResponseParser).parse [0x20]).1.parse [0x48]).1 :=
  ⟨lifeCycle_of_reached.1 _ (.parse (.parse (.new .standard) [0x47]) []),
    lifeCycle_of_reached.2 _ (.parse (.parse (.new .standard) [0x20]) [0x48])⟩

end HeadParser

end HttpFraming
