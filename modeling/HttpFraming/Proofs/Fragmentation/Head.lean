import HttpFraming.Proofs.Fragmentation.FieldCollector
import HttpFraming.Proofs.Fragmentation.Verdict
import HttpFraming.Proofs.Lexer.Pieces
import HttpFraming.Wire.HeadParser

/-!
# A head in pieces

How a head comes in does not matter. `HeadParser.anticipates_outcomeOfPieces` compares a head in
pieces with the same octets in one, and `HeadParser.sameOutcome_parsePieces` two cuts of the same
octets.

## What they rest on

* **A call is a run of the lexer** (`HeadParser.outcome_eq`). The line feed that ends a head is the
  one octet for which this is not so: the lexer is paused in front of it, and the parser consumes
  it. So a run ends in one of four ways (`HeadParser.RunEnd`), of which the last says that this line
  feed is the next octet.
* **A draft of a head gathers its parts** (`HeadDraft.gathers_handle`), so that what is known of
  runs over two pieces (`Lexer.Gathers`) carries over to calls. The part of it that is about heads
  is `HeadDraft.collect_append`: a method, a target or a reason in two pieces is the one in one, and
  so is its refusal.

## The induction

It is over the pieces, for all parsers that can go on (`HeadParser.Live`). A parser that is not done
with a piece has consumed it whole and can go on, and the induction hypothesis is about that parser.
A parser that is done says something that it foresees of the whole
(`HeadParser.anticipates_outcome_append`): the same, unless a part was refused at the cut.

## Requests and responses

Everything is proved once, for any kind of head. The only thing that is asked of a kind is that its
start line is not that of a chunked body (`hpart`), since there a lexer would end with the body and
not with the head.
-/

namespace HttpFraming

variable {H : Type}

namespace HeadDraft

/-- A draft that is given up for a reason. -/
def refuse (d : HeadDraft H) (e : ParseError) : HeadDraft H :=
  { d with stage := .failed e }

variable {d d' : HeadDraft H} {span : Span} {a : Octets}

/-- A part in two pieces is the part in one. -/
theorem collect_append (d : HeadDraft H) (span : Span) (a b : Octets) :
    d.collect span (a ++ b) = (d.collect span a).bind fun d' ↦ d'.collect span b := by
  cases span with
  | method =>
    simp only [collect, Except.bind, List.append_assoc]
  | target =>
    simp only [collect]
    by_cases ha : d.limits.target < d.raw.target.length + a.length
    · rw [if_pos ha, if_pos (by rw [List.length_append]; omega)]
      rfl
    · rw [if_neg ha]
      simp only [Except.bind, List.length_append, List.append_assoc, Nat.add_assoc]
  | reason =>
    simp only [collect]
    by_cases ha : d.limits.reason < d.raw.reason.length + a.length
    · rw [if_pos ha, if_pos (by rw [List.length_append]; omega)]
      rfl
    · rw [if_neg ha]
      simp only [Except.bind, List.length_append, List.append_assoc, Nat.add_assoc]
  | fieldName =>
    simp only [collect]
    rw [FieldCollector.addName_append]
    cases d.fields.addName d.limits a <;> rfl
  | fieldValue =>
    simp only [collect]
    rw [FieldCollector.addValue_append]
    cases d.fields.addValue d.limits a <;> rfl
  | chunkData => rfl

/-- To collect a piece changes neither the stage nor the limits. -/
theorem stage_limits_of_collect (h : d.collect span a = .ok d') :
    d'.stage = d.stage ∧ d'.limits = d.limits := by
  cases span with
  | method | chunkData =>
    cases h
    exact ⟨rfl, rfl⟩
  | target | reason =>
    simp only [collect] at h
    split at h <;> cases h
    exact ⟨rfl, rfl⟩
  | fieldName | fieldValue =>
    obtain ⟨fields, -, rfl⟩ := map_eq_ok_iff.1 h
    exact ⟨rfl, rfl⟩

/-- A part is never refused for the grammar, of which the lexer takes care. -/
theorem collect_ne_malformed (d : HeadDraft H) (span : Span) (a : Octets) (cause : SyntaxError) :
    d.collect span a ≠ .error (.malformed cause) := by
  cases span with
  | method | chunkData =>
    intro h
    cases h
  | target | reason =>
    rw [collect]
    split <;> intro h <;> cases h
  | fieldName =>
    exact fun h ↦ d.fields.addName_ne_malformed d.limits a cause (map_eq_error_iff.1 h)
  | fieldValue =>
    exact fun h ↦ d.fields.addValue_ne_malformed d.limits a cause (map_eq_error_iff.1 h)

/-- A draft of a head takes its parts as `Lexer.Gathers` describes it. -/
theorem gathers_handle [ReadableHead H] :
    Lexer.Gathers (handle (H := H)) collect refuse stage where
  handle_piece d span piece := by
    rw [handle]
    split <;> rename_i h <;> rw [h]
    rfl
  collect_append := collect_append
  collect_chunkData d piece e h := by cases h
  view_collect _ h := (stage_limits_of_collect h).1
  view_refuse _ _ := rfl

end HeadDraft

/-! ### A call is a run -/

namespace HeadParser

open Lexer (Config)

variable [ReadableHead H] {p : HeadParser H} {data : Octets}

/-- What a parser says. -/
def verdict (p : HeadParser H) : Verdict H :=
  match p.stage with
  | .reading | .awaitingLf _ => .unfinished
  | .complete head => .accepted head
  | .failed e => .refused e

/-- What comes of some input in one call: what the parser says then, and how many octets it has
consumed. -/
def outcome (p : HeadParser H) (data : Octets) : Verdict H × Nat :=
  ((p.parse data).1.verdict, (p.parse data).2)

/-- What comes of some input in pieces. -/
def outcomeOfPieces (p : HeadParser H) (pieces : List Octets) : Verdict H × Nat :=
  ((p.parsePieces pieces).parser.verdict, (p.parsePieces pieces).consumed)

/-- A parser that can go on: it is at the boundary of two calls, and neither done nor stopped. -/
structure Live (p : HeadParser H) : Prop where
  stage : p.stage = .reading
  isFinal : p.lexer.phase.isFinal = false
  paused : p.lexer.paused = false

theorem live_new (limits : Limits) : Live (.new limits : HeadParser H) where
  stage := rfl
  isFinal := Lexer.isFinal_startPhase _
  paused := rfl

/-- The run of a parser's lexer over some input. -/
def run (p : HeadParser H) (data : Octets) : Lexer.Fed (ReadableHead.part H) (HeadDraft H) :=
  (Config.start p.lexer p.draft).run HeadDraft.handle 0 data

/-- How the run over some input ends. -/
inductive RunEnd (data : Octets) (r : Lexer.Fed (ReadableHead.part H) (HeadDraft H)) : Prop
  /-- All is read, and more is needed. -/
  | unfinished (stage : r.state.stage = .reading) (isFinal : r.lexer.phase.isFinal = false)
    (paused : r.lexer.paused = false) (consumed : r.consumed = data.length)
  /-- An octet breaks the grammar. -/
  | rejected (cause : SyntaxError) (stage : r.state.stage = .reading)
    (phase : r.lexer.phase = .failed cause)
  /-- A part or the whole head is refused. -/
  | refused (e : ParseError) (stage : r.state.stage = .failed e)
    (phase : r.lexer.phase = .failed .aborted)
  /-- The head is complete but for the line feed that comes next. -/
  | complete (head : H) (rest : Octets) (stage : r.state.stage = .awaitingLf head)
    (phase : r.lexer.phase = .headDone) (lf : data.drop r.consumed = 0x0A :: rest)

/-- The stage does not change while a run goes on. -/
theorem stage_of_after? {part : MessagePart} {c c' : Config part (HeadDraft H)}
    (h : c.after? HeadDraft.handle data = some c') : c'.state.stage = c.state.stage :=
  HeadDraft.gathers_handle.state_of_after? (P := fun d ↦ d.stage = c.state.stage)
    (fun h hs ↦ (HeadDraft.stage_limits_of_collect h).1.trans hs) h rfl

/-- **A run over a head ends in one of four ways.** A head that is refused as a whole ends it as a
part of it does that is refused. -/
theorem runEnd_run (hp : Live p) (hpart : ReadableHead.part H ≠ .chunkedBody) (data : Octets) :
    RunEnd data (p.run data) := by
  have G := HeadDraft.gathers_handle (H := H)
  have hc : Config.Coherent (Config.start p.lexer p.draft) := Config.coherent_start hp.isFinal _
  rcases Config.run_cases HeadDraft.handle (.start p.lexer p.draft) data with
    ⟨c', hc'⟩ | ⟨before, b, rest, ⟨l, d, opened⟩, rfl, hc', hb⟩
  · have hstage : c'.state.stage = .reading := (stage_of_after? hc').trans hp.stage
    have hpaused : c'.lexer.paused = false := (Config.paused_of_after? hc').trans hp.paused
    have hcoherent := hc.after? hc'
    have hspent := Config.spent_of_after? G hc hc' 0
    rw [Nat.zero_add] at hspent
    rw [run]
    generalize Config.run HeadDraft.handle (.start p.lexer p.draft) 0 data = r at hspent ⊢
    -- All is read. Only a part that is open at the end of the input is still to be told, and it may
    -- be refused.
    cases hspent with
    | closed => exact .unfinished hstage hcoherent.1 hpaused rfl
    | taken _ _ hcollect =>
      exact .unfinished ((HeadDraft.stage_limits_of_collect hcollect).1.trans hstage) hcoherent.1
        hpaused rfl
    | refused => exact .refused _ rfl rfl
  · have hstage : d.stage = .reading := (stage_of_after? hc').trans hp.stage
    rw [run, Config.run_append_of_after? hc', Config.run_cons_of_advance?_none hb, Nat.zero_add]
    have hhalt := Config.halt_of_advance?_none G hb (n := before.length)
    generalize Config.run HeadDraft.handle ⟨l, d, opened⟩ before.length [b] = r at hhalt ⊢
    -- The run halts at the octet `b`, and for one of the four reasons there are.
    cases hhalt with
    | rejected => exact .rejected _ hstage rfl
    | refused => exact .refused _ rfl rfl
    | @headEnd l' hstep =>
      obtain ⟨-, -, hphase, rfl, -⟩ := Lexer.ties_of_step hstep
      rcases hassemble : d.assemble l'.startLine with e | head
      · have hhandle : HeadDraft.handle d (.headEnd l'.startLine) = (d.refuse e, .abort) := by
          rw [HeadDraft.handle, hassemble]
          rfl
        rw [Lexer.atHeadEnd, hhandle]
        exact .refused e rfl rfl
      · have hhandle : HeadDraft.handle d (.headEnd l'.startLine) =
            ({ d with stage := .awaitingLf head }, .pause) := by
          rw [HeadDraft.handle, hassemble]
        rw [Lexer.atHeadEnd, hhandle]
        -- The lexer was paused in front of the line feed, which is the next octet to come.
        exact .complete head rest rfl hphase (by simp)
    | bodyEnd hstep => exact absurd (Lexer.ties_of_step hstep).2.2.2.2 hpart

/-- What a run comes to, with the octets consumed. The line feed that ends a head is consumed by the
parser and not by the lexer. -/
def runVerdict (r : Lexer.Fed (ReadableHead.part H) (HeadDraft H)) : Verdict H × Nat :=
  match r.state.stage, r.lexer.error? with
  | .failed e, _ => (.refused e, r.consumed)
  | _, some cause => (.refused (.malformed cause), r.consumed)
  | .reading, none => (.unfinished, r.consumed)
  | .awaitingLf head, none | .complete head, none => (.accepted head, r.consumed + 1)

theorem runVerdict_congr {r r' : Lexer.Fed (ReadableHead.part H) (HeadDraft H)}
    (h : Lexer.Alike HeadDraft.stage r r') : runVerdict r = runVerdict r' := by
  simp only [runVerdict, h.view, h.lexer, h.consumed]

theorem runVerdict_add (r : Lexer.Fed (ReadableHead.part H) (HeadDraft H)) (n : Nat) :
    runVerdict ⟨r.lexer, r.state, n + r.consumed⟩ = ((runVerdict r).1, n + (runVerdict r).2) := by
  cases hstage : r.state.stage <;> cases herror : r.lexer.error? <;>
    simp only [runVerdict, hstage, herror, Nat.add_assoc]

/-- To feed a parser that can go on is to run its lexer. -/
theorem feed_of_live (hp : Live p) (data : Octets) :
    p.lexer.feed HeadDraft.handle p.draft data = p.run data := by
  rw [Lexer.feed, Lexer.error?_of_isFinal hp.isFinal, hp.paused]
  rfl

/-- **A call is a run of the lexer.** -/
theorem outcome_eq (hp : Live p) (hpart : ReadableHead.part H ≠ .chunkedBody) (data : Octets) :
    p.outcome data = runVerdict (p.run data) := by
  rw [outcome, parse, hp.stage, feed_of_live hp]
  rcases runEnd_run hp hpart data with ⟨hstage, hfinal, -, -⟩ | ⟨cause, hstage, hphase⟩ |
    ⟨e, hstage, hphase⟩ | ⟨head, rest, hstage, hphase, hlf⟩
  · have herror := Lexer.error?_of_isFinal hfinal
    simp only [runVerdict, verdict, stage, hstage, herror]
  · have herror := Lexer.error?_of_phase hphase
    simp only [runVerdict, verdict, stage, withStage, hstage, herror]
  · simp only [runVerdict, verdict, stage, hstage]
  · have herror : (p.run data).lexer.error? = none := by rw [Lexer.error?, hphase]
    simp only [runVerdict, verdict, stage, withStage, takeLf, hstage, herror, hlf, if_true]

/-- The parser is done exactly when the run has ended. -/
theorem done_parse (hp : Live p) (hpart : ReadableHead.part H ≠ .chunkedBody) (data : Octets) :
    (p.parse data).1.done = (p.run data).lexer.phase.isFinal := by
  rw [parse, hp.stage, feed_of_live hp]
  rcases runEnd_run hp hpart data with ⟨hstage, hfinal, -, -⟩ | ⟨cause, hstage, hphase⟩ |
    ⟨e, hstage, hphase⟩ | ⟨head, rest, hstage, hphase, hlf⟩
  · simp only [done, stage, hstage, Lexer.error?_of_isFinal hfinal, hfinal]
  · simp only [done, stage, withStage, hstage, Lexer.error?_of_phase hphase, hphase]
    rfl
  · simp only [done, stage, hstage, hphase]
    rfl
  · have herror : (p.run data).lexer.error? = none := by rw [Lexer.error?, hphase]
    simp only [done, stage, withStage, takeLf, hstage, herror, hlf, if_true, hphase]
    rfl

/-- A call after which more is needed has consumed all it was fed, and the parser can go on. -/
theorem parse_of_isFinal (hp : Live p) (hpart : ReadableHead.part H ≠ .chunkedBody)
    (h : (p.run data).lexer.phase.isFinal = false) :
    p.parse data = (⟨(p.run data).lexer, (p.run data).state⟩, data.length) ∧
      Live (⟨(p.run data).lexer, (p.run data).state⟩ : HeadParser H) := by
  rcases runEnd_run hp hpart data with ⟨hstage, hfinal, hpaused, hconsumed⟩ | ⟨_, _, hphase⟩ |
    ⟨_, _, hphase⟩ | ⟨_, _, _, hphase, _⟩
  · refine ⟨?_, hstage, hfinal, hpaused⟩
    rw [parse, hp.stage, feed_of_live hp]
    simp only [hstage, Lexer.error?_of_isFinal hfinal, hconsumed]
  all_goals
    rw [hphase] at h
    cases h

/-! ### Two pieces -/

/-- Having read one piece, to read the next is to read both. -/
theorem outcome_append_of_not_done (hp : Live p) (hpart : ReadableHead.part H ≠ .chunkedBody)
    {a : Octets} (h : (p.parse a).1.done = false) (b : Octets) :
    p.outcome (a ++ b) =
      (((p.parse a).1.outcome b).1, a.length + ((p.parse a).1.outcome b).2) := by
  rw [done_parse hp hpart] at h
  obtain ⟨hparse, hlive⟩ := parse_of_isFinal hp hpart h
  have hc : Config.Coherent (Config.start p.lexer p.draft) := Config.coherent_start hp.isFinal _
  obtain ⟨-, halike⟩ := Config.alike_run_append HeadDraft.gathers_handle hc h b
  rw [outcome_eq hp hpart, run, runVerdict_congr halike, Nat.add_comm 0 a.length, Config.run_add,
    runVerdict_add, hparse, outcome_eq hlive hpart]
  rfl

/-- What a parser says that is done with the first piece, it foresees of both. -/
theorem anticipates_outcome_append (hp : Live p) (hpart : ReadableHead.part H ≠ .chunkedBody)
    {a : Octets} (h : (p.parse a).1.done = true) (b : Octets) :
    Verdict.Anticipates (p.outcome a) (p.outcome (a ++ b)) := by
  rw [done_parse hp hpart] at h
  rw [outcome_eq hp hpart, outcome_eq hp hpart]
  have hc : Config.Coherent (Config.start p.lexer p.draft) := Config.coherent_start hp.isFinal _
  rcases Config.run_append_of_isFinal HeadDraft.gathers_handle hc h b with heq |
    ⟨c', e, hc', ⟨span, piece, hcollect⟩, hrun, hdoomed⟩
  · rw [run, run, heq]
    exact .refl _
  -- A part was refused at the cut. No refusal of a part is an error of the grammar.
  · have hstage : c'.state.stage = .reading := (stage_of_after? hc').trans hp.stage
    have hne : ∀ cause, e ≠ .malformed cause := by
      rintro cause rfl
      exact c'.state.collect_ne_malformed span piece cause hcollect
    have hrefuse (l : Lexer (ReadableHead.part H)) (n : Nat) :
        runVerdict ⟨l.fail .aborted, c'.state.refuse e, n⟩ = (.refused e, n) := rfl
    have hreject (l : Lexer (ReadableHead.part H)) (cause : SyntaxError) (n : Nat) :
        runVerdict ⟨l.fail cause, c'.state, n⟩ = (.refused (.malformed cause), n) := by
      rw [runVerdict, hstage]
      rfl
    rw [run, run, hrun, hrefuse]
    generalize Config.run HeadDraft.handle (.start p.lexer p.draft) 0 (a ++ b) = r at hdoomed ⊢
    cases hdoomed with
    | refused l n =>
      rw [hrefuse]
      exact .refused hne
    | rejected l cause n =>
      rw [hreject]
      exact .refused hne

/-! ### Any number of pieces -/

/-- Of no input nothing is known, and nothing is consumed. -/
theorem outcome_nil (hp : Live p) (hpart : ReadableHead.part H ≠ .chunkedBody) :
    p.outcome [] = (.unfinished, 0) := by
  have hrun : p.run [] = ⟨p.lexer, p.draft, 0⟩ := by
    rw [run, Config.run]
    exact Lexer.run_nil_nil
  have hstage : p.draft.stage = .reading := hp.stage
  rw [outcome_eq hp hpart, hrun]
  simp only [runVerdict, hstage, Lexer.error?_of_isFinal hp.isFinal]

/-- Of no pieces nothing is known, and nothing is consumed. -/
theorem outcomeOfPieces_nil (hp : Live p) : p.outcomeOfPieces [] = (.unfinished, 0) := by
  simp only [outcomeOfPieces, parsePieces, verdict, hp.stage]

/-- The pieces come one after another, until the parser is done. -/
theorem outcomeOfPieces_cons (p : HeadParser H) (piece : Octets) (rest : List Octets) :
    p.outcomeOfPieces (piece :: rest) =
      if (p.parse piece).1.done then p.outcome piece
      else
        (((p.parse piece).1.outcomeOfPieces rest).1,
          (p.parse piece).2 + ((p.parse piece).1.outcomeOfPieces rest).2) := by
  rw [outcomeOfPieces, parsePieces]
  cases h : (p.parse piece).1.done <;> simp only [h, Bool.false_eq_true, if_true, if_false] <;> rfl

/-- **What is said of a head in pieces foresees what is said of the head in one piece.** -/
theorem anticipates_outcomeOfPieces (hpart : ReadableHead.part H ≠ .chunkedBody)
    (pieces : List Octets) :
    ∀ {p : HeadParser H}, Live p →
      Verdict.Anticipates (p.outcomeOfPieces pieces) (p.outcome pieces.flatten) := by
  induction pieces with
  | nil =>
    intro p hp
    rw [outcomeOfPieces_nil hp, List.flatten_nil, outcome_nil hp hpart]
    exact .refl _
  | cons piece rest ih =>
    intro p hp
    rw [outcomeOfPieces_cons, List.flatten_cons]
    cases hdone : (p.parse piece).1.done with
    | true => exact anticipates_outcome_append hp hpart hdone rest.flatten
    | false =>
      have hfinal := hdone
      rw [done_parse hp hpart] at hfinal
      obtain ⟨hparse, hlive⟩ := parse_of_isFinal hp hpart hfinal
      rw [outcome_append_of_not_done hp hpart hdone, hparse]
      exact (ih hlive).add_consumed piece.length

/-! ### Two cuts -/

/-- A head is accepted by a parser that is done without an error, and gives it. -/
theorem of_verdict_accepted {head : H} (h : p.verdict = .accepted head) :
    p.done = true ∧ p.error? = none ∧ p.head? = some head := by
  cases hstage : p.stage <;> simp_all [verdict, done, error?, head?]

theorem exists_verdict_accepted (hdone : p.done = true) (herror : p.error? = none) :
    ∃ head, p.verdict = .accepted head := by
  cases hstage : p.stage <;> simp_all [verdict, done, error?]

/-- A parser has accepted what it gives. -/
theorem verdict_eq_accepted_iff {head : H} : p.verdict = .accepted head ↔ p.head? = some head := by
  cases hstage : p.stage <;> simp [verdict, head?, hstage]

/-- A head is refused by a parser that is done, with the error. -/
theorem of_verdict_refused {e : ParseError} (h : p.verdict = .refused e) :
    p.done = true ∧ p.error? = some e := by
  cases hstage : p.stage <;> simp_all [verdict, done, error?]

theorem of_verdict_unfinished (h : p.verdict = .unfinished) :
    p.done = false ∧ p.error? = none := by
  cases hstage : p.stage <;> simp_all [verdict, done, error?]

/-- A call accepts a head exactly if it leaves the parser done and without an error. -/
theorem exists_outcome_accepted_iff {n : Nat} :
    (∃ head, p.outcome data = (.accepted head, n)) ↔
      (p.parse data).1.done = true ∧ (p.parse data).1.error? = none ∧ (p.parse data).2 = n := by
  constructor
  · rintro ⟨head, h⟩
    obtain ⟨hverdict, hconsumed⟩ := Prod.mk.inj h
    obtain ⟨hdone, herror, -⟩ := of_verdict_accepted hverdict
    exact ⟨hdone, herror, hconsumed⟩
  · rintro ⟨hdone, herror, hconsumed⟩
    obtain ⟨head, hverdict⟩ := exists_verdict_accepted hdone herror
    exact ⟨head, Prod.ext hverdict hconsumed⟩

/-- A head in pieces is accepted exactly if it is accepted in one piece. -/
theorem outcomeOfPieces_eq_accepted_iff (hp : Live p) (hpart : ReadableHead.part H ≠ .chunkedBody)
    {pieces : List Octets} {head : H} {n : Nat} :
    p.outcomeOfPieces pieces = (.accepted head, n) ↔
      p.outcome pieces.flatten = (.accepted head, n) := by
  -- If the two verdicts differ, both are refusals and neither accepts.
  rcases (anticipates_outcomeOfPieces hpart pieces hp).eq_or_refused with heq | ⟨e, f, he, hf⟩
  · rw [heq]
  · refine iff_of_false (fun h ↦ ?_) fun h ↦ ?_
    · rw [h] at he
      cases he
    · rw [h] at hf
      cases hf

/-- What a call consumes is the beginning of the octets. -/
theorem exists_split_of_outcome {v : Verdict H} {n : Nat} (h : p.outcome data = (v, n)) :
    ∃ x y, data = x ++ y ∧ x.length = n := by
  have hle : n ≤ data.length := by
    rw [← (Prod.mk.inj h).2]
    exact p.consumed_parse_le data
  exact ⟨data.take n, data.drop n, (List.take_append_drop n data).symm, List.length_take_of_le hle⟩

/-- A head is given after some pieces if all octets are accepted as it from their beginning on. -/
theorem head?_parsePieces_eq_some_iff (hp : Live p) (hpart : ReadableHead.part H ≠ .chunkedBody)
    {pieces : List Octets} {head : H} :
    (p.parsePieces pieces).parser.head? = some head ↔
      ∃ x y, pieces.flatten = x ++ y ∧ p.outcome (x ++ y) = (.accepted head, x.length) := by
  rw [← verdict_eq_accepted_iff]
  constructor
  · intro h
    have houtcome : p.outcome pieces.flatten =
        (.accepted head, (p.parsePieces pieces).consumed) :=
      (outcomeOfPieces_eq_accepted_iff hp hpart).1 (Prod.ext h rfl)
    obtain ⟨x, y, hsplit, hlength⟩ := exists_split_of_outcome houtcome
    rw [hsplit, ← hlength] at houtcome
    exact ⟨x, y, hsplit, houtcome⟩
  · rintro ⟨x, y, hsplit, houtcome⟩
    rw [← hsplit, ← outcomeOfPieces_eq_accepted_iff hp hpart] at houtcome
    exact (Prod.mk.inj houtcome).1

/-- Two ways of feeding `total` octets have one outcome: the same head with as many octets consumed,
an error, or neither and all octets consumed. If both errors are breaches of the grammar, then they
are the same, at the same place. -/
def SameOutcome (total : Nat) (P Q : Progress H) : Prop :=
  (∃ head, (P.parser.done = true ∧ P.parser.error? = none ∧ P.parser.head? = some head) ∧
    (Q.parser.done = true ∧ Q.parser.error? = none ∧ Q.parser.head? = some head) ∧
    P.consumed = Q.consumed) ∨
  (∃ e f, (P.parser.done = true ∧ P.parser.error? = some e) ∧
    (Q.parser.done = true ∧ Q.parser.error? = some f) ∧
    ∀ c d, e = .malformed c → f = .malformed d → c = d ∧ P.consumed = Q.consumed) ∨
  ((P.parser.done = false ∧ P.parser.error? = none ∧ P.consumed = total) ∧
    (Q.parser.done = false ∧ Q.parser.error? = none ∧ Q.consumed = total))

/-- As long as nothing is known, all octets are consumed. -/
theorem consumed_of_outcome_unfinished (hp : Live p) (hpart : ReadableHead.part H ≠ .chunkedBody)
    (h : (p.outcome data).1 = .unfinished) : (p.outcome data).2 = data.length := by
  have hdone := (of_verdict_unfinished h).1
  rw [done_parse hp hpart] at hdone
  rw [outcome, (parse_of_isFinal hp hpart hdone).1]

/-- Two cuts of the same octets have one outcome, for any kind of head. Both are compared with the
octets in one piece. -/
theorem sameOutcome_parsePieces (hpart : ReadableHead.part H ≠ .chunkedBody) (limits : Limits)
    {a b : List Octets} (h : a.flatten = b.flatten) :
    SameOutcome a.flatten.length ((new limits : HeadParser H).parsePieces a)
      ((new limits : HeadParser H).parsePieces b) := by
  have hp : Live (new limits : HeadParser H) := live_new limits
  have hagree := (anticipates_outcomeOfPieces hpart a hp).agree
    (h ▸ anticipates_outcomeOfPieces hpart b hp) (consumed_of_outcome_unfinished hp hpart)
  rcases hagree.split with ⟨head, hP, hQ, hconsumed⟩ | ⟨e, f, hP, hQ, hsyntax⟩ |
    ⟨⟨hP, hm⟩, hQ, hn⟩
  · exact .inl ⟨head, of_verdict_accepted hP, of_verdict_accepted hQ, hconsumed⟩
  · exact .inr (.inl ⟨e, f, of_verdict_refused hP, of_verdict_refused hQ, hsyntax⟩)
  · obtain ⟨hdone, herror⟩ := of_verdict_unfinished hP
    obtain ⟨hdone', herror'⟩ := of_verdict_unfinished hQ
    exact .inr (.inr ⟨⟨hdone, herror, hm⟩, hdone', herror', hn⟩)

/-- **How a head is cut into pieces does not matter**, for requests and for responses: two cuts of
the same octets, into pieces of which some may be empty, have one outcome. -/
theorem sameOutcome_of_flatten_eq (limits : Limits) {a b : List Octets}
    (h : a.flatten = b.flatten) :
    SameOutcome a.flatten.length ((new limits : RequestParser).parsePieces a)
        ((new limits : RequestParser).parsePieces b) ∧
      SameOutcome a.flatten.length ((new limits : ResponseParser).parsePieces a)
        ((new limits : ResponseParser).parsePieces b) :=
  ⟨sameOutcome_parsePieces (by decide) limits h, sameOutcome_parsePieces (by decide) limits h⟩

/-- Two cuts of `G /a` and two line feeds: one inside the method, the other inside the target. -/
theorem sameOutcome_of_flatten_eq_short_request :
    ([[], [0x47], [0x20, 0x2F, 0x61, 0x0A, 0x0A]] : List Octets).flatten =
        ([[0x47, 0x20, 0x2F], [], [0x61, 0x0A], [0x0A]] : List Octets).flatten ∧
      SameOutcome 6
          ((new .standard : RequestParser).parsePieces [[], [0x47], [0x20, 0x2F, 0x61, 0x0A, 0x0A]])
          ((new .standard : RequestParser).parsePieces
            [[0x47, 0x20, 0x2F], [], [0x61, 0x0A], [0x0A]]) :=
  ⟨by decide, (sameOutcome_of_flatten_eq .standard (by decide)).1⟩

end HeadParser

end HttpFraming
