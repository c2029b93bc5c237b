import HttpFraming.Proofs.Fragmentation.Body
import HttpFraming.Proofs.Grammar.Request
import HttpFraming.Proofs.Message.Provenance

/-!
# Headers and trailers

Header lines are read alike in requests, in responses and behind the last chunk of a body. There is
one lexer for all of them, but what becomes of the lines is told to different handlers, and the end
of the headers is where they differ most: a head is put together in front of its last line feed, and
a body is complete behind it.

`Lexer.together_run` runs two lexers side by side over the same header lines, one of a head and one
of a chunked body. They come to the same at every octet, up to the last line feed, since both
handlers pass the lines on to a collector (`FieldCollector.Holds`) and fail for the same reasons.
`sameFields_parse` says so of whole calls, each on its own first line and the same lines after it.

## Why two runs and not two languages

What is accepted could be compared by the languages, which have `RawLine.SpellAll` in common. But
the three are to agree on every input, also on those that are refused or not finished: the same
error, after as many octets. Only the runs know this. `Together` is what they have in common at each
octet, with a case for each way in which a run can stop.

## The octet that ends the headers

A head is complete when the line feed is the next octet to come, and its parser consumes it. The
decoder's lexer consumes its own. So the two runs differ by one in what they have consumed where
they end, and the calls do not (`sameEnd_of_together`).

## The three first lines

The statement fixes them: `GET / HTTP/1.1`, `HTTP/1.1 200 OK`, and the size of the last chunk. Each
is run through once, with any limits that admit a target of one octet and a reason of two, and leads
to the beginning of the header lines (`after?_getLine`, `after?_okLine`, `parse_lastSizeLine`).
Nothing else depends on them: `sameEnd_outcome` is about any first line that leads there.
-/

namespace HttpFraming

/-- The phases in which header lines are read. -/
def Phase.inFields : Phase → Bool
  | fieldStart | fieldName | valueStart | fieldValue | fieldLf | headLf => true
  | _ => false

/-- The parts of header lines. -/
def Span.ofField : Span → Bool
  | fieldName | fieldValue => true
  | method | target | reason | chunkData => false

theorem Phase.isFinal_of_inFields {p : Phase} (h : p.inFields = true) : p.isFinal = false := by
  cases p <;> first | rfl | cases h

theorem Phase.ofField_of_span? {p : Phase} {span : Span} (h : p.inFields = true)
    (hspan : p.span? = some span) : span.ofField = true := by
  cases p <;> cases hspan <;> first | rfl | cases h

/-! ### Collectors and those who hold them -/

namespace FieldCollector

variable {σ : Type}

/-- Takes a piece of a header line. -/
def add (limits : Limits) (c : FieldCollector) (span : Span) (piece : Octets) :
    Except ParseError FieldCollector :=
  match span with
  | .fieldName => c.addName limits piece
  | .fieldValue => c.addValue limits piece
  | .method | .target | .reason | .chunkData => .ok c

/-- The answer of who holds a collector. -/
def answer (hold : FieldCollector → σ) (refuse : FieldCollector → ParseError → σ)
    (c : FieldCollector) : Except ParseError FieldCollector → σ × Flow
  | .ok c' => (hold c', .proceed)
  | .error e => (refuse c e, .abort)

/-- A handler holds a collector. It passes on all that it is told of header lines, and aborts if
that is refused. -/
structure Holds (limits : Limits) (handle : σ → Event → σ × Flow) (hold : FieldCollector → σ)
    (refuse : FieldCollector → ParseError → σ) : Prop where
  handle_piece : ∀ (c : FieldCollector) {span : Span} (piece : Octets), span.ofField = true →
    handle (hold c) (.piece span piece) = answer hold refuse c (c.add limits span piece)

end FieldCollector

namespace HeadDraft

variable {H : Type}

/-- A draft of a head with a start line and some header lines. -/
def withLines (limits : Limits) (raw : RawStartLine) (c : FieldCollector) : HeadDraft H :=
  ⟨limits, raw, c, .reading⟩

/-- A draft of a head holds a collector. -/
theorem holds_withLines [ReadableHead H] (limits : Limits) (raw : RawStartLine) :
    FieldCollector.Holds limits (handle (H := H)) (withLines limits raw)
      fun c e ↦ (withLines limits raw c).refuse e where
  handle_piece c span piece hspan := by
    cases span with
    | fieldName =>
      simp only [handle, collect, withLines, FieldCollector.add]
      cases c.addName limits piece <;> rfl
    | fieldValue =>
      simp only [handle, collect, withLines, FieldCollector.add]
      cases c.addValue limits piece <;> rfl
    | method | target | reason | chunkData => cases hspan

end HeadDraft

namespace BodyDraft

/-- A draft of a body with some trailers in the making. -/
def withLines (limits : Limits) (c : FieldCollector) : BodyDraft :=
  { new limits with fields := c }

/-- A draft that has given up. -/
def refuse (d : BodyDraft) (e : ParseError) : BodyDraft :=
  { d with stage := .failed e }

/-- A draft of a body holds a collector. -/
theorem holds_withLines (limits : Limits) :
    FieldCollector.Holds limits handle (withLines limits)
      fun c e ↦ (withLines limits c).refuse e where
  handle_piece c span piece hspan := by
    cases span with
    | fieldName =>
      simp only [handle, withLines, new, FieldCollector.add]
      cases c.addName limits piece <;> rfl
    | fieldValue =>
      simp only [handle, withLines, new, FieldCollector.add]
      cases c.addValue limits piece <;> rfl
    | method | target | reason | chunkData => cases hspan

end BodyDraft

/-! ### Two lexers side by side -/

namespace Lexer

open FieldCollector (Holds answer)

section Step

variable {part part' : MessagePart} {l k : Lexer part} {l' : Lexer part'} {b : UInt8}
  {effect : Effect}

/-- The octet is the line feed that ends the headers. -/
def EndsFields (l : Lexer part) (b : UInt8) : Prop :=
  b = 0x0A ∧ (l.phase = .fieldStart ∨ l.phase = .headLf)

theorem inPhase_phase (l : Lexer part) {p : Phase} (h : l.phase = p) : l.inPhase p = l := by
  obtain rfl := h
  rfl

/-- **An octet of header lines** does the same whatever they belong to, unless it ends them. -/
theorem step_of_phase_eq (hl : l.phase.inFields = true) (hphase : l'.phase = l.phase)
    (hends : ¬ EndsFields l b) :
    l'.step b = (l.step b).map fun r ↦ (l'.inPhase r.1.phase, r.2) := by
  have hstay := l'.inPhase_phase hphase
  have hlf : b.toNat = 0x0A → l.phase ≠ .fieldStart ∧ l.phase ≠ .headLf := by
    intro hb
    exact ⟨fun h ↦ hends ⟨UInt8.toNat_inj.1 hb, .inl h⟩,
      fun h ↦ hends ⟨UInt8.toNat_inj.1 hb, .inr h⟩⟩
  cases hp : l.phase <;> rw [hp] at hl hphase hlf hstay <;>
    simp only [Phase.inFields, Bool.false_eq_true] at hl <;>
    simp only [step, hp, hphase, enter] <;> (repeat' split) <;>
    simp_all [Except.map, inPhase]

/-- An octet of header lines leads to header lines again, unless it ends them. -/
theorem inFields_of_step (hl : l.phase.inFields = true) (hends : ¬ EndsFields l b)
    (h : l.step b = .ok (k, effect)) :
    k.phase.inFields = true ∧
      (effect = .skip ∨ effect = .extend ∨ ∃ span, effect = .close span ∧ span.ofField = true) := by
  have hlf : b.toNat = 0x0A → l.phase ≠ .fieldStart ∧ l.phase ≠ .headLf := by
    intro hb
    exact ⟨fun h ↦ hends ⟨UInt8.toNat_inj.1 hb, .inl h⟩,
      fun h ↦ hends ⟨UInt8.toNat_inj.1 hb, .inr h⟩⟩
  cases hp : l.phase <;> rw [hp] at hl hlf <;>
    simp only [Phase.inFields, Bool.false_eq_true] at hl <;>
    simp only [step, hp, enter] at h <;> (repeat' split at h) <;>
    first | (cases h; simp_all [Phase.inFields, Span.ofField]) | simp_all

end Step

section Run

variable {part : MessagePart} {σ σ' : Type} {handle : σ → Event → σ × Flow}
  {handle' : σ' → Event → σ' × Flow} {limits : Limits} {hold : FieldCollector → σ}
  {hold' : FieldCollector → σ'} {refuse : FieldCollector → ParseError → σ}
  {refuse' : FieldCollector → ParseError → σ'}

/-- What becomes of two runs over the same header lines, one in a head and one in a chunked body. -/
inductive Together (handle : σ → Event → σ × Flow) (handle' : σ' → Event → σ' × Flow)
    (hold : FieldCollector → σ) (hold' : FieldCollector → σ')
    (refuse : FieldCollector → ParseError → σ) (refuse' : FieldCollector → ParseError → σ') :
    Fed part σ → Fed .chunkedBody σ' → Prop
  /-- All is read, and more is needed. -/
  | unfinished {l : Lexer part} {l' : Lexer .chunkedBody} (c : FieldCollector) (n : Nat)
    (left : l.phase.isFinal = false) (right : l'.phase.isFinal = false) :
    Together handle handle' hold hold' refuse refuse' ⟨l, hold c, n⟩ ⟨l', hold' c, n⟩
  /-- An octet breaks the grammar. -/
  | rejected (l : Lexer part) (l' : Lexer .chunkedBody) (c : FieldCollector) (cause : SyntaxError)
    (n : Nat) :
    Together handle handle' hold hold' refuse refuse' ⟨l.fail cause, hold c, n⟩
      ⟨l'.fail cause, hold' c, n⟩
  /-- A piece of a line is refused. -/
  | refused (l : Lexer part) (l' : Lexer .chunkedBody) (c : FieldCollector) (e : ParseError)
    (n : Nat) :
    Together handle handle' hold hold' refuse refuse' ⟨l.fail .aborted, refuse c e, n⟩
      ⟨l'.fail .aborted, refuse' c e, n⟩
  /-- The last line feed comes. -/
  | ended (l : Lexer part) (l' : Lexer .chunkedBody) (c : FieldCollector) (n : Nat) :
    Together handle handle' hold hold' refuse refuse'
      (atHeadEnd handle (l.inPhase .headDone) (hold c) n)
      (atBodyEnd handle' (l'.inPhase .bodyDone) (hold' c) (n + 1))

/-- After the same answer of both collectors, the runs stay together if they do from then on. -/
theorem Together.of_answer {l : Lexer part} {l' : Lexer .chunkedBody} {c : FieldCollector}
    {n : Nat} {rest : Octets} (answered : Except ParseError FieldCollector)
    (ih : ∀ c, Together handle handle' hold hold' refuse refuse'
      (run handle l (hold c) [] n rest) (run handle' l' (hold' c) [] n rest)) :
    Together handle handle' hold hold' refuse refuse'
      (goOn handle l (answer hold refuse c answered) n rest)
      (goOn handle' l' (answer hold' refuse' c answered) n rest) := by
  cases answered with
  | ok c' => exact ih c'
  | error e => exact .refused l l' c e n

/-- **Two runs over the same header lines** come to the same, octet by octet. -/
theorem together_run (hpart : part ≠ .chunkedBody) (H : Holds limits handle hold refuse)
    (H' : Holds limits handle' hold' refuse') (data : Octets) :
    ∀ {l : Lexer part} {l' : Lexer .chunkedBody} (c : FieldCollector) (opened : Octets) (n : Nat),
      l.phase.inFields = true → l'.phase = l.phase →
        Together handle handle' hold hold' refuse refuse' (run handle l (hold c) opened n data)
          (run handle' l' (hold' c) opened n data) := by
  induction data with
  | nil =>
    intro l l' c opened n hl hphase
    have hfinal := Phase.isFinal_of_inFields hl
    have hfinal' : l'.phase.isFinal = false := by rw [hphase, hfinal]
    have hnil (c' : FieldCollector) : Together handle handle' hold hold' refuse refuse'
        (run handle l (hold c') [] n []) (run handle' l' (hold' c') [] n []) := by
      rw [run_nil_nil, run_nil_nil]
      exact .unfinished c' n hfinal hfinal'
    by_cases hopened : opened = []
    · rw [hopened]
      exact hnil c
    rcases hspan : l.phase.span? with - | span
    · have hspan' : l'.phase.span? = none := by rw [hphase, hspan]
      rw [run_nil_of_span?_eq_none hspan, run_nil_of_span?_eq_none hspan']
      exact .unfinished c n hfinal hfinal'
    · have hspan' : l'.phase.span? = some span := by rw [hphase, hspan]
      have hfield := Phase.ofField_of_span? hl hspan
      rw [run_nil_eq_goOn hspan hopened, run_nil_eq_goOn hspan' hopened, H.handle_piece c _ hfield,
        H'.handle_piece c _ hfield]
      exact .of_answer _ hnil
  | cons b rest ih =>
    intro l l' c opened n hl hphase
    -- The line feed that ends the headers is the only octet at which the two lexers do not take the
    -- same step.
    by_cases hends : EndsFields l b
    · obtain ⟨rfl, hend⟩ := hends
      have hleft : run handle l (hold c) opened n (0x0A :: rest) = _ :=
        Config.run_lf_head (c := ⟨l, hold c, opened⟩) hend hpart
      have hright : run handle' l' (hold' c) opened n (0x0A :: rest) = _ :=
        Config.run_lf_body (c := ⟨l', hold' c, opened⟩) (hphase ▸ hend)
      rw [hleft, hright]
      exact .ended l l' c n
    have hstep' := step_of_phase_eq hl hphase hends
    rcases hstep : l.step b with cause | ⟨k, effect⟩
    · rw [hstep] at hstep'
      rw [run_cons_error hstep, run_cons_error hstep']
      exact .rejected l l' c cause n
    · rw [hstep] at hstep'
      obtain ⟨hk, rfl | rfl | ⟨span, rfl, hfield⟩⟩ := inFields_of_step hl hends hstep
      · rw [run_cons_skip hstep, run_cons_skip hstep']
        exact ih c [] (n + 1) hk rfl
      · rw [run_cons_extend hstep, run_cons_extend hstep']
        exact ih c (b :: opened) (n + 1) hk rfl
      · rw [run_cons_close_eq_goOn hstep, run_cons_close_eq_goOn hstep', H.handle_piece c _ hfield,
          H'.handle_piece c _ hfield]
        exact .of_answer _ fun c' ↦ ih c' [] (n + 1) hk rfl

end Run

end Lexer

/-! ### Whole calls -/

open Lexer (Config Together)

section Calls

variable {H : Type} [MessageHead H]

/-- What is said of a head and what a call of a decoder leaves behind is the same. -/
def SameEnd : Verdict H × Nat → ChunkedDecoder.Decoded → Prop
  | (.unfinished, _), body => body.decoder.verdict = .unfinished
  | (.refused e, _), body => body.decoder.verdict = .refused e
  | (.accepted head, n), body =>
    body.decoder.verdict = .accepted (MessageHead.headers head) ∧ body.consumed = n

namespace SameEnd

variable {v : Verdict H} {n : Nat} {body : ChunkedDecoder.Decoded}

/-- What accepts a body accepts a head with the same headers. -/
theorem of_accepted (h : SameEnd (v, n) body) {headers : Headers}
    (hbody : body.decoder.verdict = .accepted headers) :
    ∃ head, v = .accepted head ∧ MessageHead.headers head = headers ∧ body.consumed = n := by
  cases v with
  | accepted head =>
    obtain ⟨hverdict, hconsumed⟩ := h
    exact ⟨head, rfl, Verdict.accepted.inj (hverdict.symm.trans hbody), hconsumed⟩
  | refused e => cases hbody.symm.trans h
  | unfinished => cases hbody.symm.trans h

/-- What refuses a body refuses a head for the same reason. -/
theorem of_refused (h : SameEnd (v, n) body) {e : ParseError}
    (hbody : body.decoder.verdict = .refused e) : v = .refused e := by
  cases v with
  | accepted head => cases hbody.symm.trans h.1
  | refused e' => exact congrArg Verdict.refused (Verdict.refused.inj (h.symm.trans hbody))
  | unfinished => cases hbody.symm.trans h

/-- What is not done with a body is not done with a head. -/
theorem of_unfinished (h : SameEnd (v, n) body) (hbody : body.decoder.verdict = .unfinished) :
    v = .unfinished := by
  cases v with
  | accepted head => cases hbody.symm.trans h.1
  | refused e => cases hbody.symm.trans h
  | unfinished => rfl

end SameEnd

variable [ReadableHead H]

/-- Runs that come to the same leave the same to be said. -/
theorem sameEnd_of_together [LawfulHead H] {limits : Limits} {raw : RawStartLine}
    {r : Lexer.Fed (ReadableHead.part H) (HeadDraft H)} {r' : Lexer.Fed .chunkedBody BodyDraft}
    (hassemble : ∀ line, ∃ withHeaders, ReadableHead.assemble (H := H) raw line = .ok withHeaders)
    (h : Together HeadDraft.handle BodyDraft.handle (.withLines limits raw) (.withLines limits)
      (fun c e ↦ (HeadDraft.withLines limits raw c).refuse e)
      (fun c e ↦ (BodyDraft.withLines limits c).refuse e) r r') :
    SameEnd (HeadParser.runVerdict r) (ChunkedDecoder.ofRun r') := by
  cases h with
  | unfinished c n hl hl' =>
    have herror := Lexer.error?_of_isFinal hl
    have herror' := Lexer.error?_of_isFinal hl'
    simp only [HeadParser.runVerdict, HeadDraft.withLines, herror]
    simp only [ChunkedDecoder.ofRun, BodyDraft.withLines, BodyDraft.new, herror']
    rfl
  | rejected l l' c cause n => rfl
  | refused l l' c e n => rfl
  | ended l l' c n =>
    obtain ⟨withHeaders, hhead⟩ := hassemble l.startLine
    have hassembled : (HeadDraft.withLines limits raw c).assemble l.startLine =
        c.finish.map withHeaders := by
      rw [HeadDraft.assemble, HeadDraft.withLines, hhead]
    -- Both ask their collector for the headers, and the collectors hold the same lines.
    rw [HeadParser.runVerdict_atHeadEnd, hassembled, Lexer.atBodyEnd, BodyDraft.handle]
    simp only [BodyDraft.withLines]
    cases c.finish with
    | error e => rfl
    | ok headers =>
      have hheaders : MessageHead.headers (withHeaders headers) = headers :=
        LawfulHead.headers_assemble hhead headers
      show Verdict.accepted headers = .accepted (MessageHead.headers (withHeaders headers)) ∧
        n + 1 = n + 1
      rw [hheaders]
      exact ⟨rfl, rfl⟩

/-- The run of a decoder over what follows the size line of the last chunk. -/
def trailerRun (limits : Limits) (h : Octets) : Lexer.Fed .chunkedBody BodyDraft :=
  Lexer.run BodyDraft.handle ⟨.fieldStart, ⟨0, 0⟩, 0, false⟩ (.new limits) [] 0 h

/-- The size line of the last chunk: `0` and a line end. -/
def lastSizeLine : Octets := [0x30, 0x0D, 0x0A]

/-- A call on the last chunk is the run over what follows its size line. -/
theorem parse_lastSizeLine (limits : Limits) (h : Octets) :
    ((ChunkedDecoder.new limits).parse (lastSizeLine ++ h)).decoder =
        (ChunkedDecoder.ofRun (trailerRun limits h)).decoder ∧
      ((ChunkedDecoder.new limits).parse (lastSizeLine ++ h)).consumed =
        lastSizeLine.length + (ChunkedDecoder.ofRun (trailerRun limits h)).consumed := by
  have hafter : (Config.start (ChunkedDecoder.new limits).resumed.lexer
      (ChunkedDecoder.new limits).resumed.draft).after? BodyDraft.handle lastSizeLine =
        some (.start ⟨.fieldStart, ⟨0, 0⟩, 0, false⟩ (.new limits)) := rfl
  have happend := Config.run_append_eq hafter h
  have hparse : (ChunkedDecoder.new limits).parse (lastSizeLine ++ h) =
      ChunkedDecoder.ofRun ⟨(trailerRun limits h).lexer, (trailerRun limits h).state,
        lastSizeLine.length + (trailerRun limits h).consumed⟩ :=
    (ChunkedDecoder.parse_eq (ChunkedDecoder.live_new limits) _).trans
      (congrArg ChunkedDecoder.ofRun happend)
  rw [hparse, ChunkedDecoder.consumed_ofRun, ChunkedDecoder.consumed_ofRun,
    ChunkedDecoder.decoder_ofRun, ChunkedDecoder.decoder_ofRun]
  exact ⟨rfl, rfl⟩

/-- **A head next to the trailers.** If the octets `front` are a first line, of which `raw` is
collected and with which a head can be put together, then a head parser says of the lines after it
what a decoder says of the same lines. -/
theorem sameEnd_outcome [LawfulHead H] (hpart : ReadableHead.part H ≠ .chunkedBody)
    {limits : Limits} {front : Octets} {l : Lexer (ReadableHead.part H)} {raw : RawStartLine}
    (hfront : (Config.start (.new (ReadableHead.part H)) (.new limits : HeadDraft H)).after?
      HeadDraft.handle front = some (.start l (.withLines limits raw .empty)))
    (hphase : l.phase = .fieldStart)
    (hassemble : ∀ line, ∃ withHeaders, ReadableHead.assemble (H := H) raw line = .ok withHeaders)
    (h : Octets) :
    ∃ v n, (HeadParser.new limits : HeadParser H).outcome (front ++ h) = (v, front.length + n) ∧
      SameEnd (v, n) (ChunkedDecoder.ofRun (trailerRun limits h)) := by
  have hlive : HeadParser.Live (HeadParser.new limits : HeadParser H) := HeadParser.live_new limits
  have hrun := Config.run_append_eq hfront h
  have houtcome : (HeadParser.new limits : HeadParser H).outcome (front ++ h) = _ :=
    (HeadParser.outcome_eq hlive hpart _).trans (congrArg HeadParser.runVerdict hrun)
  have hfields : l.phase.inFields = true := by rw [hphase]; rfl
  have htogether := Lexer.together_run hpart (HeadDraft.holds_withLines (H := H) limits raw)
    (BodyDraft.holds_withLines limits) h .empty [] 0 hfields
    (show (⟨.fieldStart, ⟨0, 0⟩, 0, false⟩ : Lexer .chunkedBody).phase = l.phase from hphase.symm)
  exact ⟨_, _, houtcome.trans (HeadParser.runVerdict_add _ _),
    sameEnd_of_together hassemble htogether⟩

end Calls

/-! ### The three first lines -/

/-- A part that is taken where it is closed. -/
theorem Lexer.Config.after?_append_close {part : MessagePart} {σ : Type}
    {handle : σ → Event → σ × Flow} {c : Config part σ} {l l' : Lexer part} {s s' : σ}
    {opened before rest : Octets} {b : UInt8} {span : Span}
    (hbefore : c.after? handle before = some ⟨l, s, opened⟩)
    (hstep : l.step b = .ok (l', .close span))
    (htold : told? handle s span opened.reverse = some s') :
    c.after? handle (before ++ b :: rest) = (start l' s').after? handle rest := by
  have hadvance : (⟨l, s, opened⟩ : Config part σ).advance? handle b = some (start l' s') := by
    rw [advance?_close hstep, htold]
    rfl
  rw [after?, List.foldlM_append]
  show (c.after? handle before).bind _ = _
  rw [hbefore]
  show ((⟨l, s, opened⟩ : Config part σ).advance? handle b).bind _ = _
  rw [hadvance]
  rfl

/-- `GET / HTTP/1.1` and a line end. -/
def getLine : Octets :=
  [0x47, 0x45, 0x54, 0x20, 0x2F, 0x20, 0x48, 0x54, 0x54, 0x50, 0x2F, 0x31, 0x2E, 0x31, 0x0D, 0x0A]

/-- `HTTP/1.1 200 OK` and a line end. -/
def okLine : Octets :=
  [0x48, 0x54, 0x54, 0x50, 0x2F, 0x31, 0x2E, 0x31, 0x20, 0x32, 0x30, 0x30, 0x20, 0x4F, 0x4B,
    0x0D, 0x0A]

/-- What is collected of `getLine`. -/
def rawGet : RawStartLine := ⟨[0x47, 0x45, 0x54], [0x2F], []⟩

/-- What is collected of `okLine`. -/
def rawOk : RawStartLine := ⟨[], [], [0x4F, 0x4B]⟩

/-- The first line of the request leads to the header lines. -/
theorem after?_getLine {limits : Limits} (htarget : 1 ≤ limits.target) :
    (Config.start (.new .request) (.new limits : HeadDraft Request)).after? HeadDraft.handle
        getLine =
      some (.start ⟨.fieldStart, ⟨1, 1⟩, 0, false⟩ (.withLines limits rawGet .empty)) := by
  have htold : Lexer.told? HeadDraft.handle
      (⟨limits, ⟨[0x47, 0x45, 0x54], [], []⟩, .empty, .reading⟩ : HeadDraft Request) .target
        [0x2F] = some (.withLines limits rawGet .empty) := by
    rw [HeadDraft.told?_eq_some_iff]
    exact if_neg (Nat.not_lt.2 htarget)
  have hbefore : (Config.start (.new .request) (.new limits : HeadDraft Request)).after?
      HeadDraft.handle [0x47, 0x45, 0x54, 0x20, 0x2F] =
        some ⟨⟨.target, ⟨0, 0⟩, 0, false⟩,
          ⟨limits, ⟨[0x47, 0x45, 0x54], [], []⟩, .empty, .reading⟩, [0x2F]⟩ := rfl
  exact (Config.after?_append_close hbefore rfl htold).trans rfl

/-- The first line of the response leads to the header lines. -/
theorem after?_okLine {limits : Limits} (hreason : 2 ≤ limits.reason) :
    (Config.start (.new .response) (.new limits : HeadDraft Response)).after? HeadDraft.handle
      okLine =
        some (.start ⟨.fieldStart, ⟨1, 1⟩, 200, false⟩ (.withLines limits rawOk .empty)) := by
  have htold : Lexer.told? HeadDraft.handle
      (⟨limits, ⟨[], [], []⟩, .empty, .reading⟩ : HeadDraft Response) .reason [0x4F, 0x4B] =
        some (.withLines limits rawOk .empty) := by
    rw [HeadDraft.told?_eq_some_iff]
    exact if_neg (Nat.not_lt.2 hreason)
  have hbefore : (Config.start (.new .response) (.new limits : HeadDraft Response)).after?
      HeadDraft.handle [0x48, 0x54, 0x54, 0x50, 0x2F, 0x31, 0x2E, 0x31, 0x20, 0x32, 0x30, 0x30,
        0x20, 0x4F, 0x4B] =
        some ⟨⟨.reason, ⟨1, 1⟩, 200, false⟩, ⟨limits, ⟨[], [], []⟩, .empty, .reading⟩,
          [0x4B, 0x4F]⟩ := rfl
  exact (Config.after?_append_close hbefore rfl htold).trans rfl

/-- The first line of the request is text, whatever the headers are. -/
theorem assemble_rawGet (line : StartLine) :
    ∃ withHeaders, ReadableHead.assemble (H := Request) rawGet line = .ok withHeaders := by
  obtain ⟨method, hmethod⟩ : ∃ s, Utf8.encode s = rawGet.method :=
    Utf8.exists_encode_of_ascii (by simp [rawGet])
  obtain ⟨target, htarget⟩ : ∃ s, Utf8.encode s = rawGet.target :=
    Utf8.exists_encode_of_ascii (by simp [rawGet])
  have hne : Utf8.encode method ≠ [] := hmethod ▸ List.cons_ne_nil _ _
  have honly : Only CharClass.isTchar (Utf8.encode method) := hmethod ▸ by decide
  obtain ⟨m, hm⟩ := Method.exists_parse? hne honly
  simp only [ReadableHead.assemble, ← hmethod, ← htarget, Utf8.decode?_encode, Option.bind_some,
    hm]
  exact ⟨_, rfl⟩

/-- The first line of the response is text, whatever the headers are. -/
theorem assemble_rawOk (line : StartLine) :
    ∃ withHeaders, ReadableHead.assemble (H := Response) rawOk line = .ok withHeaders := by
  obtain ⟨reason, hreason⟩ : ∃ s, Utf8.encode s = rawOk.reason :=
    Utf8.exists_encode_of_ascii (by simp [rawOk])
  simp only [ReadableHead.assemble, ← hreason, Utf8.decode?_encode]
  exact ⟨_, rfl⟩

/-- A parser of requests, one of responses and a decoder say the same of the header lines that each
read behind its first line: they are done without an error, with the same headers and after as many
octets, they are done with the same error, or they are not done. -/
def SameFields (request : RequestParser × Nat) (response : ResponseParser × Nat)
    (body : ChunkedDecoder.Decoded) : Prop :=
  (∃ (q : Request) (r : Response) (n : Nat),
    (request.1.done = true ∧ request.1.error? = none ∧ request.1.head? = some q ∧
      request.2 = getLine.length + n) ∧
    (response.1.done = true ∧ response.1.error? = none ∧ response.1.head? = some r ∧
      response.2 = okLine.length + n) ∧
    (body.decoder.done = true ∧ body.decoder.error? = none ∧
      body.consumed = lastSizeLine.length + n) ∧
    q.headers = body.decoder.trailers ∧ r.headers = body.decoder.trailers) ∨
  (∃ e, (request.1.done = true ∧ request.1.error? = some e) ∧
    (response.1.done = true ∧ response.1.error? = some e) ∧
    (body.decoder.done = true ∧ body.decoder.error? = some e)) ∨
  ((request.1.done = false ∧ request.1.error? = none) ∧
    (response.1.done = false ∧ response.1.error? = none) ∧
    (body.decoder.done = false ∧ body.decoder.error? = none))

/-- **Heads and trailers share one grammar of header lines**, within the same limits. -/
theorem sameFields_parse {limits : Limits} (htarget : 1 ≤ limits.target)
    (hreason : 2 ≤ limits.reason) (h : Octets) :
    SameFields ((HeadParser.new limits : RequestParser).parse (getLine ++ h))
      ((HeadParser.new limits : ResponseParser).parse (okLine ++ h))
      ((ChunkedDecoder.new limits).parse (lastSizeLine ++ h)) := by
  obtain ⟨v, n, houtcome, hv⟩ :=
    sameEnd_outcome (by decide) (after?_getLine htarget) rfl assemble_rawGet h
  obtain ⟨w, m, houtcome', hw⟩ :=
    sameEnd_outcome (by decide) (after?_okLine hreason) rfl assemble_rawOk h
  obtain ⟨hdecoder, hconsumed⟩ := parse_lastSizeLine limits h
  obtain ⟨hrequest, hn⟩ := Prod.mk.inj houtcome
  obtain ⟨hresponse, hm⟩ := Prod.mk.inj houtcome'
  rw [SameFields, hdecoder, hconsumed]
  generalize ChunkedDecoder.ofRun (trailerRun limits h) = body at hv hw
  cases hbody : body.decoder.verdict with
  | accepted headers =>
    obtain ⟨q, rfl, hq, rfl⟩ := hv.of_accepted hbody
    obtain ⟨r, rfl, hr, rfl⟩ := hw.of_accepted hbody
    obtain ⟨hdone, herror, htrailers⟩ := ChunkedDecoder.of_verdict_accepted hbody
    obtain ⟨hdoneq, herrorq, hheadq⟩ := HeadParser.of_verdict_accepted hrequest
    obtain ⟨hdoner, herrorr, hheadr⟩ := HeadParser.of_verdict_accepted hresponse
    exact .inl ⟨q, r, body.consumed, ⟨hdoneq, herrorq, hheadq, hn⟩, ⟨hdoner, herrorr, hheadr, hm⟩,
      ⟨hdone, herror, rfl⟩, hq.trans htrailers.symm, hr.trans htrailers.symm⟩
  | refused e =>
    obtain rfl := hv.of_refused hbody
    obtain rfl := hw.of_refused hbody
    exact .inr (.inl ⟨e, HeadParser.of_verdict_refused hrequest,
      HeadParser.of_verdict_refused hresponse, ChunkedDecoder.of_verdict_refused hbody⟩)
  | unfinished =>
    obtain rfl := hv.of_unfinished hbody
    obtain rfl := hw.of_unfinished hbody
    exact .inr (.inr ⟨HeadParser.of_verdict_unfinished hrequest,
      HeadParser.of_verdict_unfinished hresponse, ChunkedDecoder.of_verdict_unfinished hbody⟩)

/-- The line `A: b`, after which the headers end. -/
theorem sameFields_parse_one_line :
    1 ≤ Limits.standard.target ∧ 2 ≤ Limits.standard.reason ∧
      SameFields
        ((HeadParser.new .standard : RequestParser).parse
          (getLine ++ [0x41, 0x3A, 0x20, 0x62, 0x0D, 0x0A, 0x0D, 0x0A]))
        ((HeadParser.new .standard : ResponseParser).parse
          (okLine ++ [0x41, 0x3A, 0x20, 0x62, 0x0D, 0x0A, 0x0D, 0x0A]))
        ((ChunkedDecoder.new .standard).parse
          (lastSizeLine ++ [0x41, 0x3A, 0x20, 0x62, 0x0D, 0x0A, 0x0D, 0x0A])) :=
  ⟨by decide, by decide, sameFields_parse (by decide) (by decide) _⟩

end HttpFraming
