import HttpFraming.Proofs.Fragmentation.Head
import HttpFraming.Proofs.Stream.Flow
import HttpFraming.Stream.HeadReader

/-!
# Reading a head from a source

A head reader feeds its parser the pieces in which the source delivers, one after the other
(`HeadReader.reports_readWith`). As the pieces do not matter to a parser, what is read is what a
parser finds in the whole stream at once, however the stream comes in: `readHead_of_stream`.

## The two steps

* *A reader is its parser.* `HeadReader.Reports` says what is reported of a stream, given the
  verdict of the parser and how many octets it has consumed. `reports_readWith` goes along the
  rounds of a reader, which feeds what is buffered, and fills the buffer if the parser needs more.
  The verdict it speaks of is the one on the pieces.
* *The pieces do not matter.* The verdict on the pieces anticipates the one on the stream as a whole
  (`exists_reports_readHead`). `ReadsHeadOf` is what follows from the two, told by a parser that is
  fed once, in terms of what a caller sees of it.

That `ReadsHeadOf` speaks of an error of the parser, and not of which error, is due to the second
step: a head that is refused may be refused for another reason when it comes in pieces.

## The end of the connection

Where the stream ends before the head does, it matters whether anything was received at all. The end
is not the failure of a message then, but a connection that is closed between messages. A reader
keeps a flag for this, which is set as soon as anything is fed, and `Reports.append` is why it is
right: what was received earlier only comes before the rest.
-/

namespace HttpFraming

variable {H : Type} [ReadableHead H]

namespace HeadParser

variable {p : HeadParser H}

/-- A call on nothing does nothing. -/
theorem parse_nil (hp : Live p) (hpart : ReadableHead.part H ≠ .chunkedBody) :
    p.parse [] = (p, 0) := by
  have hrun : p.run [] = ⟨p.lexer, p.draft, 0⟩ := by
    rw [run, Lexer.Config.run]
    exact Lexer.run_nil_nil
  have hfinal : (p.run []).lexer.phase.isFinal = false := by
    rw [hrun]
    exact hp.isFinal
  obtain ⟨hparse, -⟩ := parse_of_isFinal hp hpart hfinal
  rw [hparse, hrun]
  rfl

/-- A parser that is not done after a call has taken all it was fed, and can go on. -/
theorem live_of_not_done (hp : Live p) (hpart : ReadableHead.part H ≠ .chunkedBody)
    {data : Octets} (h : (p.parse data).1.done = false) :
    Live (p.parse data).1 ∧ (p.parse data).2 = data.length := by
  rw [done_parse hp hpart] at h
  obtain ⟨hparse, hlive⟩ := parse_of_isFinal hp hpart h
  rw [hparse]
  exact ⟨hlive, rfl⟩

/-- A parser that is done has a head to return, or an error. -/
theorem toExcept_of_done {p : HeadParser H} (hdone : p.done = true) :
    (∃ head, p.verdict = .accepted head ∧ p.toExcept = .ok head) ∨
      ∃ e, p.verdict = .refused e ∧ p.toExcept = .error e := by
  cases hstage : p.stage with
  | reading | awaitingLf => simp [done, hstage] at hdone
  | complete head => exact .inl ⟨head, by simp [verdict, hstage], by simp [toExcept, hstage]⟩
  | failed e => exact .inr ⟨e, by simp [verdict, hstage], by simp [toExcept, hstage]⟩

end HeadParser

namespace HeadReader

open HeadParser (Live)

variable {p : HeadParser H} {s : Source}

/-- **What is reported of a stream**, by what a parser says of it and how much of it the parser has
consumed. Whether the connection closes or breaks off depends on whether anything was received. -/
inductive Reports (received : Bool) (w : Octets) :
    Verdict H × Nat → Except ReadError H × Source → Prop
  | accepted {head : H} {n : Nat} {s : Source} (flows : s.Flows) (rest : s.stream = w.drop n) :
    Reports received w (.accepted head, n) (.ok head, s)
  | refused {e : ParseError} {n : Nat} {s : Source} :
    Reports received w (.refused e, n) (.error (.parse e), s)
  | ended {n : Nat} {s : Source} (stream : s.stream = []) :
    Reports received w (.unfinished, n)
      (.error (if received || !w.isEmpty then .unexpectedEof else .connectionClosed), s)

omit [ReadableHead H] in
/-- What was received earlier only comes before the rest. -/
theorem Reports.append {received : Bool} {b : Octets} {v : Verdict H} {n : Nat}
    {r : Except ReadError H × Source} (a : Octets)
    (h : Reports (received || !a.isEmpty) b (v, n) r) :
    Reports received (a ++ b) (v, a.length + n) r := by
  cases h with
  | accepted flows rest =>
    refine .accepted flows ?_
    rw [rest, List.drop_append]
    simp
  | refused => exact .refused
  | ended stream =>
    have hempty : (received || !a.isEmpty || !b.isEmpty) = (received || !(a ++ b).isEmpty) := by
      cases a <;> simp
    rw [hempty]
    exact .ended stream

/-- To feed the buffer is to call the parser once, also where nothing is buffered. -/
theorem feedBuffer_eq (hp : Live p) (hpart : ReadableHead.part H ≠ .chunkedBody) (s : Source) :
    feedBuffer p s = ((p.parse s.buffer).1, s.consume (p.parse s.buffer).2) := by
  rw [feedBuffer]
  by_cases h : s.buffer = []
  · rw [h, HeadParser.parse_nil hp hpart]
    rfl
  · rw [if_neg (by simpa using h)]

theorem flows_feedBuffer : (feedBuffer p s).2.Flows ↔ s.Flows := by
  rw [Source.Flows, script_feedBuffer, Source.Flows]

theorem unread_feedBuffer : (feedBuffer p s).2.unread = s.unread := by
  rw [Source.unread, script_feedBuffer, Source.unread]

/-- A parser that needs more has taken all that is buffered. -/
theorem buffer_feedBuffer (hp : Live p) (hpart : ReadableHead.part H ≠ .chunkedBody)
    (h : (feedBuffer p s).1.done = false) :
    Live (feedBuffer p s).1 ∧ (feedBuffer p s).2.buffer = [] := by
  rw [feedBuffer_eq hp hpart] at h ⊢
  obtain ⟨hlive, hconsumed⟩ := HeadParser.live_of_not_done hp hpart h
  refine ⟨hlive, ?_⟩
  rw [hconsumed]
  exact List.drop_length

/-- What a parser says that needs more than the first piece. -/
theorem outcomeOfPieces_of_not_done (hp : Live p) (hpart : ReadableHead.part H ≠ .chunkedBody)
    (h : (feedBuffer p s).1.done = false) (max : Nat) :
    p.outcomeOfPieces (s.pieces max) =
      (((feedBuffer p s).1.outcomeOfPieces (Delivery.pieces max s.script)).1,
        s.buffer.length +
          ((feedBuffer p s).1.outcomeOfPieces (Delivery.pieces max s.script)).2) := by
  rw [feedBuffer_eq hp hpart] at h ⊢
  obtain ⟨-, hconsumed⟩ := HeadParser.live_of_not_done hp hpart h
  rw [Source.pieces, HeadParser.outcomeOfPieces_cons, if_neg (by simpa using h), hconsumed]

/-- **A reader feeds its parser the pieces of its source.** -/
theorem reports_readWith (hpart : ReadableHead.part H ≠ .chunkedBody) (max : Nat) (hp : Live p)
    (hs : s.Flows) (received : Bool) :
    Reports received s.stream (p.outcomeOfPieces (s.pieces max)) (readWith max p s received) := by
  fun_induction readWith max p s received with
  | case1 p s received fed hdone =>
    have hfed : fed = ((p.parse s.buffer).1, s.consume (p.parse s.buffer).2) :=
      feedBuffer_eq hp hpart s
    rw [hfed] at hdone ⊢
    rw [Source.pieces, HeadParser.outcomeOfPieces_cons, if_pos hdone, HeadParser.outcome]
    have hle := p.consumed_parse_le s.buffer
    rcases HeadParser.toExcept_of_done hdone with ⟨head, hverdict, hhead⟩ | ⟨e, hverdict, he⟩
    · rw [hverdict, hhead]
      exact .accepted hs (Source.stream_consume hle)
    · rw [hverdict, he]
      exact .refused
  | case2 p s received fed hdone cause s' hfill =>
    have hflows : fed.2.Flows := flows_feedBuffer.2 hs
    have hfilled := Source.filled_fill hflows max
    rw [hfill] at hfilled
    -- A source that flows does not fail.
    cases hfilled
  | case3 p s _ received fed hdone s' hfill =>
    have hdone' : fed.1.done = false := eq_false_of_ne_true hdone
    obtain ⟨hlive, hbuffer⟩ := buffer_feedBuffer hp hpart hdone'
    have hflows : fed.2.Flows := flows_feedBuffer.2 hs
    have hfilled := Source.filled_fill hflows max
    rw [hfill] at hfilled
    rw [outcomeOfPieces_of_not_done hp hpart hdone']
    cases hfilled with
    | ended _ hbuffer' hunread hunread' hpieces =>
      rw [script_feedBuffer] at hpieces
      rw [hpieces, HeadParser.outcomeOfPieces_nil hlive]
      have hstream : s.stream = s.buffer := by
        rw [Source.stream, ← unread_feedBuffer (p := p), hunread, List.append_nil]
      rw [hstream]
      exact .ended (by rw [Source.stream, hbuffer', hbuffer, hunread', List.append_nil])
  | case4 p s _ received fed hdone n s' hfill ih =>
    have hdone' : fed.1.done = false := eq_false_of_ne_true hdone
    obtain ⟨hlive, hbuffer⟩ := buffer_feedBuffer hp hpart hdone'
    have hflows : fed.2.Flows := flows_feedBuffer.2 hs
    have hfilled := Source.filled_fill hflows max
    rw [hfill] at hfilled
    rw [outcomeOfPieces_of_not_done hp hpart hdone']
    cases hfilled with
    | more b data hflows' hbuffer' hunread hpieces =>
      rw [script_feedBuffer] at hpieces
      have hs' : s'.pieces max = Delivery.pieces max s.script := by
        rw [Source.pieces, hbuffer', hbuffer, hpieces, List.nil_append]
      have hstream : s'.stream = s.unread := by
        rw [Source.stream, hbuffer', hbuffer, List.nil_append, ← hunread, unread_feedBuffer]
      have hreports := ih hlive hflows'
      rw [hs', hstream] at hreports
      -- What was fed before is consumed, and comes in front of what the rest of the pieces come to.
      exact hreports.append s.buffer

end HeadReader

/-! ### The whole stream -/

/-- What is reported of a stream is foreseen by what a parser says of it that is fed it at once. -/
theorem exists_reports_readHead (hpart : ReadableHead.part H ≠ .chunkedBody) (options : ReadOptions)
    {s : Source} (hs : s.Flows) :
    ∃ v, HeadReader.Reports false s.stream v (readHead H options s) ∧
      Verdict.Anticipates v ((HeadParser.new options.limits : HeadParser H).outcome s.stream) := by
  have hlive : HeadParser.Live (.new options.limits : HeadParser H) :=
    HeadParser.live_new options.limits
  refine ⟨_, HeadReader.reports_readWith hpart options.bufferSize hlive hs false, ?_⟩
  rw [← Source.flatten_pieces hs options.bufferSize]
  exact HeadParser.anticipates_outcomeOfPieces hpart _ hlive

/-- A head that is accepted is read, and what follows it is left. -/
theorem readHead_of_accepted (hpart : ReadableHead.part H ≠ .chunkedBody) {options : ReadOptions}
    {s : Source} (hs : s.Flows) {head : H} {n : Nat}
    (h : (HeadParser.new options.limits : HeadParser H).outcome s.stream = (.accepted head, n)) :
    ∃ s', readHead H options s = (.ok head, s') ∧ s'.Flows ∧ s'.stream = s.stream.drop n := by
  obtain ⟨v, hreports, hv⟩ := exists_reports_readHead hpart options hs
  rw [h] at hv
  generalize readHead H options s = r at hreports
  rcases hv.eq_or_refused with rfl | ⟨e, f, -, hf⟩
  · cases hreports with
    | @accepted _ _ s' flows rest => exact ⟨s', rfl, flows, rest⟩
  · cases hf

/-- Where the stream has ended, the connection is closed. -/
theorem readHead_of_stream_eq_nil (hpart : ReadableHead.part H ≠ .chunkedBody)
    {options : ReadOptions} {s : Source} (hs : s.Flows) (h : s.stream = []) :
    ∃ s', readHead H options s = (.error .connectionClosed, s') ∧ s'.stream = [] := by
  obtain ⟨v, hreports, hv⟩ := exists_reports_readHead hpart options hs
  have hlive : HeadParser.Live (.new options.limits : HeadParser H) :=
    HeadParser.live_new options.limits
  rw [h, HeadParser.outcome_nil hlive hpart] at hv
  rw [h] at hreports
  generalize readHead H options s = r at hreports
  rcases hv.eq_or_refused with rfl | ⟨e, f, -, hf⟩
  · cases hreports with
    | @ended _ s' stream => exact ⟨s', rfl, stream⟩
  · cases hf

/-- What is read of a head is what a parser finds that is fed `w` at once. -/
structure ReadsHeadOf (limits : Limits) (w : Octets) (r : Except ReadError H × Source) : Prop where
  ok_iff : ∀ head, r.1 = .ok head ↔
    ((HeadParser.new limits : HeadParser H).parse w).1.done = true ∧
      ((HeadParser.new limits : HeadParser H).parse w).1.error? = none ∧
        ((HeadParser.new limits : HeadParser H).parse w).1.head? = some head
  /-- What follows the head is left in the source. -/
  rest : ∀ head, r.1 = .ok head →
    r.2.buffer ++ r.2.unread = w.drop ((HeadParser.new limits : HeadParser H).parse w).2
  parse_iff : (∃ e, r.1 = .error (.parse e)) ↔
    ((HeadParser.new limits : HeadParser H).parse w).1.done = true ∧
      ∃ e, ((HeadParser.new limits : HeadParser H).parse w).1.error? = some e
  unexpectedEof_iff : r.1 = .error .unexpectedEof ↔
    w ≠ [] ∧ ((HeadParser.new limits : HeadParser H).parse w).1.done = false
  connectionClosed_iff : r.1 = .error .connectionClosed ↔ w = []

/-- What is reported by a verdict that anticipates the one on the whole. -/
theorem readsHeadOf_of_reports (hpart : ReadableHead.part H ≠ .chunkedBody) {limits : Limits}
    {w : Octets} {v : Verdict H × Nat} {r : Except ReadError H × Source}
    (h : HeadReader.Reports false w v r)
    (hv : Verdict.Anticipates v ((HeadParser.new limits : HeadParser H).outcome w)) :
    ReadsHeadOf limits w r := by
  have hlive : HeadParser.Live (.new limits : HeadParser H) := HeadParser.live_new limits
  have hnil (hw : w = []) :
      (HeadParser.new limits : HeadParser H).outcome w = (.unfinished, 0) := by
    rw [hw, HeadParser.outcome_nil hlive hpart]
  generalize houtcome : (HeadParser.new limits : HeadParser H).outcome w = u at hv hnil
  obtain ⟨hverdict, hconsumed⟩ := Prod.mk.inj houtcome
  have hsplit := hv.eq_or_refused
  cases h with
  | @accepted head n s flows rest =>
    obtain rfl : (.accepted head, n) = u := by simpa using hsplit
    obtain ⟨hdone, herror, hhead⟩ := HeadParser.of_verdict_accepted hverdict
    have hw : w ≠ [] := by
      intro hw
      cases hnil hw
    constructor
    · intro head'
      simp [hdone, herror, hhead]
    · intro _ _
      rw [hconsumed]
      exact rest
    · simp [herror]
    · simp [hdone]
    · simp [hw]
  | @refused e n s =>
    -- The whole may be refused for another reason than its pieces.
    obtain ⟨f, hf⟩ : ∃ f, u.1 = .refused f := by
      rcases hsplit with rfl | ⟨-, f, -, hf⟩
      · exact ⟨e, rfl⟩
      · exact ⟨f, hf⟩
    obtain ⟨hdone, herror⟩ := HeadParser.of_verdict_refused (hverdict.trans hf)
    have hw : w ≠ [] := by
      intro hw
      rw [hnil hw] at hf
      cases hf
    constructor
    · simp [herror]
    · simp
    · simp [hdone, herror]
    · simp [hdone]
    · simp [hw]
  | @ended n s _ =>
    obtain rfl : (.unfinished, n) = u := by simpa using hsplit
    obtain ⟨hdone, herror⟩ := HeadParser.of_verdict_unfinished hverdict
    constructor
    · simp [hdone]
    · simp
    · cases w <;> simp [hdone]
    · cases w <;> simp [hdone]
    · cases w <;> simp

/-- **A head is read from a source as it is parsed from the stream**, however much of the stream is
buffered, in whatever fragments the rest is delivered, and however much is asked for at a time. -/
theorem readHead_of_stream (options : ReadOptions) {s : Source} (hs : s.Flows) :
    ReadsHeadOf options.limits s.stream (readRequest options s) ∧
      ReadsHeadOf options.limits s.stream (readResponse options s) := by
  have hread {H : Type} [ReadableHead H] (hpart : ReadableHead.part H ≠ .chunkedBody) :
      ReadsHeadOf options.limits s.stream (readHead H options s) := by
    obtain ⟨v, hreports, hv⟩ := exists_reports_readHead (H := H) hpart options hs
    exact readsHeadOf_of_reports hpart hreports hv
  exact ⟨hread (by decide), hread (by decide)⟩

/-- `G /` and two line feeds, of which one octet is buffered, with an interruption inside the line
and an octet that follows the head. Two octets are asked for at a time. -/
theorem readHead_of_stream_short :
    (⟨[0x47], [.octets [0x20, 0x2F, 0x0A], .failure ⟨.interrupted, ""⟩, .octets [0x0A, 0x58]], 0⟩ :
        Source).Flows ∧
      ReadsHeadOf .standard [0x47, 0x20, 0x2F, 0x0A, 0x0A, 0x58]
        (readRequest ⟨.standard, 2⟩ ⟨[0x47],
          [.octets [0x20, 0x2F, 0x0A], .failure ⟨.interrupted, ""⟩, .octets [0x0A, 0x58]], 0⟩) := by
  have hs : (⟨[0x47], [.octets [0x20, 0x2F, 0x0A], .failure ⟨.interrupted, ""⟩,
      .octets [0x0A, 0x58]], 0⟩ : Source).Flows := by decide
  exact ⟨hs, (readHead_of_stream ⟨.standard, 2⟩ hs).1⟩

end HttpFraming
