import HttpFraming.Proofs.Fragmentation.Gathering
import HttpFraming.Proofs.Fragmentation.Verdict

/-!
# A chunked body in pieces

How a chunked body comes in does not matter. The data that is handed out is the same however the
body is cut, and so is the outcome, in the sense in which it is for heads.

All calls over an input come to one run of a gathering (`settles_decode`), and what is known of runs
over two pieces carries over from there.

## From two pieces to any number

* A decoder that is not done with the first piece has consumed it, and the calls over the rest are
  the calls over what follows (`decode_append_of_not_done`).
* A decoder that is done with the first piece is done with the whole, and the data is the same. But
  what it says need not be what it says of the whole: a trailer that a cut runs through may be
  refused at the cut, although an octet behind it breaks the grammar (`anticipates_decode_append`).
* `anticipates_decodePieces` is the induction over the pieces, and carries both. The input in one
  piece is on the right of it.

## What a caller is told

`SameOutcome` says in terms of a decoder and nothing else what two cuts have in common. The four
lemmas before it translate a verdict into `done`, `error?` and `trailers`, so that the main theorem,
`sameOutcome_decodePieces`, does not mention runs, verdicts or gatherings.
-/

namespace HttpFraming.ChunkedDecoder

open Lexer (Config Fed)

variable {d : ChunkedDecoder} {a body data : Octets}

/-- What a decoder says. -/
def verdict (d : ChunkedDecoder) : Verdict Headers :=
  match d.draft.stage with
  | .reading => .unfinished
  | .complete => .accepted d.trailers
  | .failed e => .refused e

/-- What comes of some calls: what the decoder says after them, and how many octets it has
consumed. -/
def Progress.outcome (P : Progress) : Verdict Headers × Nat :=
  (P.decoder.verdict, P.consumed)

/-- What comes of a run. -/
def runOutcome (f : Fed .chunkedBody BodyGathering) : Verdict Headers × Nat :=
  ((conclude f).verdict, f.consumed)

/-- Calls that come to a run have its outcome. -/
theorem Settles.outcome {body : Octets} {P : Progress} {f : Fed .chunkedBody BodyGathering}
    (h : Settles body P f) : P.outcome = runOutcome f := by
  have hverdict : P.decoder.resumed.verdict = (conclude f).resumed.verdict :=
    congrArg verdict h.decoder
  exact Prod.ext hverdict h.consumed

/-- Calls that come to a run leave the decoder done if the run does. -/
theorem Settles.done_eq {body : Octets} {P : Progress} {f : Fed .chunkedBody BodyGathering}
    (h : Settles body P f) : P.decoder.done = (conclude f).done := by
  have hdone : P.decoder.resumed.done = (conclude f).resumed.done := congrArg done h.decoder
  exact hdone

/-- What a decoder says after a run, in terms of its lexer and its stage. -/
theorem verdict_conclude (f : Fed .chunkedBody BodyGathering) :
    (conclude f).verdict =
      match f.lexer.error?, f.state.draft.stage with
      | some cause, .reading => .refused (.malformed cause)
      | none, .reading => .unfinished
      | _, .complete => .accepted f.state.draft.trailers
      | _, .failed e => .refused e := by
  cases herror : f.lexer.error? <;> cases hstage : f.state.draft.stage <;>
    simp only [conclude, verdict, withStage, trailers, herror, hstage]

theorem runOutcome_congr {f f' : Fed .chunkedBody BodyGathering}
    (h : Lexer.Alike BodyGathering.view f f') : runOutcome f = runOutcome f' := by
  obtain ⟨hstage, htrailers, -⟩ : _ ∧ _ ∧ _ := by simpa [BodyGathering.view] using h.view
  rw [runOutcome, runOutcome, verdict_conclude, verdict_conclude, h.lexer, h.consumed, hstage,
    htrailers]

/-- Octets that were consumed before only add to the count. -/
theorem runOutcome_add (f : Fed .chunkedBody BodyGathering) (n : Nat) :
    runOutcome ⟨f.lexer, f.state, n + f.consumed⟩ = ((runOutcome f).1, n + (runOutcome f).2) := by
  rw [runOutcome, runOutcome, verdict_conclude, verdict_conclude]

/-- A decoder is done exactly when the run has ended. -/
theorem done_conclude {total : Nat} {f : Fed .chunkedBody BodyGathering}
    (h : BodyGathering.RunEnd total f) : (conclude f).done = f.lexer.phase.isFinal := by
  rcases h with ⟨hready, -⟩ | ⟨cause, hstage, hphase⟩ | ⟨e, hstage, hphase⟩ | ⟨hstage, hphase⟩
  · rw [conclude_of_isFinal hready.isFinal, done, hready.isFinal, hready.stage]
  · simp only [conclude, done, withStage, Lexer.error?_of_phase hphase, hstage, hphase]
    rfl
  · simp only [conclude, done, Lexer.error?_of_phase hphase, hstage, hphase]
    rfl
  · simp only [conclude, done, Lexer.error?, hstage, hphase]
    rfl

/-- A run that has not ended has read all of its input. -/
theorem ready_of_isFinal {total : Nat} {f : Fed .chunkedBody BodyGathering}
    (h : BodyGathering.RunEnd total f) (hfinal : f.lexer.phase.isFinal = false) :
    Ready ⟨f.lexer, f.state.draft⟩ ∧ f.consumed = total := by
  rcases h with ⟨hready, hconsumed⟩ | ⟨_, _, hphase⟩ | ⟨_, _, hphase⟩ | ⟨_, hphase⟩
  · exact ⟨hready, hconsumed⟩
  all_goals
    rw [hphase] at hfinal
    cases hfinal

/-- A decoder is done with an input exactly if the run over it has ended. -/
theorem done_decode (hd : Live d) (data : Octets) :
    (d.decode data).decoder.done = (d.resumed.gather [] data).lexer.phase.isFinal :=
  (settles_decode hd [] data).done_eq.trans (done_conclude (runEnd_gather hd.resumed [] data))

/-- The data that all calls hand out is what the run gathers. -/
theorem body_decode (hd : Live d) (data : Octets) :
    (d.decode data).body = (d.resumed.gather [] data).state.body :=
  (settles_decode hd [] data).body

/-- The outcome of all calls is that of the run. -/
theorem outcome_decode (hd : Live d) (data : Octets) :
    (d.decode data).outcome = runOutcome (d.resumed.gather [] data) :=
  (settles_decode hd [] data).outcome

/-! ### Two pieces -/

theorem body_of_alike {f f' : Fed .chunkedBody BodyGathering}
    (h : Lexer.Alike BodyGathering.view f f') : f.state.body = f'.state.body :=
  congrArg (fun v ↦ v.2.2) h.view

/-- A gathering over two pieces goes on with the second where it is after the first. -/
theorem alike_gather_append (hd : Live d) (h : (d.gather body a).lexer.phase.isFinal = false)
    (b : Octets) :
    Lexer.Alike BodyGathering.view (d.gather body (a ++ b))
      ⟨(gather ⟨(d.gather body a).lexer, (d.gather body a).state.draft⟩
          (d.gather body a).state.body b).lexer,
        (gather ⟨(d.gather body a).lexer, (d.gather body a).state.draft⟩
          (d.gather body a).state.body b).state,
        a.length + (gather ⟨(d.gather body a).lexer, (d.gather body a).state.draft⟩
          (d.gather body a).state.body b).consumed⟩ := by
  obtain ⟨-, halike⟩ :=
    Config.alike_run_append BodyGathering.gathers_handle (hd.coherent body) h b
  rw [Nat.add_comm 0 a.length, Config.run_add] at halike
  exact halike

/-- A decoder that is not done with some input has consumed it and can go on. -/
theorem live_of_not_done (hd : Live d) (h : (d.decode a).decoder.done = false) :
    Live (d.decode a).decoder ∧ (d.decode a).consumed = a.length := by
  rw [done_decode hd] at h
  obtain ⟨hready, hconsumed⟩ := ready_of_isFinal (runEnd_gather hd.resumed [] a) h
  have hsettles := settles_decode hd [] a
  have hdecoder := hsettles.decoder
  rw [conclude_of_isFinal h] at hdecoder
  have hlive : Live (d.decode a).decoder.resumed := hdecoder ▸ hready.toLive.resumed.toLive
  exact ⟨⟨hlive.stage, hlive.isFinal⟩, hsettles.consumed.trans hconsumed⟩

/-- Having read one piece, to read the next is to read both. -/
theorem decode_append_of_not_done (hd : Live d) (h : (d.decode a).decoder.done = false)
    (b : Octets) :
    (d.decode (a ++ b)).body = (d.decode a).body ++ ((d.decode a).decoder.decode b).body ∧
      (d.decode (a ++ b)).outcome =
        (((d.decode a).decoder.decode b).outcome.1,
          a.length + ((d.decode a).decoder.decode b).outcome.2) := by
  obtain ⟨hlive, -⟩ := live_of_not_done hd h
  rw [done_decode hd] at h
  obtain ⟨hready, -⟩ := ready_of_isFinal (runEnd_gather hd.resumed [] a) h
  have hbody := body_decode hd a
  have hdecoder := (settles_decode hd [] a).decoder
  rw [conclude_of_isFinal h, hready.resumed_eq] at hdecoder
  have hlater := settles_decode hlive (d.decode a).body b
  rw [hdecoder, hbody] at hlater
  have halike := alike_gather_append hd.resumed.toLive h b
  constructor
  · rw [body_decode hd, body_of_alike halike, hbody]
    exact hlater.body.symm
  · rw [outcome_decode hd, runOutcome_congr halike, runOutcome_add, hlater.outcome]

/-- What a decoder says that is done with the first piece, it foresees of both. No data comes out of
the second. -/
theorem anticipates_decode_append (hd : Live d) (h : (d.decode a).decoder.done = true)
    (b : Octets) :
    (d.decode (a ++ b)).body = (d.decode a).body ∧
      Verdict.Anticipates (d.decode a).outcome (d.decode (a ++ b)).outcome := by
  rw [done_decode hd] at h
  rw [body_decode hd, body_decode hd, outcome_decode hd, outcome_decode hd]
  have hc := hd.resumed.toLive.coherent []
  rcases Config.run_append_of_isFinal BodyGathering.gathers_handle hc h b with heq |
    ⟨c', e, hc', ⟨span, piece, hcollect⟩, hrun, hdoomed⟩
  · rw [gather, gather, heq]
    exact ⟨rfl, .refl _⟩
  -- A trailer was refused at the cut. No refusal of a trailer is an error of the grammar.
  · have hready : Ready ⟨c'.lexer, c'.state.draft⟩ :=
      ready_of_after? hd.resumed (hc.after? hc').1 hc'
    have hne : ∀ cause, e ≠ .malformed cause := by
      rintro cause rfl
      exact c'.state.collect_ne_malformed span piece cause hcollect
    have hrefuse (l : Lexer .chunkedBody) (n : Nat) :
        runOutcome ⟨l.fail .aborted, c'.state.refuse e, n⟩ = (.refused e, n) := rfl
    have hreject (l : Lexer .chunkedBody) (cause : SyntaxError) (n : Nat) :
        runOutcome ⟨l.fail cause, c'.state, n⟩ = (.refused (.malformed cause), n) := by
      rw [runOutcome, verdict_conclude, hready.stage]
      rfl
    rw [gather, gather, hrun, hrefuse]
    generalize (d.resumed.config []).run BodyGathering.handle 0 (a ++ b) = f at hdoomed ⊢
    cases hdoomed with
    | refused l n =>
      rw [hrefuse]
      exact ⟨rfl, .refused hne⟩
    | rejected l cause n =>
      rw [hreject]
      exact ⟨rfl, .refused hne⟩

/-! ### Any number of pieces -/

theorem decode_of_done (h : d.done = true) (data : Octets) : d.decode data = d.stay := by
  rw [decode, dif_pos (.inr h)]

/-- A decoder that is done takes no notice of further pieces. -/
theorem decodePieces_of_done (h : d.done = true) (pieces : List Octets) :
    d.decodePieces pieces = d.stay := by
  induction pieces with
  | nil => rfl
  | cons piece rest ih =>
    rw [decodePieces, decode_of_done h]
    show d.stay.append (d.decodePieces rest) = d.stay
    rw [ih]
    rfl

/-- **A body in pieces next to the body in one piece.** The data is the same, and what is said of
the one foresees what is said of the other. -/
theorem anticipates_decodePieces (pieces : List Octets) :
    ∀ {d : ChunkedDecoder}, Live d →
      (d.decodePieces pieces).body = (d.decode pieces.flatten).body ∧
        Verdict.Anticipates (d.decodePieces pieces).outcome (d.decode pieces.flatten).outcome := by
  induction pieces with
  | nil =>
    intro d _
    rw [List.flatten_nil, decode_nil]
    exact ⟨rfl, .refl _⟩
  | cons piece rest ih =>
    intro d hd
    rw [List.flatten_cons, decodePieces]
    -- Done with the first piece or not: only in the second case does the induction hypothesis
    -- apply.
    cases hdone : (d.decode piece).decoder.done with
    | true =>
      obtain ⟨hbody, hanticipates⟩ := anticipates_decode_append hd hdone rest.flatten
      have hfirst : (d.decode piece).append ((d.decode piece).decoder.decodePieces rest) =
          d.decode piece := by
        rw [decodePieces_of_done hdone, Progress.append_stay]
      rw [hfirst]
      exact ⟨hbody.symm, hanticipates⟩
    | false =>
      obtain ⟨hlive, hconsumed⟩ := live_of_not_done hd hdone
      obtain ⟨hbody, houtcome⟩ := decode_append_of_not_done hd hdone rest.flatten
      obtain ⟨hlater, hanticipates⟩ := ih hlive
      rw [hbody, houtcome]
      refine ⟨congrArg ((d.decode piece).body ++ ·) hlater, ?_⟩
      have hadd := hanticipates.add_consumed piece.length
      rw [← hconsumed] at hadd ⊢
      exact hadd

/-! ### Two cuts -/

/-- A body is accepted by a decoder that is done without an error, and has the trailers. -/
theorem of_verdict_accepted {trailers : Headers} (h : d.verdict = .accepted trailers) :
    d.done = true ∧ d.error? = none ∧ d.trailers = trailers := by
  cases hstage : d.draft.stage <;> simp_all [verdict, done, error?]

theorem verdict_of_done (hdone : d.done = true) (herror : d.error? = none) :
    d.verdict = .accepted d.trailers := by
  cases hstage : d.draft.stage <;> simp_all [verdict, done, error?]

/-- A body is refused by a decoder that is done, with the error. -/
theorem of_verdict_refused {e : ParseError} (h : d.verdict = .refused e) :
    d.done = true ∧ d.error? = some e := by
  cases hstage : d.draft.stage <;> simp_all [verdict, done, error?]

theorem of_verdict_unfinished (h : d.verdict = .unfinished) :
    d.done = false ∧ d.error? = none := by
  cases hstage : d.draft.stage <;> simp_all [verdict, done, error?]

/-- Two ways of feeding `total` octets have one outcome: the same data, and the same trailers with
as many octets consumed, an error, or neither and all octets consumed. If both errors are breaches
of the grammar, then they are the same, at the same place. -/
def SameOutcome (total : Nat) (P Q : Progress) : Prop :=
  P.body = Q.body ∧
    ((∃ trailers,
        (P.decoder.done = true ∧ P.decoder.error? = none ∧ P.decoder.trailers = trailers) ∧
        (Q.decoder.done = true ∧ Q.decoder.error? = none ∧ Q.decoder.trailers = trailers) ∧
        P.consumed = Q.consumed) ∨
      (∃ e f, (P.decoder.done = true ∧ P.decoder.error? = some e) ∧
        (Q.decoder.done = true ∧ Q.decoder.error? = some f) ∧
        ∀ c d, e = .malformed c → f = .malformed d → c = d ∧ P.consumed = Q.consumed) ∨
      ((P.decoder.done = false ∧ P.decoder.error? = none ∧ P.consumed = total) ∧
        (Q.decoder.done = false ∧ Q.decoder.error? = none ∧ Q.consumed = total)))

/-- Calls with the same data and verdicts that agree have one outcome. -/
theorem sameOutcome_of_agree {total : Nat} {P Q : Progress} (hbody : P.body = Q.body)
    (h : Verdict.Agree total P.outcome Q.outcome) : SameOutcome total P Q := by
  refine ⟨hbody, ?_⟩
  rcases h.split with ⟨trailers, hP, hQ, hconsumed⟩ | ⟨e, f, hP, hQ, hsyntax⟩ |
    ⟨⟨hP, hm⟩, hQ, hn⟩
  · exact .inl ⟨trailers, of_verdict_accepted hP, of_verdict_accepted hQ, hconsumed⟩
  · exact .inr (.inl ⟨e, f, of_verdict_refused hP, of_verdict_refused hQ, hsyntax⟩)
  · obtain ⟨hdone, herror⟩ := of_verdict_unfinished hP
    obtain ⟨hdone', herror'⟩ := of_verdict_unfinished hQ
    exact .inr (.inr ⟨⟨hdone, herror, hm⟩, hdone', herror', hn⟩)

/-- **How a chunked body is cut into pieces does not matter**: two cuts of the same octets, into
pieces of which some may be empty, give the same data and have one outcome. -/
theorem sameOutcome_decodePieces (limits : Limits) {a b : List Octets}
    (h : a.flatten = b.flatten) :
    SameOutcome a.flatten.length ((new limits).decodePieces a) ((new limits).decodePieces b) := by
  have hd := live_new limits
  obtain ⟨hbody, hanticipates⟩ := anticipates_decodePieces a hd
  obtain ⟨hbody', hanticipates'⟩ := anticipates_decodePieces b hd
  rw [← h] at hbody' hanticipates'
  refine sameOutcome_of_agree (hbody.trans hbody'.symm)
    (hanticipates.agree hanticipates' fun hu ↦ ?_)
  exact (live_of_not_done hd (of_verdict_unfinished hu).1).2

/-- Two cuts of a chunk with the data `ab` and the last chunk: one inside the data, the other
between the size and its line feed and before the data. -/
theorem sameOutcome_decodePieces_one_chunk :
    ([[0x32, 0x0A, 0x61], [], [0x62, 0x0A, 0x30, 0x0A, 0x0A]] : List Octets).flatten =
        ([[0x32], [0x0A], [0x61, 0x62, 0x0A, 0x30, 0x0A, 0x0A]] : List Octets).flatten ∧
      SameOutcome 8
        ((new .standard).decodePieces [[0x32, 0x0A, 0x61], [], [0x62, 0x0A, 0x30, 0x0A, 0x0A]])
        ((new .standard).decodePieces [[0x32], [0x0A], [0x61, 0x62, 0x0A, 0x30, 0x0A, 0x0A]]) :=
  ⟨by decide, sameOutcome_decodePieces .standard (by decide)⟩

end HttpFraming.ChunkedDecoder
