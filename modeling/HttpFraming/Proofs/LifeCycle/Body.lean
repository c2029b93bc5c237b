import HttpFraming.Proofs.LifeCycle.Fields
import HttpFraming.Proofs.Message.Provenance
import HttpFraming.Proofs.Stream.Call

/-!
# The life of a chunked decoder

A decoder lives as a head parser does, with two differences. It pauses its lexer at each run of data
and goes on in the next call, so that a caller has to loop, and it has trailers to show once the
body is complete. `ChunkedDecoder.LifeCycle` is what a caller can rely on: a call hands out the last
octets that it consumed, or consumes all, and it always consumes something.

So the loop comes to an end. `ChunkedDecoder.callsOn` is that loop with a given number of calls, and
an input takes no more calls than it has octets.

## Two descriptions of one call

`Kept` is what a call keeps of the decoder, and `Called` (from the module on single calls) what it
hands out and consumes. `kept_ofRun` reads the first off a run, from what it leaves of the draft
(`Lexer.left_run`); whether the decoder can go on is known from the second. Both are needed for a
call of a decoder that can go on, and neither for one that is done, which refuses.

## Trailers

Trailers come into being with the last octet of a body and not before, so that a draft in the middle
of a body has none. This is a part of `Open` and `Refused`, which is how it is carried through a
run. `Incomplete` follows the calls of a caller instead: as long as none of them completed the body,
there is nothing to show, not even after a refusal.
-/

namespace HttpFraming

open CharClass

namespace BodyDraft

variable {d : BodyDraft} {event : Event}

/-- A draft in the middle of a body. -/
structure Open (d : BodyDraft) : Prop where
  stage : d.stage = .reading
  token : d.fields.IsToken
  trailers : d.trailers = .empty

/-- A draft of a whole body. -/
def Whole (d : BodyDraft) : Prop :=
  d.stage = .complete

/-- A draft that has given up, for a reason that tells of the octets. -/
def Refused (d : BodyDraft) : Prop :=
  (∃ e, d.stage = .failed e ∧ e.isInternal = false) ∧ d.trailers = .empty

/-- A draft in the middle of a body remains so with a piece of a trailer, or refuses it properly. -/
theorem Open.withFields (hd : Open d) {fields : Except ParseError FieldCollector}
    (h : Proper FieldCollector.IsToken fields) :
    Lexer.Answered Open Whole Refused (d.withFields fields) := by
  cases fields with
  | ok c => exact .goesOn ⟨hd.stage, h, hd.trailers⟩ (by decide)
  | error e => exact .givesUp ⟨⟨e, rfl, h⟩, hd.trailers⟩

/-- **What a draft answers** to anything that it can be told. -/
theorem Open.answered (hd : Open d) (hevent : event.Admissible) :
    Lexer.Answered Open Whole Refused (d.handle event) := by
  cases event with
  | piece span octets =>
    cases span with
    | chunkData => exact .goesOn ⟨hd.stage, hd.token, hd.trailers⟩ (by decide)
    | fieldName => exact hd.withFields (FieldCollector.proper_addName d.limits hd.token hevent)
    | fieldValue => exact hd.withFields (FieldCollector.proper_addValue d.limits hd.token octets)
    | method | target | reason => exact .goesOn hd (by decide)
  | headEnd line => exact .goesOn hd (by decide)
  | bodyEnd =>
    have hfinish := FieldCollector.proper_finish hd.token
    rw [handle]
    split
    · exact .ends rfl
    · rename_i e he
      rw [he] at hfinish
      exact .givesUp ⟨⟨e, rfl, hfinish⟩, hd.trailers⟩

end BodyDraft

namespace ChunkedDecoder

variable {d : ChunkedDecoder} {data : Octets}

/-- How lexer and draft stand to each other between two calls. -/
inductive Kept (d : ChunkedDecoder) : Prop
  | reading (live : Live d) (token : d.draft.fields.IsToken) (trailers : d.trailers = .empty)
  | accepted (verdict : d.verdict = .accepted d.trailers)
  | refused (e : ParseError) (verdict : d.verdict = .refused e) (external : e.isInternal = false)

/-- A new decoder is in the middle of a body. -/
theorem kept_new (limits : Limits) : Kept (.new limits) :=
  .reading (live_new limits) only_nil rfl

/-- What comes of a run that leaves a draft behind, if the decoder can go on unless it is done. -/
theorem kept_ofRun {r : Lexer.Fed .chunkedBody BodyDraft}
    (hr : Lexer.Left BodyDraft.Open BodyDraft.Whole BodyDraft.Refused r)
    (hlive : (ofRun r).decoder.done = false → Live (ofRun r).decoder) :
    Kept (ofRun r).decoder ∧ ((ofRun r).decoder.trailers = .empty ∨
      (ofRun r).decoder.verdict = .accepted (ofRun r).decoder.trailers) := by
  -- The draft would go on, has the whole body, or has given up. Only in the first case does it
  -- matter whether the lexer has failed.
  rcases hr with ⟨hopen, hexternal⟩ | ⟨hstage, herror⟩ | ⟨⟨e, hstage, hexternal⟩, htrailers⟩
  · have hstage := hopen.stage
    cases herror : r.lexer.error? with
    | none =>
      have hdecoder : (ofRun r).decoder = ⟨r.lexer, r.state⟩ := by
        simp only [ofRun, hstage, herror]
        split <;> rfl
      rw [hdecoder] at hlive ⊢
      exact ⟨.reading (hlive (by rw [done, hstage])) hopen.token hopen.trailers,
        .inl hopen.trailers⟩
    | some cause =>
      have hdecoder : (ofRun r).decoder =
          withStage ⟨r.lexer, r.state⟩ (.failed (.malformed cause)) := by
        simp only [ofRun, hstage, herror]
      rw [hdecoder]
      exact ⟨.refused (.malformed cause) rfl (hexternal cause herror), .inl hopen.trailers⟩
  · have hstage : r.state.stage = .complete := hstage
    have hdecoder : (ofRun r).decoder = ⟨r.lexer, r.state⟩ := by
      simp only [ofRun, hstage, herror]
      split <;> rfl
    have hverdict : verdict ⟨r.lexer, r.state⟩ = .accepted (trailers ⟨r.lexer, r.state⟩) := by
      rw [verdict, hstage]
    rw [hdecoder]
    exact ⟨.accepted hverdict, .inr hverdict⟩
  · have hdecoder : (ofRun r).decoder = ⟨r.lexer, r.state⟩ := by
      simp only [ofRun, hstage]
    rw [hdecoder]
    exact ⟨.refused e (by rw [verdict, hstage]) hexternal, .inl htrailers⟩

/-- A decoder that a call does not leave done can go on. -/
theorem Called.live_of_not_done {r : Decoded} (h : Called data r) (hdone : r.decoder.done = false) :
    Live r.decoder := by
  cases h with
  | data live _ _ | more live => exact live
  | complete hverdict => cases hdone.symm.trans (of_verdict_accepted hverdict).1
  | failed hverdict => cases hdone.symm.trans (of_verdict_refused hverdict).1

/-- What a call keeps of a decoder in the middle of a body. -/
theorem kept_parse_of_live (hd : Live d) (htoken : d.draft.fields.IsToken)
    (htrailers : d.trailers = .empty) (data : Octets) :
    Kept (d.parse data).decoder ∧ ((d.parse data).decoder.trailers = .empty ∨
      (d.parse data).decoder.verdict = .accepted (d.parse data).decoder.trailers) := by
  have hopen : BodyDraft.Open d.resumed.draft := ⟨hd.stage, htoken, htrailers⟩
  have hleft := Lexer.left_run BodyDraft.Open.answered data [] 0 hd.resumed.isFinal hopen (.inl rfl)
  have hlive : (d.parse data).decoder.done = false → Live (d.parse data).decoder :=
    (called_parse hd data).live_of_not_done
  rw [parse_eq hd] at hlive ⊢
  exact kept_ofRun hleft hlive

/-- A call of a decoder that is done is refused. -/
theorem parse_of_done (h : d.done = true) (data : Octets) :
    d.parse data = ⟨d.withStage (.failed .wrongState), 0, .error .wrongState⟩ := by
  cases hstage : d.draft.stage with
  | reading =>
    rw [done, hstage] at h
    cases h
  | complete | failed _ => rw [parse, hstage]

/-- **What a call keeps.** -/
theorem Kept.parse (hd : Kept d) (data : Octets) : Kept (d.parse data).decoder := by
  have hdone (h : d.done = true) : Kept (d.parse data).decoder := by
    rw [parse_of_done h]
    exact .refused .wrongState rfl rfl
  cases hd with
  | reading hlive htoken htrailers => exact (kept_parse_of_live hlive htoken htrailers data).1
  | accepted hverdict => exact hdone (of_verdict_accepted hverdict).1
  | refused _ hverdict _ => exact hdone (of_verdict_refused hverdict).1

/-- **What any calls keep.** -/
theorem Reached.kept (hd : d.Reached) : Kept d := by
  induction hd with
  | new limits => exact kept_new limits
  | parse _ data ih => exact ih.parse data

/-- What a decoder that is not done stands at. -/
theorem Kept.live (hd : Kept d) (h : d.done = false) : Live d := by
  cases hd with
  | reading hlive _ _ => exact hlive
  | accepted hverdict => cases h.symm.trans (of_verdict_accepted hverdict).1
  | refused _ hverdict _ => cases h.symm.trans (of_verdict_refused hverdict).1

/-! ### Trailers -/

/-- A decoder after calls none of which completed the body. -/
inductive Incomplete : ChunkedDecoder → Prop
  | new (limits : Limits) : Incomplete (.new limits)
  | parse {d : ChunkedDecoder} (incomplete : Incomplete d) (data : Octets)
    (not_complete : ¬ ((d.parse data).decoder.done = true ∧ (d.parse data).decoder.error? = none)) :
    Incomplete (d.parse data).decoder

theorem Incomplete.reached (hd : Incomplete d) : d.Reached := by
  induction hd with
  | new limits => exact .new limits
  | parse _ data _ ih => exact .parse ih data

/-- Trailers are not shown before the body is complete. -/
theorem Incomplete.trailers_eq (hd : Incomplete d) : d.trailers = .empty := by
  induction hd with
  | new limits => rfl
  | @parse d hd data hnot ih =>
    have hdone (h : d.done = true) : (d.parse data).decoder.trailers = .empty := by
      rw [parse_of_done h]
      exact ih
    cases hd.reached.kept with
    | reading hlive htoken htrailers =>
      rcases (kept_parse_of_live hlive htoken htrailers data).2 with h | hverdict
      · exact h
      · obtain ⟨hcomplete, herror, -⟩ := of_verdict_accepted hverdict
        exact absurd ⟨hcomplete, herror⟩ hnot
    | accepted hverdict => exact hdone (of_verdict_accepted hverdict).1
    | refused _ hverdict _ => exact hdone (of_verdict_refused hverdict).1

/-! ### Calls in a loop -/

/-- What is left after `n` calls, each on what the calls before it have left of `data`. -/
def callsOn (d : ChunkedDecoder) (data : Octets) : Nat → ChunkedDecoder × Octets
  | 0 => (d, data)
  | n + 1 => callsOn (d.parse data).decoder (data.drop (d.parse data).consumed) n

/-- The loop is over: nothing is left, or the decoder is done. -/
def Over (left : ChunkedDecoder × Octets) : Prop :=
  left.1.done = true ∨ left.2 = []

/-- A call on some input consumes something of it, unless it leaves the decoder done. -/
theorem consumed_parse_pos (hdata : data ≠ []) (h : (d.parse data).decoder.done = false) :
    0 < (d.parse data).consumed := by
  refine parse_progress d hdata fun e he ↦ ?_
  cases h.symm.trans (done_of_action_error he)

/-- **The loop comes to an end**, with no more calls than there are octets. -/
theorem exists_over_callsOn (m : Nat) :
    ∀ (d : ChunkedDecoder) {data : Octets}, data.length ≤ m →
      ∃ n, n ≤ data.length ∧ Over (d.callsOn data n) := by
  induction m with
  | zero =>
    intro d data hm
    exact ⟨0, Nat.zero_le _, .inr (List.length_eq_zero_iff.1 (Nat.le_zero.1 hm))⟩
  | succ m ih =>
    intro d data hm
    by_cases hdata : data = []
    · exact ⟨0, Nat.zero_le _, .inr hdata⟩
    have hpos := List.length_pos_iff.2 hdata
    cases hdone : (d.parse data).decoder.done with
    | true => exact ⟨1, hpos, .inl hdone⟩
    | false =>
      have hconsumed := consumed_parse_pos hdata hdone
      have hlength : (data.drop (d.parse data).consumed).length =
          data.length - (d.parse data).consumed := List.length_drop
      have hle : (data.drop (d.parse data).consumed).length ≤ m := by omega
      obtain ⟨n, hn, hover⟩ := ih (d.parse data).decoder hle
      exact ⟨n + 1, by omega, hover⟩

/-! ### What a caller can rely on -/

/-- **The life of a decoder** between two calls, and what the next calls do to it. -/
structure LifeCycle (d : ChunkedDecoder) : Prop where
  /-- An error is there only when the decoder is done. -/
  done_of_error : ∀ e, d.error? = some e → d.done = true
  trailers_of_not_done : d.done = false → d.trailers = .empty
  consumed_le : ∀ data, (d.parse data).consumed ≤ data.length
  /-- Data that is handed out is some data, the last that was consumed. -/
  window : ∀ data window, (d.parse data).action = .data window →
    window ≠ [] ∧ window.length ≤ (d.parse data).consumed ∧
      window = (data.drop ((d.parse data).consumed - window.length)).take window.length
  /-- A call on some input that does not fail consumes something of it. -/
  progress : ∀ data, data ≠ [] → (∀ e, (d.parse data).action ≠ .error e) →
    0 < (d.parse data).consumed
  /-- A call that hands out nothing and does not end the body consumes all it was fed. -/
  consumes_all : ∀ data, (d.parse data).action = .none → (d.parse data).decoder.done = false →
    (d.parse data).consumed = data.length
  /-- A call of a decoder that is done is refused. -/
  of_done : d.done = true → ∀ data, (d.parse data).consumed = 0 ∧
    (d.parse data).action = .error .wrongState ∧
      (d.parse data).decoder.error? = some .wrongState
  /-- A call that fails leaves its error in the decoder. -/
  error_of_action : ∀ data e, (d.parse data).action = .error e →
    (d.parse data).decoder.error? = some e
  /-- An error tells of the octets or of the use of the decoder, and not of its parts. -/
  external : ∀ e, (d.error? = some e ∨ ∃ data, (d.parse data).action = .error e) →
    e ≠ .malformed .aborted ∧ e ≠ .malformed .closed ∧ e ≠ .notUtf8 .headerName
  /-- Calls on what is left come to an end. -/
  terminates : ∀ data, ∃ n, n ≤ data.length ∧ Over (d.callsOn data n)

theorem done_of_error? {e : ParseError} (h : d.error? = some e) : d.done = true := by
  rw [done, error?_eq_some_iff.1 h]

/-- Data is handed out from the end of what was consumed. -/
theorem Called.window {r : Decoded} (h : Called data r) {window : Octets}
    (hwindow : r.action = .data window) : window ≠ [] ∧ window.length ≤ r.consumed ∧
      window = (data.drop (r.consumed - window.length)).take window.length := by
  cases h with
  | @data d front window' rest _ hne hsplit =>
    obtain rfl : window' = window := ChunkedAction.data.inj hwindow
    have hfront : (front ++ window').length - window'.length = front.length := by
      rw [List.length_append]
      omega
    refine ⟨hne, ?_, ?_⟩
    · rw [List.length_append]
      exact Nat.le_add_left _ _
    · rw [hfront, hsplit, List.drop_left, List.take_left]
  | more _ | complete _ | failed _ => cases hwindow

/-- A call that hands out nothing and does not end the body consumes all. -/
theorem Called.consumes_all {r : Decoded} (h : Called data r) (hnone : r.action = .none)
    (hdone : r.decoder.done = false) : r.consumed = data.length := by
  cases h with
  | data _ _ _ => cases hnone
  | more _ => rfl
  | complete hverdict => cases hdone.symm.trans (of_verdict_accepted hverdict).1
  | failed _ => cases hnone

/-- A call that fails leaves its error behind. -/
theorem Called.error_of_action {r : Decoded} (h : Called data r) {e : ParseError}
    (he : r.action = .error e) : r.decoder.error? = some e := by
  cases h with
  | @failed d n e' hverdict =>
    obtain rfl : e' = e := ChunkedAction.error.inj he
    exact (of_verdict_refused hverdict).2
  | data _ _ _ | more _ | complete _ => cases he

/-- The error of a decoder tells of the octets, or of its use. -/
theorem Kept.external (hd : Kept d) {e : ParseError} (h : d.error? = some e) :
    e.isInternal = false := by
  cases hd with
  | reading hlive _ _ =>
    rw [error?, hlive.stage] at h
    cases h
  | accepted hverdict =>
    rw [(of_verdict_accepted hverdict).2.1] at h
    cases h
  | refused e' hverdict hexternal =>
    obtain rfl := Option.some.inj ((of_verdict_refused hverdict).2.symm.trans h)
    exact hexternal

/-- What a call hands out of an error, the decoder has. -/
theorem Kept.error_of_action (hd : Kept d) {e : ParseError} (h : (d.parse data).action = .error e) :
    (d.parse data).decoder.error? = some e := by
  cases hdone : d.done with
  | true =>
    rw [parse_of_done hdone] at h ⊢
    obtain rfl := ChunkedAction.error.inj h
    rfl
  | false => exact (called_parse (hd.live hdone) data).error_of_action h

/-- A decoder lives as it should from a state that calls keep. -/
theorem Kept.lifeCycle (hd : Kept d) : LifeCycle d where
  done_of_error _ h := done_of_error? h
  trailers_of_not_done h := by
    cases hd with
    | reading _ _ htrailers => exact htrailers
    | accepted hverdict => cases h.symm.trans (of_verdict_accepted hverdict).1
    | refused _ hverdict _ => cases h.symm.trans (of_verdict_refused hverdict).1
  consumed_le := d.consumed_parse_le
  window data window h := by
    cases hdone : d.done with
    | true =>
      rw [parse_of_done hdone] at h
      cases h
    | false => exact (called_parse (hd.live hdone) data).window h
  progress _ hdata h := parse_progress d hdata h
  consumes_all data h hnot := by
    cases hdone : d.done with
    | true =>
      rw [parse_of_done hdone] at h
      cases h
    | false => exact (called_parse (hd.live hdone) data).consumes_all h hnot
  of_done h data := by
    rw [parse_of_done h]
    exact ⟨rfl, rfl, rfl⟩
  error_of_action _ _ h := hd.error_of_action h
  external e h := by
    refine ParseError.isInternal_eq_false_iff.1 ?_
    rcases h with h | ⟨data, h⟩
    · exact hd.external h
    · exact (hd.parse data).external (hd.error_of_action h)
  terminates data := exists_over_callsOn data.length d (Nat.le_refl _)

/-- **Every decoder lives as it should**, after any calls with whatever octets, and shows no
trailers before a call has completed the body. -/
theorem lifeCycle_of_calls (d : ChunkedDecoder) :
    (d.Reached → LifeCycle d) ∧ (Incomplete d → d.trailers = .empty) :=
  ⟨fun hd ↦ hd.kept.lifeCycle, fun hd ↦ hd.trailers_eq⟩

/-- A decoder after a size line and nothing more of the chunk. -/
theorem lifeCycle_of_size_line :
    LifeCycle ((new .standard).parse [0x32, 0x0A]).decoder ∧
      ((new .standard).parse [0x32, 0x0A]).decoder.trailers = .empty :=
  ⟨(lifeCycle_of_calls _).1 (.parse (.new .standard) [0x32, 0x0A]),
    (lifeCycle_of_calls _).2 (.parse (.new .standard) [0x32, 0x0A] fun h ↦ by cases h.1)⟩

end ChunkedDecoder

end HttpFraming
