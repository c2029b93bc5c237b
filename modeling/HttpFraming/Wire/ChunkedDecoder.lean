import HttpFraming.Wire.FieldCollector
import HttpFraming.Wire.Lexer

/-!
# Decoding chunked bodies

A decoder is fed the octets of a body in the `chunked` transfer coding and hands out the data in it.
Each call hands out at most one run of data, the window, which is the end of what the call has
consumed. So a caller that has the input in a buffer needs no copy of the data.

## One call

The lexer stops at the end of a run of data because the handler asks for a pause, and goes on from
there in the next call. A call also ends where the input does, where the body does, and where
something is wrong. `ChunkedDecoder.Returns` lists these ends, with what is known in each of them,
and `ChunkedDecoder.returns_parse` says that there are no others. Later modules argue by those cases
and do not open `ChunkedDecoder.parse`.

## All calls

`ChunkedDecoder.decode` makes one call after the other until nothing is left of its input, or until
the body ends. What that loop rests on is `ChunkedDecoder.parse_progress`: a call on some input that
does not fail consumes something of it. That in turn rests on the lexer, which consumes an octet or
fails at it (`ChunkedDecoder.consumed_run_pos`), and on the one octet that a lexer of heads does not
consume, the line feed at their end, having no place in a body (`Lexer.step_ne_endHead`).
-/

namespace HttpFraming

/-- How far a body is decoded. -/
inductive BodyStage where
  | reading
  | complete
  | failed (cause : ParseError)
deriving Repr, DecidableEq

/-- What the lexer has reported of a body. -/
structure BodyDraft where
  limits : Limits
  fields : FieldCollector
  /-- The trailers, once the body is complete. -/
  trailers : Headers
  /-- The data found in this call. -/
  window? : Option Octets
  stage : BodyStage
deriving Repr, DecidableEq

namespace BodyDraft

def new (limits : Limits) : BodyDraft :=
  ⟨limits, .empty, .empty, none, .reading⟩

/-- Goes on with the fields that come of a header piece, or fails. -/
def withFields (d : BodyDraft) : Except ParseError FieldCollector → BodyDraft × Flow
  | .ok fields => ({ d with fields := fields }, .proceed)
  | .error e => ({ d with stage := .failed e }, .abort)

/-- Takes what the lexer reports. Data and the end stop the lexer, as does whatever goes wrong. -/
def handle (d : BodyDraft) : Event → BodyDraft × Flow
  | .piece .chunkData octets => ({ d with window? := some octets }, .pause)
  | .piece .fieldName octets => d.withFields (d.fields.addName d.limits octets)
  | .piece .fieldValue octets => d.withFields (d.fields.addValue d.limits octets)
  | .piece _ _ => (d, .proceed)
  | .headEnd _ => (d, .proceed)
  | .bodyEnd =>
    match d.fields.finish with
    | .ok trailers =>
      ({ d with fields := .empty, trailers := trailers, stage := .complete }, .pause)
    | .error e => ({ d with stage := .failed e }, .abort)

end BodyDraft

/-- What a call hands out. -/
inductive ChunkedAction where
  /-- Nothing; there is more to read unless the decoder is done. -/
  | none
  /-- Decoded data, which are the last octets consumed. -/
  | data (window : Octets)
  | error (cause : ParseError)
deriving Repr, DecidableEq

/-- A decoder of a chunked body. -/
structure ChunkedDecoder where
  lexer : Lexer .chunkedBody
  draft : BodyDraft
deriving Repr, DecidableEq

namespace ChunkedDecoder

/-- What comes of a call: the decoder afterwards, how many octets were consumed, and what is handed
out. -/
structure Decoded where
  decoder : ChunkedDecoder
  consumed : Nat
  action : ChunkedAction

/-- A decoder that has read nothing. The limits apply to the trailers. -/
def new (limits : Limits) : ChunkedDecoder :=
  ⟨.new _, .new limits⟩

/-- Whether the body is complete or decoding has failed. -/
def done (d : ChunkedDecoder) : Bool :=
  match d.draft.stage with
  | .reading => false
  | .complete | .failed _ => true

/-- Why decoding failed. -/
def error? (d : ChunkedDecoder) : Option ParseError :=
  match d.draft.stage with
  | .failed e => some e
  | _ => none

/-- The error of a decoder is a matter of its stage alone. -/
theorem error?_eq_some_iff {d : ChunkedDecoder} {e : ParseError} :
    d.error? = some e ↔ d.draft.stage = .failed e := by
  rw [error?]
  cases d.draft.stage <;> simp

/-- The trailers, once the body is complete. -/
def trailers (d : ChunkedDecoder) : Headers :=
  d.draft.trailers

def withStage (d : ChunkedDecoder) (stage : BodyStage) : ChunkedDecoder :=
  { d with draft := { d.draft with stage := stage } }

/-- Feeds some octets. -/
def parse (d : ChunkedDecoder) (data : Octets) : Decoded :=
  match d.draft.stage with
  | .complete | .failed _ => ⟨d.withStage (.failed .wrongState), 0, .error .wrongState⟩
  | .reading =>
    let fed := d.lexer.resume.feed BodyDraft.handle { d.draft with window? := Option.none } data
    let d' : ChunkedDecoder := ⟨fed.lexer, fed.state⟩
    match fed.state.stage, fed.lexer.error? with
    | .failed e, _ => ⟨d', fed.consumed, .error e⟩
    | _, some e => ⟨d'.withStage (.failed (.malformed e)), fed.consumed, .error (.malformed e)⟩
    | _, none =>
      match fed.state.window? with
      | some window => ⟨d', fed.consumed, .data window⟩
      | none => ⟨d', fed.consumed, .none⟩

/-! ### What a call comes to -/

/-- What the lexer makes of the octets of a call. -/
def fed (d : ChunkedDecoder) (data : Octets) : Lexer.Fed .chunkedBody BodyDraft :=
  d.lexer.resume.feed BodyDraft.handle { d.draft with window? := Option.none } data

/-- The decoder with which a call leaves its lexer and its draft. -/
def afterFed (d : ChunkedDecoder) (data : Octets) : ChunkedDecoder :=
  ⟨(d.fed data).lexer, (d.fed data).state⟩

/-- **What a call can come to**: one case for each place where a call ends. -/
inductive Returns (d : ChunkedDecoder) (data : Octets) : Decoded → Prop
  /-- The decoder was done before. -/
  | refused (done : d.done = true) :
    Returns d data ⟨d.withStage (.failed .wrongState), 0, .error .wrongState⟩
  /-- Something could not be collected. -/
  | failed {e : ParseError} (live : d.draft.stage = .reading)
    (stage : (d.fed data).state.stage = .failed e) :
    Returns d data ⟨d.afterFed data, (d.fed data).consumed, .error e⟩
  /-- Something is not in the grammar. -/
  | malformed {e : SyntaxError} (live : d.draft.stage = .reading)
    (error : (d.fed data).lexer.error? = some e) :
    Returns d data ⟨(d.afterFed data).withStage (.failed (.malformed e)), (d.fed data).consumed,
      .error (.malformed e)⟩
  | data {window : Octets} (live : d.draft.stage = .reading)
    (stage : ∀ e, (d.fed data).state.stage ≠ .failed e)
    (error : (d.fed data).lexer.error? = Option.none)
    (found : (d.fed data).state.window? = some window) :
    Returns d data ⟨d.afterFed data, (d.fed data).consumed, .data window⟩
  | none (live : d.draft.stage = .reading)
    (stage : ∀ e, (d.fed data).state.stage ≠ .failed e)
    (error : (d.fed data).lexer.error? = Option.none)
    (found : (d.fed data).state.window? = Option.none) :
    Returns d data ⟨d.afterFed data, (d.fed data).consumed, .none⟩

/-- Every call comes to one of these. What is said of all calls is said by these cases, and `parse`
need not be opened again. -/
theorem returns_parse (d : ChunkedDecoder) (data : Octets) : Returns d data (d.parse data) := by
  unfold parse
  split
  · rename_i hstage
    exact .refused (by rw [done, hstage])
  · rename_i hstage
    exact .refused (by rw [done, hstage])
  · rename_i hlive
    simp only
    split
    · rename_i e hstage
      exact .failed hlive hstage
    · rename_i e herror _
      exact .malformed hlive herror
    · rename_i herror hstage
      split
      · rename_i hfound
        exact .data hlive hstage herror hfound
      · rename_i hfound
        exact .none hlive hstage herror hfound

/-! ### How much is consumed -/

/-- No more is consumed than is fed. -/
theorem consumed_parse_le (d : ChunkedDecoder) (data : Octets) :
    (d.parse data).consumed ≤ data.length := by
  have hfed : (d.fed data).consumed ≤ data.length := Lexer.consumed_feed_le _ _ _ data
  have hreturns := d.returns_parse data
  generalize d.parse data = r at hreturns ⊢
  cases hreturns with
  | refused => exact Nat.zero_le _
  | failed | malformed | data | none => exact hfed

/-- A run of a lexer over some input consumes something or fails. -/
theorem consumed_run_pos (l : Lexer .chunkedBody) (s : BodyDraft) (opened : Octets) (b : UInt8)
    (rest : Octets) : 0 < (l.run BodyDraft.handle s opened 0 (b :: rest)).consumed ∨
      (l.run BodyDraft.handle s opened 0 (b :: rest)).lexer.error?.isSome = true := by
  have hmore (l' : Lexer .chunkedBody) (s' : BodyDraft) (opened : Octets) :
      0 < (l'.run BodyDraft.handle s' opened 1 rest).consumed :=
    Lexer.le_consumed_run BodyDraft.handle l' s' opened 1 rest
  rw [Lexer.run]
  split
  · exact .inr rfl
  · exact .inl (hmore _ _ _)
  · exact .inl (hmore _ _ _)
  · split
    · exact .inl (hmore _ _ _)
    · exact .inl Nat.one_pos
  · split
    · exact .inl (hmore _ _ _)
    · exact .inl Nat.one_pos
  · rename_i hstep
    exact absurd hstep Lexer.step_ne_endHead
  · exact .inl Nat.one_pos

/-- A call on some input that does not fail consumes something of it. -/
theorem parse_progress (d : ChunkedDecoder) {data : Octets} (hdata : data ≠ [])
    (haction : ∀ e, (d.parse data).action ≠ .error e) : 0 < (d.parse data).consumed := by
  -- Where the lexer is left without an error, it had none and went through some octet.
  have hpos (herror : (d.fed data).lexer.error? = none) : 0 < (d.fed data).consumed := by
    obtain ⟨b, rest, rfl⟩ := List.exists_cons_of_ne_nil hdata
    rw [fed, Lexer.feed] at herror ⊢
    split
    · rename_i hstop
      rw [if_pos hstop] at herror
      rw [herror] at hstop
      cases hstop
    · rename_i hstop
      rw [if_neg hstop] at herror
      refine (consumed_run_pos _ _ _ b rest).resolve_right fun hsome ↦ ?_
      rw [herror] at hsome
      cases hsome
  have hreturns := d.returns_parse data
  generalize d.parse data = r at hreturns haction ⊢
  cases hreturns with
  | refused | failed | malformed => exact absurd rfl (haction _)
  | data _ _ herror => exact hpos herror
  | none _ _ herror => exact hpos herror

/-- A call that fails leaves its error in the decoder. -/
theorem stage_of_action_error {d : ChunkedDecoder} {data : Octets} {e : ParseError}
    (h : (d.parse data).action = .error e) : (d.parse data).decoder.draft.stage = .failed e := by
  have hreturns := d.returns_parse data
  generalize d.parse data = r at hreturns h ⊢
  cases hreturns with
  | refused | malformed =>
    cases h
    rfl
  | failed _ hstage =>
    cases h
    exact hstage
  | data | none => cases h

/-- A call that fails leaves the decoder done. -/
theorem done_of_action_error {d : ChunkedDecoder} {data : Octets} {e : ParseError}
    (h : (d.parse data).action = .error e) : (d.parse data).decoder.done = true := by
  rw [done, stage_of_action_error h]

/-! ### Whole inputs -/

/-- The data that a call hands out. -/
def Decoded.window (r : Decoded) : Octets :=
  match r.action with
  | .data window => window
  | .none | .error _ => []

/-- What comes of decoding some input as far as it goes: the decoder afterwards, how many octets
were consumed, in how many calls, and the data in them. -/
structure Progress where
  decoder : ChunkedDecoder
  consumed : Nat
  calls : Nat
  body : Octets

/-- No call at all. -/
def stay (d : ChunkedDecoder) : Progress :=
  ⟨d, 0, 0, []⟩

/-- One call. -/
def Decoded.toProgress (r : Decoded) : Progress :=
  ⟨r.decoder, r.consumed, 1, r.window⟩

/-- Some calls and then some others. -/
def Progress.append (first later : Progress) : Progress :=
  ⟨later.decoder, first.consumed + later.consumed, first.calls + later.calls,
    first.body ++ later.body⟩

/-- Decodes some input, one call after the other on what the calls before have left of it, until
nothing is left or the decoder is done. -/
def decode (d : ChunkedDecoder) (data : Octets) : Progress :=
  if _hstop : data = [] ∨ d.done = true then d.stay
  else
    let r := d.parse data
    if _hdone : r.decoder.done = true then r.toProgress
    else r.toProgress.append (r.decoder.decode (data.drop r.consumed))
termination_by data.length
decreasing_by
  have hdata : data ≠ [] := fun h ↦ _hstop (.inl h)
  have hpos := parse_progress d hdata fun e he ↦ _hdone (done_of_action_error he)
  have hlen := List.length_pos_iff.2 hdata
  rw [List.length_drop]
  omega

/-- Decodes an input that comes in pieces. -/
def decodePieces (d : ChunkedDecoder) : List Octets → Progress
  | [] => d.stay
  | piece :: rest =>
    let first := d.decode piece
    first.append (first.decoder.decodePieces rest)

end ChunkedDecoder

end HttpFraming
