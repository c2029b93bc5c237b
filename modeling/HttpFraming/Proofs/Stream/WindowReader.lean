import HttpFraming.Proofs.Checked
import HttpFraming.Proofs.Stream.Completion
import HttpFraming.Stream.WindowReader

/-!
# The window of a chunked body

The window of a reader is a range of places in a buffer that is kept elsewhere. It was found by a
call of the decoder and is used by later reads, so it must not happen that the buffer is moved in
between. `WindowReader.Holds` says that it has not: the decoder was called last over just what is
buffered now, and what it has found there is what was handed out of the window since, and then what
is still in it. Where there is no window, there is nothing to release either.

* To hand out some octets keeps this (`Holds.handOut`), and asks neither the decoder nor the
  transport for anything.
* A call of the decoder brings it about (`Stands.hold`, `Stands.pass`), as no call finds data that
  are empty.
* Each round of the loops does to a reader what it does to the `ChunkedBody` that the reader is
  (`mirrors_of_consume`, `mirrors_of_read`). So a read comes to the same, and above all it comes to
  something (`exists_readSome?`).

`WindowReader.safe_of_reads` says what is true after any reads, and in each round of the next one.

## What can go wrong, and where

A reader as it is kept has two numbers for its window, a third for what is to be released, and an
error beside the one of its decoder. All of them could contradict one another or the buffer, and
then a subtraction or a slice would fail (`Checked`). The `ChunkedBody` has none of this: its window
is there or not, and its error is that of its decoder. `toBody` forgets what is redundant, and
`Stands` is the invariant under which nothing is lost by it.

## Why rounds are mirrored

The loops of the reader as it is kept have the same rounds as the loops of `ChunkedBody`, which are
known to end (`HttpFraming.Proofs.Stream.Termination`). `Loop.Mirrors` compares two loops round by
round, so that termination is not shown again. It also says of each state that the loops go through
that it satisfies the invariant, and this is what `Safe` needs: what is promised holds in each round
and not only between reads.
-/

namespace HttpFraming

namespace ChunkedDecoder

variable {d : ChunkedDecoder} {data : Octets}

/-- A decoder has the error that its last call has returned, if any. -/
theorem error?_parse_eq_some_iff {e : ParseError} :
    (d.parse data).decoder.error? = some e ↔ (d.parse data).action = .error e := by
  rw [error?_eq_some_iff]
  refine ⟨fun hstage ↦ ?_, stage_of_action_error⟩
  have hreturns := d.returns_parse data
  generalize d.parse data = r at hreturns hstage ⊢
  cases hreturns with
  | refused | malformed =>
    cases hstage
    rfl
  | failed _ hfailed =>
    cases hfailed.symm.trans hstage
    rfl
  | data _ hnot | none _ hnot => exact absurd hstage (hnot e)

theorem error?_parse_eq_none (h : ∀ e, (d.parse data).action ≠ .error e) :
    (d.parse data).decoder.error? = none :=
  Option.eq_none_iff_forall_ne_some.2 fun e he ↦ h e (error?_parse_eq_some_iff.1 he)

/-- A decoder that is not done has no error. -/
theorem error?_of_not_done (h : d.done = false) : d.error? = none :=
  Option.eq_none_iff_forall_ne_some.2 fun e he ↦ by cases h.symm.trans (done_of_error? he)

end ChunkedDecoder

namespace WindowReader

variable {r : WindowReader} {front : Octets} {n : Nat}

/-! ### How the window stands -/

/-- **How the window stands**, when `front` was handed out of it. Either there is none, and there is
nothing to release. Or the decoder was called last over just what is buffered, has consumed as much
of it as is to be released, and has found `front` and then what is in the window. -/
inductive Holds (front : Octets) (r : WindowReader) : Prop
  | nothing (empty : ¬r.Pending) (lastParsed : r.lastParsed = 0) (front : front = [])
  | window (start : r.unconsumed.start < r.unconsumed.stop)
    (stop : r.unconsumed.stop = r.lastParsed) (le : r.lastParsed ≤ r.source.buffered.length)
    (found : ∃ d : ChunkedDecoder, d.Reached ∧ d.parse r.source.buffered =
      ⟨r.decoder, r.lastParsed, .data (front ++ r.unconsumed.octets r.source.buffered)⟩)

/-- A reader of which the window holds, after any calls of its decoder. -/
structure Stands (front : Octets) (r : WindowReader) : Prop where
  holds : Holds front r
  error : r.error? = r.decoder.error?
  reached : r.decoder.Reached

/-- The octets that a read has handed out. -/
def returned : Except ReadError Octets → Octets
  | .ok data => data
  | .error _ => []

/-- What was handed out of the window after a read, when `front` was handed out of it before. -/
def handed (front : Octets) (read : Except ReadError Octets × WindowReader) : Octets :=
  if read.2.Pending then front ++ returned read.1 else []

theorem handed_of_pending (hr : r.Pending) (data : Octets) :
    handed front (.ok data, r) = front ++ data := if_pos hr

theorem handed_of_not_pending (hr : ¬r.Pending) (result : Except ReadError Octets) :
    handed front (result, r) = [] := if_neg hr

/-- Without a window nothing is to be released. -/
theorem Holds.lastParsed_eq_zero (h : Holds front r) (hr : ¬r.Pending) : r.lastParsed = 0 := by
  cases h with
  | nothing _ hzero => exact hzero
  | window hstart => exact absurd hstart hr

/-- Without a window nothing was handed out of one. -/
theorem Holds.front_eq_nil (h : Holds front r) (hr : ¬r.Pending) : front = [] := by
  cases h with
  | nothing _ _ hfront => exact hfront
  | window hstart => exact absurd hstart hr

theorem toBody_of_pending (h : r.Pending) :
    r.toBody = ⟨r.source.toSource, r.bufferSize, r.decoder, some r.unconsumed⟩ := by
  rw [toBody, if_pos h]

/-- An empty window is none. -/
theorem toBody_of_not_pending (h : ¬r.Pending) :
    r.toBody = ⟨r.source.toSource, r.bufferSize, r.decoder, none⟩ := by
  rw [toBody, if_neg h]

theorem decoder_toBody (r : WindowReader) : r.toBody.decoder = r.decoder := rfl

theorem buffer_toBody (r : WindowReader) : r.toBody.source.buffer = r.source.buffered := rfl

/-- A reader of which the window holds is a tidy body. -/
theorem Stands.tidy (h : Stands front r) : (BodyReader.chunked r.toBody).Tidy := by
  cases h.holds with
  | nothing hempty =>
    rw [toBody_of_not_pending hempty]
    exact ⟨h.reached, fun w hw ↦ by cases hw⟩
  | window hstart hstop hle =>
    rw [toBody_of_pending hstart]
    refine ⟨h.reached, fun w hw ↦ ?_⟩
    cases hw
    exact ⟨hstart, hstop ▸ hle⟩

/-! ### Handing out -/

/-- Where there is a window, the octets to copy are in it. -/
theorem copyOut?_eq (h : Holds front r) (hr : r.Pending) (n : Nat) :
    r.copyOut? n = some ((r.unconsumed.octets r.source.buffered).take n,
      r.handOut (min n r.unconsumed.length)) := by
  cases h with
  | nothing hempty => exact absurd hr hempty
  | window hstart hstop hle =>
    have hin : r.unconsumed.start + min n r.unconsumed.length ≤ r.source.buffered.length := by
      rw [Window.length]
      omega
    rw [copyOut?, Checked.slice?_of_le (Nat.le_add_right _ _) hin, Option.map_some,
      List.drop_take, Nat.add_sub_cancel_left, Window.octets, List.take_take]

/-- To hand out is what the body does. -/
theorem toBody_handOut (h : Holds front r) (hr : r.Pending) (k : Nat) :
    (r.handOut k).toBody = r.toBody.after r.unconsumed k := by
  cases h with
  | nothing hempty => exact absurd hr hempty
  | window hstart hstop hle =>
    by_cases hk : (r.advance k).Pending
    · have hafter : r.toBody.after r.unconsumed k = _ := if_pos hk
      rw [handOut, if_pos hk, toBody_of_pending hk, hafter]
      rfl
    · have hempty : ¬(r.advance k).release.Pending := hk
      have hafter : r.toBody.after r.unconsumed k = _ := if_neg hk
      rw [handOut, if_neg hk, toBody_of_not_pending hempty, hafter, release,
        ReadAhead.toSource_consume, hstop]
      rfl

theorem decoder_handOut (r : WindowReader) (k : Nat) : (r.handOut k).decoder = r.decoder := by
  rw [handOut]
  split <;> rfl

theorem error?_handOut (r : WindowReader) (k : Nat) : (r.handOut k).error? = r.error? := by
  rw [handOut]
  split <;> rfl

/-- To hand out takes nothing from the transport. -/
theorem script_handOut (r : WindowReader) (k : Nat) :
    (r.handOut k).source.script = r.source.script := by
  rw [handOut]
  split
  · rfl
  · exact congrArg Source.script (r.source.toSource_consume r.lastParsed)

/-- To hand out does not ask the transport. -/
theorem reads_handOut (r : WindowReader) (k : Nat) :
    (r.handOut k).source.reads = r.source.reads := by
  rw [handOut]
  split
  · rfl
  · exact congrArg Source.reads (r.source.toSource_consume r.lastParsed)

/-- **To hand out** octets takes them out of the window, and with the last of them the window is
gone. -/
theorem Holds.handOut (h : Holds front r) (hr : r.Pending) (n : Nat) :
    Holds (handed front (.ok ((r.unconsumed.octets r.source.buffered).take n),
      r.handOut (min n r.unconsumed.length))) (r.handOut (min n r.unconsumed.length)) := by
  cases h with
  | nothing hempty => exact absurd hr hempty
  | window hstart hstop hle hfound =>
    have htake : (r.unconsumed.octets r.source.buffered).take n =
        (r.unconsumed.octets r.source.buffered).take (min n r.unconsumed.length) := by
      rw [Window.octets, List.take_take, List.take_take, Nat.min_assoc, Nat.min_self]
    by_cases hk : (r.advance (min n r.unconsumed.length)).Pending
    · rw [WindowReader.handOut, if_pos hk, handed_of_pending hk, htake]
      refine .window hk hstop hle ?_
      -- The buffer has not moved, so this is still the call that has found the data.
      rw [List.append_assoc, advance, ChunkedBody.octets_drop, List.take_append_drop]
      exact hfound
    · have hempty : ¬(r.advance (min n r.unconsumed.length)).release.Pending := hk
      rw [WindowReader.handOut, if_neg hk, handed_of_not_pending hempty]
      exact .nothing hempty rfl rfl

/-! ### Decoding -/

section Rounds

variable (hbuffer : r.source.buffered ≠ []) (hdone : r.decoder.done = false)
include hbuffer hdone

theorem not_isEmpty_or_done : ¬(r.source.buffered.isEmpty || r.decoder.done) = true := by
  simpa [hdone] using hbuffer

/-- A call that finds data leaves the loop with a window, if it has consumed as many octets as it
has found. -/
theorem consumeRound_of_data {window : Octets}
    (haction : (r.decoder.parse r.source.buffered).action = .data window) :
    r.consumeRound =
      (Checked.before? (r.decoder.parse r.source.buffered).consumed window.length).map fun start ↦
        .leave (r.hold (r.decoder.parse r.source.buffered) start) := by
  rw [consumeRound, if_neg (not_isEmpty_or_done hbuffer hdone)]
  simp only [haction]

/-- A call that fails leaves the loop with its error. -/
theorem consumeRound_of_error {e : ParseError}
    (haction : (r.decoder.parse r.source.buffered).action = .error e) :
    r.consumeRound =
      some (.leave { r.pass (r.decoder.parse r.source.buffered) with error? := some e }) := by
  rw [consumeRound, if_neg (not_isEmpty_or_done hbuffer hdone)]
  simp only [haction]

theorem consumeRound_of_none (haction : (r.decoder.parse r.source.buffered).action = .none) :
    r.consumeRound = some (.again (r.pass (r.decoder.parse r.source.buffered))) := by
  rw [consumeRound, if_neg (not_isEmpty_or_done hbuffer hdone)]
  simp only [haction]

end Rounds

/-- To pass over what a call has consumed is what the body does. -/
theorem toBody_pass (hr : ¬r.Pending) (d : ChunkedDecoder.Decoded) (e? : Option ParseError) :
    ({ r.pass d with error? := e? } : WindowReader).toBody = { r.toBody with
      source := r.source.toSource.consume d.consumed
      decoder := d.decoder } := by
  have hempty : ¬({ r.pass d with error? := e? } : WindowReader).Pending := hr
  rw [toBody_of_not_pending hr, toBody_of_not_pending hempty, WindowReader.pass,
    ReadAhead.toSource_consume]

section Calls

variable (h : Stands [] r) (hr : ¬r.Pending)
include h hr

/-- A call that finds no data leaves the reader without a window. -/
theorem Stands.pass {data : Octets} {e? : Option ParseError}
    (he : e? = (r.decoder.parse data).decoder.error?) :
    Stands [] { r.pass (r.decoder.parse data) with error? := e? } :=
  ⟨.nothing hr (h.holds.lastParsed_eq_zero hr) rfl, he, .parse h.reached data⟩

omit hr in
/-- A call that finds data leaves the reader with all of them in its window. -/
theorem Stands.hold (hdone : r.decoder.done = false) {window : Octets}
    (haction : (r.decoder.parse r.source.buffered).action = .data window) :
    Stands [] (r.hold (r.decoder.parse r.source.buffered)
      ((r.decoder.parse r.source.buffered).consumed - window.length)) := by
  obtain ⟨hne, hle, hwindow⟩ := h.reached.kept.lifeCycle.window r.source.buffered window haction
  refine ⟨.window ?_ rfl ?_ ?_, ?_, .parse h.reached _⟩
  · exact Nat.sub_lt_self (List.length_pos_iff.2 hne) hle
  · exact r.decoder.consumed_parse_le r.source.buffered
  · -- Data are the last octets consumed, so their number tells where in the buffer they begin.
    have hcall : r.decoder.parse r.source.buffered =
        ⟨_, _, (r.decoder.parse r.source.buffered).action⟩ := rfl
    refine ⟨r.decoder, h.reached, hcall.trans ?_⟩
    rw [haction, List.nil_append, Window.octets, Window.length, WindowReader.hold,
      Nat.sub_sub_self hle]
    exact congrArg _ (congrArg _ hwindow)
  · have hnone : (r.decoder.parse r.source.buffered).decoder.error? = none :=
      ChunkedDecoder.error?_parse_eq_none fun e he ↦ by cases haction.symm.trans he
    exact (h.error.trans (ChunkedDecoder.error?_of_not_done hdone)).trans hnone.symm

end Calls

/-- A reader between two calls of its decoder. -/
def Decoding (r : WindowReader) : Prop :=
  Stands [] r ∧ ¬r.Pending

/-- What a round of decoding does to a reader, it does to the `ChunkedBody` that the reader is. -/
abbrev MirrorsCall (r : WindowReader) : Prop :=
  Loop.Mirrors consumeRound ChunkedBody.consumeRound toBody toBody Decoding (Stands []) r

section Calls

variable (h : Stands [] r) (hr : ¬r.Pending) (hbuffer : r.source.buffered ≠ [])
  (hdone : r.decoder.done = false)
include h hbuffer hdone

/-- A call that finds data makes the window of the body: it has consumed at least what it found. -/
theorem mirrors_of_data {window : Octets}
    (haction : (r.decoder.parse r.source.buffered).action = .data window) : r.MirrorsCall := by
  obtain ⟨hne, hle, -⟩ := h.reached.kept.lifeCycle.window r.source.buffered window haction
  have hpending : (r.hold (r.decoder.parse r.source.buffered)
      ((r.decoder.parse r.source.buffered).consumed - window.length)).Pending :=
    Nat.sub_lt_self (List.length_pos_iff.2 hne) hle
  have hround := consumeRound_of_data hbuffer hdone haction
  have hseen : r.toBody.consumeRound = _ := ChunkedBody.consumeRound_of_ne_nil hbuffer hdone
  rw [Checked.before?_of_le hle] at hround
  rw [decoder_toBody, buffer_toBody, haction] at hseen
  refine .leave hround ?_ (h.hold hdone haction)
  rw [toBody_of_pending hpending]
  exact hseen

include hr

/-- A call that fails is mirrored with its error, which the body has from its decoder. -/
theorem mirrors_of_error {e : ParseError}
    (haction : (r.decoder.parse r.source.buffered).action = .error e) : r.MirrorsCall := by
  have he := ChunkedDecoder.error?_parse_eq_some_iff.2 haction
  have hseen : r.toBody.consumeRound = _ := ChunkedBody.consumeRound_of_ne_nil hbuffer hdone
  rw [decoder_toBody, buffer_toBody, haction] at hseen
  refine .leave (consumeRound_of_error hbuffer hdone haction) ?_ (h.pass hr he.symm)
  rw [toBody_pass hr]
  exact hseen

/-- A call that finds nothing is mirrored by another round. -/
theorem mirrors_of_none (haction : (r.decoder.parse r.source.buffered).action = .none) :
    r.MirrorsCall := by
  have herror : r.error? = none := h.error.trans (ChunkedDecoder.error?_of_not_done hdone)
  have he : (r.decoder.parse r.source.buffered).decoder.error? = none :=
    ChunkedDecoder.error?_parse_eq_none fun e he ↦ by cases haction.symm.trans he
  have hseen : r.toBody.consumeRound = _ := ChunkedBody.consumeRound_of_ne_nil hbuffer hdone
  rw [decoder_toBody, buffer_toBody, haction] at hseen
  refine .again (consumeRound_of_none hbuffer hdone haction) ?_
    ⟨h.pass hr (herror.trans he.symm), hr⟩
  exact hseen.trans (congrArg _ (congrArg _ (toBody_pass hr _ r.error?).symm))

end Calls

/-- **A round of decoding** what is buffered. -/
theorem mirrors_of_consume (h : r.Decoding) : r.MirrorsCall := by
  obtain ⟨h, hr⟩ := h
  by_cases hbuffer : r.source.buffered = []
  · have hstop : (r.source.buffered.isEmpty || r.decoder.done) = true := by simp [hbuffer]
    exact .leave (if_pos hstop) (if_pos hstop) h
  rcases Bool.eq_false_or_eq_true r.decoder.done with hdone | hdone
  · have hstop : (r.source.buffered.isEmpty || r.decoder.done) = true := by simp [hdone]
    exact .leave (if_pos hstop) (if_pos hstop) h
  cases haction : (r.decoder.parse r.source.buffered).action with
  | data window => exact mirrors_of_data h hbuffer hdone haction
  | error e => exact mirrors_of_error h hr hbuffer hdone haction
  | none => exact mirrors_of_none h hr hbuffer hdone haction

/-- **What is buffered is decoded** as that of the `ChunkedBody` is. -/
theorem exists_consumeWithin (h : r.Decoding) {rounds : Nat}
    (hrounds : r.source.buffered.length < rounds) :
    ∃ r', consumeWithin rounds r = some r' ∧ Stands [] r' ∧
      ChunkedBody.consumeWithin rounds r.toBody = some r'.toBody ∧
        ChunkedBody.Consumed r.toBody r'.toBody := by
  have hwindow : r.toBody.window? = none := by rw [toBody_of_not_pending h.2]
  obtain ⟨c, hc, hconsumed⟩ := ChunkedBody.exists_consumeWithin h.1.tidy hwindow hrounds
  obtain ⟨r', hr', rfl, hstands⟩ :=
    Loop.exists_within_of_mirrors (fun _ ↦ mirrors_of_consume) h hc
  exact ⟨r', hr', hstands, hc, hconsumed⟩

/-! ### Filling and decoding -/

section Rounds

variable {rounds : Nat} {b : ReadAhead}

/-- A round with a window hands out of it. -/
theorem readRound_of_pending (h : Holds front r) (hr : r.Pending) :
    readRound rounds n r = some (.leave (.ok ((r.unconsumed.octets r.source.buffered).take n),
      r.handOut (min n r.unconsumed.length))) := by
  rw [readRound, if_pos hr, copyOut?_eq h hr, Option.map_some]

variable (hr : ¬r.Pending)
include hr

theorem readRound_of_error {e : ParseError} (herror : r.error? = some e) :
    readRound rounds n r = some (.leave (.error (.parse e), r)) := by
  simp only [readRound, if_neg hr, herror]

variable (herror : r.error? = none)
include herror

theorem readRound_of_done (hdone : r.decoder.done = true) :
    readRound rounds n r = some (.leave (.error .eof, r)) := by
  simp only [readRound, if_neg hr, herror, if_pos hdone]

variable (hdone : r.decoder.done = false)
include hdone

theorem readRound_of_failed {cause : Failure}
    (hsupply : r.source.supply r.bufferSize = (.failed cause, b)) :
    readRound rounds n r =
      some (.leave (.error (.transport cause), { r with source := b })) := by
  simp only [readRound, if_neg hr, herror, hdone, Bool.false_eq_true, if_false, hsupply]

theorem readRound_of_ended (hsupply : r.source.supply r.bufferSize = (.ended, b)) :
    readRound rounds n r = some (.leave (.error .unexpectedEof, { r with source := b })) := by
  simp only [readRound, if_neg hr, herror, hdone, Bool.false_eq_true, if_false, hsupply]

theorem readRound_of_ready (hsupply : r.source.supply r.bufferSize = (.ready, b)) :
    readRound rounds n r = (consumeWithin rounds { r with source := b }).map .again := by
  simp only [readRound, if_neg hr, herror, hdone, Bool.false_eq_true, if_false, hsupply]

end Rounds

/-- Without a window, the source may be replaced: nothing points into its buffer. -/
theorem Stands.of_source (h : Stands [] r) (hr : ¬r.Pending) (b : ReadAhead) :
    Stands [] { r with source := b } :=
  ⟨.nothing hr (h.holds.lastParsed_eq_zero hr) rfl, h.error, h.reached⟩

/-- The body then has that source, too. -/
theorem toBody_of_source (hr : ¬r.Pending) (b : ReadAhead) :
    ({ r with source := b } : WindowReader).toBody = { r.toBody with source := b.toSource } := by
  have hempty : ¬({ r with source := b } : WindowReader).Pending := hr
  rw [toBody_of_not_pending hempty, toBody_of_not_pending hr]

/-- What is supplied to the reader is supplied to the body. -/
theorem supply_toBody (r : WindowReader) {supplied : Source.Supply} {b : ReadAhead}
    (h : r.source.supply r.bufferSize = (supplied, b)) :
    r.toBody.source.supply r.toBody.bufferSize = (supplied, b.toSource) := by
  have hsupply := r.source.toSource_supply r.bufferSize
  rw [h] at hsupply
  exact hsupply

theorem Stands.handed (h : Stands [] r) (hr : ¬r.Pending) (result : Except ReadError Octets) :
    Stands (handed front (result, r)) r := by
  rw [handed_of_not_pending hr]
  exact h

/-- To hand out keeps all that is known of a reader. -/
theorem Stands.handOut (h : Stands front r) (hr : r.Pending) (n : Nat) :
    Stands (WindowReader.handed front (.ok ((r.unconsumed.octets r.source.buffered).take n),
      r.handOut (min n r.unconsumed.length))) (r.handOut (min n r.unconsumed.length)) where
  holds := h.holds.handOut hr n
  error := by rw [error?_handOut, decoder_handOut, h.error]
  reached := by
    rw [decoder_handOut]
    exact h.reached

/-- What is true of a read in so many rounds, between two of them. -/
structure Reading (rounds : Nat) (front : Octets) (r : WindowReader) : Prop extends
    Stands front r where
  stream : r.toBody.source.stream.length < rounds

/-- What a round of a read does to a reader, it does to the `ChunkedBody` that the reader is. -/
abbrev MirrorsRead (rounds n : Nat) (front : Octets) (r : WindowReader) : Prop :=
  Loop.Mirrors (readRound rounds n) (ChunkedBody.readRound rounds n) toBody
    (fun read ↦ (read.1, read.2.toBody)) (Reading rounds front)
    (fun read ↦ Stands (handed front read) read.2) r

/-- A round in which octets are there, be they buffered before or not. -/
theorem mirrors_of_ready {rounds : Nat} {b : ReadAhead} (h : Reading rounds [] r)
    (hr : ¬r.Pending) (herror : r.error? = none) (hdone : r.decoder.done = false)
    (hsupply : r.source.supply r.bufferSize = (.ready, b)) (n : Nat) :
    MirrorsRead rounds n [] r := by
  have hwindow : r.toBody.window? = none := by rw [toBody_of_not_pending hr]
  have hstage : r.toBody.decoder.draft.stage = .reading := ChunkedBody.stage_of_not_done hdone
  have hbody := toBody_of_source hr b
  have hstream : b.toSource.stream = r.toBody.source.stream :=
    Source.stream_of_supply (supply_toBody r hsupply)
  have hlength : b.buffered.length < rounds :=
    Nat.lt_of_le_of_lt (hstream ▸ b.toSource.length_buffer_le) h.stream
  obtain ⟨r', hr', hstands, hwithin, hconsumed⟩ :=
    exists_consumeWithin (r := { r with source := b }) ⟨h.of_source hr b, hr⟩ hlength
  rw [hbody] at hwithin hconsumed
  have hround : readRound rounds n r = some (.again r') := by
    rw [readRound_of_ready hr herror hdone hsupply, hr', Option.map_some]
  refine .again hround ?_ ⟨hstands, ?_⟩
  · rw [ChunkedBody.readRound_of_ready hwindow hstage (supply_toBody r hsupply), hwithin,
      Option.map_some]
  · exact Nat.lt_of_le_of_lt hconsumed.length_stream_le (hstream ▸ h.stream)

/-- **A round of a read**, which hands out, or fills and decodes. -/
theorem mirrors_of_read {rounds : Nat} (h : Reading rounds front r) (n : Nat) :
    MirrorsRead rounds n front r := by
  by_cases hr : r.Pending
  · have hwindow : r.toBody.window? = some r.unconsumed := by rw [toBody_of_pending hr]
    refine .leave (readRound_of_pending h.holds hr) ?_ (h.handOut hr n)
    rw [toBody_handOut h.holds hr]
    exact ChunkedBody.readRound_of_window hwindow hr
  have hwindow : r.toBody.window? = none := by rw [toBody_of_not_pending hr]
  -- Without a window nothing was handed out of one.
  obtain rfl : front = [] := h.holds.front_eq_nil hr
  cases hstage : r.decoder.draft.stage with
  | failed e =>
    have herror : r.error? = some e := by rw [h.error, ChunkedDecoder.error?, hstage]
    exact .leave (readRound_of_error hr herror) (ChunkedBody.readRound_of_error hwindow hstage)
      (h.toStands.handed hr _)
  | complete =>
    have herror : r.error? = none := by rw [h.error, ChunkedDecoder.error?, hstage]
    have hdone : r.decoder.done = true := by rw [ChunkedDecoder.done, hstage]
    exact .leave (readRound_of_done hr herror hdone)
      (ChunkedBody.readRound_of_complete hwindow hstage) (h.toStands.handed hr _)
  | reading =>
    have herror : r.error? = none := by rw [h.error, ChunkedDecoder.error?, hstage]
    have hdone : r.decoder.done = false := by rw [ChunkedDecoder.done, hstage]
    rcases hsupply : r.source.supply r.bufferSize with ⟨_ | _ | cause, b⟩
    · exact mirrors_of_ready h hr herror hdone hsupply n
    · refine .leave (readRound_of_ended hr herror hdone hsupply) ?_
        ((h.of_source hr b).handed hr _)
      rw [toBody_of_source hr]
      exact ChunkedBody.readRound_of_ended hwindow hstage (supply_toBody r hsupply)
    · refine .leave (readRound_of_failed hr herror hdone hsupply) ?_
        ((h.of_source hr b).handed hr _)
      rw [toBody_of_source hr]
      exact ChunkedBody.readRound_of_failed hwindow hstage (supply_toBody r hsupply)

/-- **A read has a result**, which is that of the `ChunkedBody` that the reader is. -/
theorem exists_readSome? (h : Stands front r) (n : Nat) :
    ∃ r', r.readSome? n = some ((r.toBody.readSome n).1, r') ∧
      r'.toBody = (r.toBody.readSome n).2 ∧
        Stands (handed front ((r.toBody.readSome n).1, r')) r' := by
  by_cases hn : n = 0
  · -- To ask for nothing does not even look at the window.
    have hread : r.toBody.readSome n = (.ok [], r.toBody) := if_pos hn
    rw [hread, readSome?, if_pos hn]
    refine ⟨r, rfl, rfl, ?_⟩
    by_cases hr : r.Pending
    · rw [handed_of_pending hr, List.append_nil]
      exact h
    · obtain rfl : front = [] := h.holds.front_eq_nil hr
      exact h.handed hr _
  · have hle := r.toBody.source.length_stream_le
    have hrounds : r.toBody.source.stream.length + 1 < r.rounds := by
      rw [rounds]
      exact Nat.succ_lt_succ (Nat.lt_succ_of_le hle)
    have hwithin := ChunkedBody.readSomeWithin_eq h.tidy n hrounds
    rw [ChunkedBody.readSomeWithin, if_neg hn] at hwithin
    obtain ⟨⟨result, r'⟩, hr', hseen, hstands⟩ := Loop.exists_within_of_mirrors
      (fun _ h ↦ mirrors_of_read h n) ⟨h, Nat.lt_of_succ_lt hrounds⟩ hwithin
    rw [← hseen, readSome?, if_neg hn]
    exact ⟨r', hr', rfl, hstands⟩

/-! ### All reads -/

/-- A reader after some reads, and what these have handed out of its window. -/
structure Reached where
  reader : WindowReader
  front : Octets

def read? (a : Reached) (n : Nat) : Checked Reached :=
  (a.reader.readSome? n).map fun read ↦ ⟨read.2, handed a.front read⟩

/-- Reads one after the other. -/
def reads? (a : Reached) (sizes : List Nat) : Checked Reached :=
  sizes.foldlM read? a

/-- A reader is safe to go on with. The next read has a result. In each round of it the window
holds. Where there is a window, the round hands out of it, and asks neither the decoder nor the
transport. Where there is none, there is none before any call of the decoder either. -/
structure Safe (a : Reached) : Prop where
  holds : Holds a.front a.reader
  readSome : ∀ n, ∃ r, a.reader.readSome? n = some ((a.reader.toBody.readSome n).1, r) ∧
    r.toBody = (a.reader.toBody.readSome n).2
  round : ∀ n r, Loop.Visits (readRound a.reader.rounds n) a.reader r →
    Holds a.front r ∧ readRound a.reader.rounds n r ≠ none
  pending : ∀ n r, Loop.Visits (readRound a.reader.rounds n) a.reader r → r.Pending →
    ∃ r', readRound a.reader.rounds n r =
        some (.leave (.ok ((r.unconsumed.octets r.source.buffered).take n), r')) ∧
      r'.decoder = r.decoder ∧ r'.source.script = r.source.script ∧
        r'.source.reads = r.source.reads
  decoding : ∀ n r b, Loop.Visits (readRound a.reader.rounds n) a.reader r → ¬r.Pending →
    r.source.supply r.bufferSize = (.ready, b) →
      ∀ r', Loop.Visits consumeRound { r with source := b } r' →
        ¬r'.Pending ∧ r'.lastParsed = 0 ∧ consumeRound r' ≠ none

theorem stands_new (options : ReadOptions) (b : ReadAhead) : Stands [] (new options b) where
  holds := .nothing (Nat.lt_irrefl 0) rfl rfl
  error := rfl
  reached := .new options.limits

/-- **Reads keep what is true of the window.** -/
theorem exists_reads? {a : Reached} (ha : Stands a.front a.reader) (sizes : List Nat) :
    ∃ a', reads? a sizes = some a' ∧ Stands a'.front a'.reader := by
  induction sizes generalizing a with
  | nil => exact ⟨a, rfl, ha⟩
  | cons n sizes ih =>
    obtain ⟨r, hr, -, hstands⟩ := exists_readSome? ha n
    have hread : read? a n = some ⟨r, _⟩ := congrArg (Option.map _) hr
    rw [reads?, List.foldlM_cons, hread]
    exact ih hstands

theorem Stands.reading (h : Stands front r) : Reading r.rounds front r :=
  ⟨h, Nat.lt_succ_of_lt (Nat.lt_succ_of_le r.toBody.source.length_stream_le)⟩

/-- What is known between reads is enough for all that is promised of the next. -/
theorem safe_of_stands {a : Reached} (ha : Stands a.front a.reader) : Safe a := by
  have hvisits (n : Nat) (r : WindowReader)
      (h : Loop.Visits (readRound a.reader.rounds n) a.reader r) :
      Reading a.reader.rounds a.front r :=
    Loop.inv_of_visits (fun h ↦ (mirrors_of_read h n).inv_of_again) ha.reading h
  refine ⟨ha.holds, fun n ↦ ?_, fun n r h ↦ ⟨(hvisits n r h).holds, ?_⟩, fun n r h hr ↦ ?_,
    fun n r b h hr _ r' h' ↦ ?_⟩
  · obtain ⟨r, hr, hbody, -⟩ := exists_readSome? ha n
    exact ⟨r, hr, hbody⟩
  · exact (mirrors_of_read (hvisits n r h) n).ne_none
  · exact ⟨_, readRound_of_pending (hvisits n r h).holds hr, decoder_handOut r _,
      script_handOut r _, reads_handOut r _⟩
  · have hfront : a.front = [] := (hvisits n r h).holds.front_eq_nil hr
    have hstands : Stands [] r := hfront ▸ (hvisits n r h).toStands
    have hdecoding : Decoding r' :=
      Loop.inv_of_visits (fun h ↦ (mirrors_of_consume h).inv_of_again)
        ⟨hstands.of_source hr b, hr⟩ h'
    exact ⟨hdecoding.2, hdecoding.1.holds.lastParsed_eq_zero hdecoding.2,
      (mirrors_of_consume hdecoding).ne_none⟩

/-- **The window always holds.** However much is asked for, however often and whatever the transport
does, all reads have a result, and the reader is safe to go on with. -/
theorem safe_of_reads (options : ReadOptions) (b : ReadAhead) (sizes : List Nat) :
    ∃ a, reads? ⟨new options b, []⟩ sizes = some a ∧ Safe a := by
  obtain ⟨a, ha, hstands⟩ := exists_reads? (a := ⟨new options b, []⟩) (stands_new options b) sizes
  exact ⟨a, ha, safe_of_stands hstands⟩

/-- A chunk of three octets, of which two are handed out one by one. -/
example :
    (reads? ⟨new .standard (.ofScript [.octets [0x33, 0x0A, 0x61, 0x62, 0x63, 0x0A]]), []⟩
      [1, 1]).map (fun a ↦ (a.reader.unconsumed, a.reader.lastParsed, a.front)) =
        some (⟨4, 5⟩, 5, [0x61, 0x62]) := by
  decide +kernel

end WindowReader

end HttpFraming
