import HttpFraming.Proofs.Stream.Bound
import HttpFraming.Proofs.Stream.Chunked
import HttpFraming.Proofs.Stream.Disturbance
import HttpFraming.Proofs.Stream.Progress

/-!
# What a read comes to

One read of a body, case by case: what it returns and what it leaves, given what the source has. No
assumption is made on the transport. The other modules on bodies go by these equations, and unfold
none of the readers.

## The cases

* A body of a known length, and one that ends with the connection, have as many equations as there
  are answers of the source, and one more for a reader that is at its end. What they hand out is
  told as a number of octets by which the reader advances (`BoundBody.advance`,
  `UntilEofBody.advance`), and to advance twice is to advance once by both.
* A chunked body hands out of its window, if it has one (`readSome_of_window`), and says what stage
  its decoder is in, if that is done. Otherwise it is decoded in rounds, each of which is one call
  of the decoder. `ChunkedBody.Round` has the six things that a round can come to, and only the last
  of them (`Round.more`) goes on to another round.

What is said of all rounds is said by recursion on what the source can still deliver, since a round
that goes on has taken something of it (`total_called_lt`). A proof of this kind has one line for
each case of `Round`, and calls itself in the last.

## Failures of the transport

A transport that fails has used up the failure (`BodyReader.rank_lt_of_transport`), so that whoever
goes on reading comes to an end, too. Where a read fails with the transport, the reader was asking
it, and had nothing to hand out (`BodyReader.Fails`).
-/

namespace HttpFraming

namespace Source

theorem consume_consume (s : Source) (m n : Nat) : (s.consume m).consume n = s.consume (m + n) := by
  simp only [consume, List.drop_drop]

end Source

/-! ### Bodies of a known length -/

namespace BoundBody

variable {r : BoundBody} {n : Nat}

/-- The octets of the body that are buffered. -/
def ready (r : BoundBody) : Octets :=
  r.source.buffer.take r.remaining

theorem advance_advance (r : BoundBody) (m n : Nat) :
    (r.advance m).advance n = r.advance (m + n) := by
  simp only [advance, Source.consume_consume, Nat.add_assoc]

theorem ready_advance (r : BoundBody) (k : Nat) : (r.advance k).ready = r.ready.drop k := by
  rw [ready, ready, remaining_advance, List.drop_take]
  rfl

section Equations

/-- At its length the body ends, and the source is not looked at. -/
theorem readSome_of_le (hlength : r.length ≤ r.totalRead) (hn : n ≠ 0) :
    r.readSome n = (.error .eof, r) := by
  rw [readSome, if_neg hn, if_pos hlength]

variable {s : Source} (hlength : ¬ r.length ≤ r.totalRead) (hn : n ≠ 0)
include hlength hn

/-- A failure of the transport is returned. -/
theorem readSome_of_failed {cause : Failure}
    (hsupply : r.source.supply r.bufferSize = (.failed cause, s)) :
    r.readSome n = (.error (.transport cause), { r with source := s }) := by
  rw [readSome, if_neg hn, if_neg hlength, hsupply]

/-- An end before the length is not expected. -/
theorem readSome_of_ended (hsupply : r.source.supply r.bufferSize = (.ended, s)) :
    r.readSome n = (.error .unexpectedEof, { r with source := s }) := by
  rw [readSome, if_neg hn, if_neg hlength, hsupply]

/-- What is buffered of the body is handed out. -/
theorem readSome_of_supply (hsupply : r.source.supply r.bufferSize = (.ready, s)) :
    r.readSome n = (.ok (({ r with source := s } : BoundBody).ready.take n),
      ({ r with source := s } : BoundBody).advance
        (min n ({ r with source := s } : BoundBody).ready.length)) := by
  have htake : s.buffer.take (min n r.remaining) =
      ({ r with source := s } : BoundBody).ready.take n := List.take_take.symm
  have hremaining : ({ r with source := s } : BoundBody).remaining = r.remaining := rfl
  rw [readSome, if_neg hn, if_neg hlength, hsupply]
  simp only [handOut, hremaining, htake, List.length_take]
  rfl

end Equations

/-- Where some of the body is buffered, that is handed out. -/
theorem readSome_of_ready (hready : r.ready ≠ []) (hn : n ≠ 0) :
    r.readSome n = (.ok (r.ready.take n), r.advance (min n r.ready.length)) := by
  obtain ⟨hremaining, hbuffer⟩ : r.remaining ≠ 0 ∧ r.source.buffer ≠ [] := by
    simpa [ready] using hready
  have hlength : ¬ r.length ≤ r.totalRead := fun h ↦ hremaining (Nat.sub_eq_zero_of_le h)
  exact readSome_of_supply hlength hn (Source.supply_of_ne_nil hbuffer)

/-- A read fails with the transport only where the source was asked and failed. -/
theorem supply_of_transport {r' : BoundBody} {cause : Failure}
    (h : r.readSome n = (.error (.transport cause), r')) :
    ∃ s, r.source.supply r.bufferSize = (.failed cause, s) ∧ r' = { r with source := s } := by
  by_cases hn : n = 0
  · rw [readSome, if_pos hn] at h
    cases h
  by_cases hlength : r.length ≤ r.totalRead
  · cases (readSome_of_le hlength hn).symm.trans h
  rcases hsupply : r.source.supply r.bufferSize with ⟨_ | _ | _, s⟩
  · cases (readSome_of_supply hlength hn hsupply).symm.trans h
  · cases (readSome_of_ended hlength hn hsupply).symm.trans h
  · cases (readSome_of_failed hlength hn hsupply).symm.trans h
    exact ⟨s, rfl, rfl⟩

end BoundBody

/-! ### Bodies that end with the connection -/

namespace UntilEofBody

variable {r : UntilEofBody} {n : Nat}

/-- A reader that has handed out `k` octets more. -/
def advance (r : UntilEofBody) (k : Nat) : UntilEofBody :=
  { r with source := r.source.consume k }

theorem advance_advance (r : UntilEofBody) (m n : Nat) :
    (r.advance m).advance n = r.advance (m + n) := by
  simp only [advance, Source.consume_consume]

section Equations

/-- A reader that has seen the end does not look at the source again. -/
theorem readSome_of_finished (hend : r.finished = true) (hn : n ≠ 0) :
    r.readSome n = (.error .eof, r) := by
  rw [readSome, if_neg hn, if_pos hend]

variable {s : Source} (hopen : r.finished = false) (hn : n ≠ 0)
include hopen hn

/-- A failure of the transport is returned, and is not an end. -/
theorem readSome_of_failed {cause : Failure}
    (hsupply : r.source.supply r.bufferSize = (.failed cause, s)) :
    r.readSome n = (.error (.transport cause), { r with source := s }) := by
  rw [readSome, if_neg hn, if_neg (Bool.eq_false_iff.1 hopen), hsupply]

/-- The end of the transport is the end of the body, and is remembered. -/
theorem readSome_of_ended (hsupply : r.source.supply r.bufferSize = (.ended, s)) :
    r.readSome n = (.error .eof, { r with source := s, finished := true }) := by
  rw [readSome, if_neg hn, if_neg (Bool.eq_false_iff.1 hopen), hsupply]

/-- What is buffered is handed out. -/
theorem readSome_of_supply (hsupply : r.source.supply r.bufferSize = (.ready, s)) :
    r.readSome n = (.ok (s.buffer.take n),
      ({ r with source := s } : UntilEofBody).advance (min n s.buffer.length)) := by
  rw [readSome, if_neg hn, if_neg (Bool.eq_false_iff.1 hopen), hsupply]
  simp only [handOut, List.length_take]
  rfl

end Equations

/-- A read fails with the transport only where the source was asked and failed. -/
theorem supply_of_transport {r' : UntilEofBody} {cause : Failure}
    (h : r.readSome n = (.error (.transport cause), r')) :
    ∃ s, r.source.supply r.bufferSize = (.failed cause, s) ∧ r' = { r with source := s } := by
  by_cases hn : n = 0
  · rw [readSome, if_pos hn] at h
    cases h
  rcases Bool.eq_false_or_eq_true r.finished with hend | hopen
  · cases (readSome_of_finished hend hn).symm.trans h
  rcases hsupply : r.source.supply r.bufferSize with ⟨_ | _ | _, s⟩
  · cases (readSome_of_supply hopen hn hsupply).symm.trans h
  · cases (readSome_of_ended hopen hn hsupply).symm.trans h
  · cases (readSome_of_failed hopen hn hsupply).symm.trans h
    exact ⟨s, rfl, rfl⟩

end UntilEofBody

/-! ### Bodies in chunks -/

namespace ChunkedBody

variable {r r' : ChunkedBody} {w : Window} {n : Nat} {cause : Failure}

/-- A reader that has handed out `k` octets of a window. -/
def after (r : ChunkedBody) (w : Window) (k : Nat) : ChunkedBody :=
  if w.start + k < w.stop then { r with window? := some ⟨w.start + k, w.stop⟩ }
  else { r with source := r.source.consume w.stop, window? := none }

theorem handOut_eq (r : ChunkedBody) (w : Window) (n : Nat) :
    r.handOut w n = ((w.octets r.source.buffer).take n, r.after w (min n w.length)) := rfl

theorem after_after (r : ChunkedBody) (w : Window) (k n : Nat) :
    ({ r with window? := some ⟨w.start + k, w.stop⟩ } : ChunkedBody).after ⟨w.start + k, w.stop⟩ n =
      r.after w (k + n) := by
  simp only [after, Nat.add_assoc]

theorem readSome_of_window (hw : r.window? = some w) (hn : n ≠ 0) :
    r.readSome n = (.ok ((w.octets r.source.buffer).take n), r.after w (min n w.length)) := by
  simp only [readSome, if_neg hn, hw, handOut_eq]

theorem readSome_of_reading (hwindow : r.window? = none)
    (hstage : r.decoder.draft.stage = .reading) (hn : n ≠ 0) : r.readSome n = r.decode n := by
  simp only [readSome, if_neg hn, hwindow, hstage]

/-- A reader whose body is complete says so, and keeps saying it. -/
theorem readSome_of_complete (hwindow : r.window? = none)
    (hstage : r.decoder.draft.stage = .complete) (hn : n ≠ 0) :
    r.readSome n = (.error .eof, r) := by
  simp only [readSome, if_neg hn, hwindow, hstage]

/-- A reader whose body was found to be malformed returns the error again. -/
theorem readSome_of_error {e : ParseError} (hwindow : r.window? = none)
    (hstage : r.decoder.draft.stage = .failed e) (hn : n ≠ 0) :
    r.readSome n = (.error (.parse e), r) := by
  simp only [readSome, if_neg hn, hwindow, hstage]

/-! ### Rounds of decoding -/

/-- The reader after a call of its decoder over what is buffered in a source. -/
def called (r : ChunkedBody) (s : Source) : ChunkedBody :=
  { r with
    source := s.consume (r.decoder.parse s.buffer).consumed
    decoder := (r.decoder.parse s.buffer).decoder }

/-- The reader after such a call, with all of the buffer kept. -/
def found (r : ChunkedBody) (s : Source) : ChunkedBody :=
  { r with source := s, decoder := (r.decoder.parse s.buffer).decoder }

/-- The rest of a round, given what the call of its decoder over a source hands out. -/
def endRound (r : ChunkedBody) (s : Source) (n : Nat) :
    ChunkedAction → Except ReadError Octets × ChunkedBody
  | .data window =>
    (.ok ((r.found s).handOut ⟨(r.decoder.parse s.buffer).consumed - window.length,
      (r.decoder.parse s.buffer).consumed⟩ n).1,
      ((r.found s).handOut ⟨(r.decoder.parse s.buffer).consumed - window.length,
        (r.decoder.parse s.buffer).consumed⟩ n).2)
  | .error e => (.error (.parse e), r.called s)
  | .none => if (r.called s).decoder.done then (.error .eof, r.called s) else (r.called s).decode n

section Equations

variable {s : Source}

/-- A round that finds the transport failing returns the failure. -/
theorem decode_of_failed (hsupply : r.source.supply r.bufferSize = (.failed cause, s)) (n : Nat) :
    r.decode n = (.error (.transport cause), { r with source := s }) := by
  rw [decode]
  split
  · rename_i heq
    cases hsupply.symm.trans heq
    rfl
  · rename_i heq
    cases hsupply.symm.trans heq
  · rename_i heq
    cases hsupply.symm.trans heq

/-- A round that finds the connection at its end, within the body, did not expect it. -/
theorem decode_of_ended (hsupply : r.source.supply r.bufferSize = (.ended, s)) (n : Nat) :
    r.decode n = (.error .unexpectedEof, { r with source := s }) := by
  rw [decode]
  split
  · rename_i heq
    cases hsupply.symm.trans heq
  · rename_i heq
    cases hsupply.symm.trans heq
    rfl
  · rename_i heq
    cases hsupply.symm.trans heq

variable (hsupply : r.source.supply r.bufferSize = (.ready, s))
include hsupply

/-- With something buffered, the decoder is called, and the round does what the call asks for. -/
theorem decode_of_ready (n : Nat) :
    r.decode n = r.endRound s n (r.decoder.parse s.buffer).action := by
  rw [decode]
  split
  · rename_i heq
    cases hsupply.symm.trans heq
  · rename_i heq
    cases hsupply.symm.trans heq
  · rename_i heq
    cases hsupply.symm.trans heq
    simp only
    split
    · rename_i haction
      rw [haction]
      rfl
    · rename_i haction
      rw [haction]
      rfl
    · rename_i haction
      rw [haction]
      rfl

/-- A call that finds data hands out of its window. -/
theorem decode_of_data {window : Octets}
    (haction : (r.decoder.parse s.buffer).action = .data window)
    (hw : w = ⟨(r.decoder.parse s.buffer).consumed - window.length,
      (r.decoder.parse s.buffer).consumed⟩) (n : Nat) :
    r.decode n =
      (.ok ((w.octets s.buffer).take n), (r.found s).after w (min n w.length)) := by
  rw [decode_of_ready hsupply, haction, endRound, handOut_eq, hw]
  rfl

theorem decode_of_error {e : ParseError} (haction : (r.decoder.parse s.buffer).action = .error e)
    (n : Nat) : r.decode n = (.error (.parse e), r.called s) := by
  rw [decode_of_ready hsupply, haction, endRound]

variable (haction : (r.decoder.parse s.buffer).action = .none)
include haction

theorem decode_of_done (hdone : (r.called s).decoder.done = true) (n : Nat) :
    r.decode n = (.error .eof, r.called s) := by
  rw [decode_of_ready hsupply, haction, endRound, if_pos hdone]

/-- A call that finds nothing is followed by another. -/
theorem decode_of_not_done (hdone : (r.called s).decoder.done = false) (n : Nat) :
    r.decode n = (r.called s).decode n := by
  rw [decode_of_ready hsupply, haction, endRound, if_neg (Bool.eq_false_iff.1 hdone)]

end Equations

/-- **What a round of decoding can come to**: the source has nothing to decode, or the decoder is
called once. -/
inductive Round (r : ChunkedBody) : Prop
  | failed {cause : Failure} {s : Source}
    (supply : r.source.supply r.bufferSize = (.failed cause, s))
  | ended {s : Source} (supply : r.source.supply r.bufferSize = (.ended, s))
  | data {s : Source} {window : Octets} (supply : r.source.supply r.bufferSize = (.ready, s))
    (action : (r.decoder.parse s.buffer).action = .data window)
  | refused {s : Source} {e : ParseError} (supply : r.source.supply r.bufferSize = (.ready, s))
    (action : (r.decoder.parse s.buffer).action = .error e)
  | complete {s : Source} (supply : r.source.supply r.bufferSize = (.ready, s))
    (action : (r.decoder.parse s.buffer).action = .none)
    (done : (r.called s).decoder.done = true)
  | more {s : Source} (supply : r.source.supply r.bufferSize = (.ready, s))
    (action : (r.decoder.parse s.buffer).action = .none)
    (not_done : (r.called s).decoder.done = false)

/-- Every round is one of these. -/
theorem round (r : ChunkedBody) : Round r := by
  rcases hsupply : r.source.supply r.bufferSize with ⟨_ | _ | cause, s⟩
  · cases haction : (r.decoder.parse s.buffer).action with
    | none =>
      cases hdone : (r.called s).decoder.done with
      | true => exact .complete hsupply haction hdone
      | false => exact .more hsupply haction hdone
    | data window => exact .data hsupply haction
    | error e => exact .refused hsupply haction
  · exact .ended hsupply
  · exact .failed hsupply

/-- A round that goes on leaves less in the source. -/
theorem total_called_lt {s : Source} (hsupply : r.source.supply r.bufferSize = (.ready, s))
    (haction : (r.decoder.parse s.buffer).action = .none) :
    (r.called s).source.total < r.source.total := by
  have hbuffer : s.buffer ≠ [] := Source.buffer_ne_nil_of_supply hsupply
  have hpos : 0 < (r.decoder.parse s.buffer).consumed :=
    ChunkedDecoder.parse_progress r.decoder hbuffer fun e he ↦ by cases haction.symm.trans he
  have hle : (r.decoder.parse s.buffer).consumed ≤ s.buffer.length :=
    ChunkedDecoder.consumed_parse_le r.decoder s.buffer
  have htotal : s.total ≤ r.source.total := Source.total_le_of_supply hsupply
  have hbuffered : s.buffer.length ≤ s.total := Nat.le_add_left _ _
  have hcalled : (r.called s).source.total = _ := Source.total_consume s _
  omega

/-- Decoding fails with the transport in this round, or goes on and does so later. -/
theorem round_of_transport (h : r.decode n = (.error (.transport cause), r')) :
    (∃ s, r.source.supply r.bufferSize = (.failed cause, s) ∧ r' = { r with source := s }) ∨
      ∃ s, r.source.supply r.bufferSize = (.ready, s) ∧
        (r.decoder.parse s.buffer).action = .none ∧ (r.called s).decoder.done = false ∧
          (r.called s).decode n = (.error (.transport cause), r') := by
  cases r.round with
  | @failed cause s hsupply =>
    cases (decode_of_failed hsupply n).symm.trans h
    exact .inl ⟨s, hsupply, rfl⟩
  | ended hsupply => cases (decode_of_ended hsupply n).symm.trans h
  | data hsupply haction => cases (decode_of_data hsupply haction rfl n).symm.trans h
  | refused hsupply haction => cases (decode_of_error hsupply haction n).symm.trans h
  | complete hsupply haction hdone => cases (decode_of_done hsupply haction hdone n).symm.trans h
  | @more s hsupply haction hdone =>
    rw [decode_of_not_done hsupply haction hdone] at h
    exact .inr ⟨s, hsupply, haction, hdone, h⟩

/-- Where decoding fails with the transport, the failure is used up. -/
theorem total_lt_of_decode (r : ChunkedBody) (hwindow : r.window? = none)
    (h : r.decode n = (.error (.transport cause), r')) :
    r'.window? = none ∧ r'.source.total < r.source.total := by
  rcases round_of_transport h with ⟨s, hsupply, rfl⟩ | ⟨s, hsupply, haction, -, hlater⟩
  · exact ⟨hwindow, Source.total_lt_of_failed hsupply⟩
  · have hlt : (r.called s).source.total < r.source.total := total_called_lt hsupply haction
    obtain ⟨hwindow', hlt'⟩ := total_lt_of_decode (r.called s) hwindow hlater
    exact ⟨hwindow', Nat.lt_trans hlt' hlt⟩
termination_by r.source.total

/-- Where the transport fails, the reader was decoding. -/
theorem decode_of_transport
    (h : r.readSome n = (.error (.transport cause), r')) :
    r.window? = none ∧ r.decoder.done = false ∧ r.decode n = (.error (.transport cause), r') := by
  by_cases hn : n = 0
  · rw [readSome, if_pos hn] at h
    cases h
  rcases Option.eq_none_or_eq_some r.window? with hwindow | ⟨w, hw⟩
  · cases hstage : r.decoder.draft.stage with
    | reading =>
      rw [readSome_of_reading hwindow hstage hn] at h
      exact ⟨hwindow, by rw [ChunkedDecoder.done, hstage], h⟩
    | complete => cases (readSome_of_complete hwindow hstage hn).symm.trans h
    | failed e => cases (readSome_of_error hwindow hstage hn).symm.trans h
  · cases (readSome_of_window hw hn).symm.trans h

end ChunkedBody

/-! ### Readers of any framing -/

namespace BodyReader

section Framings

variable {n : Nat} {result : Except ReadError Octets}

theorem readSome_bound {r r' : BoundBody} (h : r.readSome n = (result, r')) :
    (bound r).readSome n = (result, .bound r') := by
  rw [readSome, h]

theorem readSome_chunked {r r' : ChunkedBody} (h : r.readSome n = (result, r')) :
    (chunked r).readSome n = (result, .chunked r') := by
  rw [readSome, h]

theorem readSome_untilEof {r r' : UntilEofBody} (h : r.readSome n = (result, r')) :
    (untilEof r).readSome n = (result, .untilEof r') := by
  rw [readSome, h]

end Framings

variable {r r' : BodyReader} {n : Nat} {cause : Failure}

/-- A read into nothing returns nothing, and does nothing. -/
@[simp] theorem readSome_zero (r : BodyReader) : r.readSome 0 = (.ok [], r) := by
  cases r <;> rfl

/-- How a read fails with the transport. -/
inductive Fails (n : Nat) (cause : Failure) : BodyReader → BodyReader → Prop
  | bound {r : BoundBody} {s : Source}
    (supply : r.source.supply r.bufferSize = (.failed cause, s)) :
    Fails n cause (.bound r) (.bound { r with source := s })
  | chunked {r r' : ChunkedBody} (window : r.window? = none)
    (not_done : r.decoder.done = false)
    (decode : r.decode n = (.error (.transport cause), r')) :
    Fails n cause (.chunked r) (.chunked r')
  | untilEof {r : UntilEofBody} {s : Source}
    (supply : r.source.supply r.bufferSize = (.failed cause, s)) :
    Fails n cause (.untilEof r) (.untilEof { r with source := s })

/-- **How reads fail with the transport**: the reader has asked its source. -/
theorem fails_of_transport (h : r.readSome n = (.error (.transport cause), r')) :
    Fails n cause r r' := by
  cases r with
  | bound r =>
    rcases hread : r.readSome n with ⟨result, r₁⟩
    cases (readSome_bound hread).symm.trans h
    obtain ⟨s, hsupply, rfl⟩ := BoundBody.supply_of_transport hread
    exact .bound hsupply
  | chunked r =>
    rcases hread : r.readSome n with ⟨result, r₁⟩
    cases (readSome_chunked hread).symm.trans h
    obtain ⟨hwindow, hdone, hdecode⟩ := ChunkedBody.decode_of_transport hread
    exact .chunked hwindow hdone hdecode
  | untilEof r =>
    rcases hread : r.readSome n with ⟨result, r₁⟩
    cases (readSome_untilEof hread).symm.trans h
    obtain ⟨s, hsupply, rfl⟩ := UntilEofBody.supply_of_transport hread
    exact .untilEof hsupply

/-- A read that fails lowers the rank, too: it uses up the failure. -/
theorem rank_lt_of_transport (h : r.readSome n = (.error (.transport cause), r')) :
    Prod.Lex (· < ·) (· < ·) r'.rank r.rank := by
  cases fails_of_transport h with
  | bound hsupply | untilEof hsupply => exact .left _ _ (Source.total_lt_of_failed hsupply)
  | @chunked r r' hwindow _ hdecode =>
    obtain ⟨hwindow', hlt⟩ := ChunkedBody.total_lt_of_decode r hwindow hdecode
    refine .left _ _ ?_
    simpa only [ChunkedBody.undecoded, hwindow, hwindow'] using hlt

end BodyReader

end HttpFraming
