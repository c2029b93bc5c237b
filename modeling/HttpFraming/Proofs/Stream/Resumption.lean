import HttpFraming.Proofs.Stream.Portions

/-!
# Going on after a failure

A read of a body may fail when the reader has decoded some framing already. That is lost to nobody:
the decoder keeps what it has learnt, and all else is where it was. So the reader is ahead of one
that had no failure, and that is all (`BodyReader.Behind`). Of one read this says what the next will
do (`BodyReader.Behind.resumes`): it fails and leaves the reader ahead, or it does what a read of
the other does.

## Why the reader is ahead

Bodies that are not coded are never ahead: a read of theirs asks the transport once, and either gets
something to hand out or returns. A read of a chunked body goes through several rounds, and each may
find a size or a line end and go on. If the transport fails in a later round, the rounds before it
are done. `Behind` therefore does not say that the reader behind is at the same place, but that it
reads, from where it is, what it would read from there (`ChunkedBody.readSome_called`). This is
enough, as only reads are ever done with a reader.

The recursion for chunks is along the rounds of the reader without failures
(`ChunkedBody.resumes_of_reading`). In each round the sources are supplied alike, or the other has
failed. As soon as they are supplied alike, the two decoders are called over the same octets, and so
do the same.

## What a failure leaves

What a read that fails leaves is told by `BodyReader.Spared`, without a second reader to compare
with. Of a chunked body it says that the decoder has been fed what was buffered and what has come
since, and found nothing in it but framing: no data were decoded and dropped.
-/

namespace HttpFraming

namespace BodyReader

/-- The second reader is the first, reading from a source with failures put in. -/
inductive Disturbed : BodyReader → BodyReader → Prop
  | bound {r : BoundBody} {s : Source} (source : r.source.Disturbed r.bufferSize s) :
    Disturbed (.bound r) (.bound { r with source := s })
  | chunked {r : ChunkedBody} {s : Source} (source : r.source.Disturbed r.bufferSize s) :
    Disturbed (.chunked r) (.chunked { r with source := s })
  | untilEof {r : UntilEofBody} {s : Source} (source : r.source.Disturbed r.bufferSize s) :
    Disturbed (.untilEof r) (.untilEof { r with source := s })

/-- The second reader is ahead of the first: it is the first, with failures put in, after framing
that the first will decode in its next read. -/
inductive Behind (r r' : BodyReader) : Prop
  | intro {r₁ : BodyReader} (readSome : ∀ n, n ≠ 0 → r.readSome n = r₁.readSome n)
    (disturbed : Disturbed r₁ r')

/-- A reader that has had no failure yet is not ahead by anything. -/
theorem Disturbed.behind {r r' : BodyReader} (h : Disturbed r r') : Behind r r' :=
  ⟨fun _ _ ↦ rfl, h⟩

/-- A read of a disturbed reader fails out of turn, or does what a read of the other does. -/
inductive Resumes (r r' : BodyReader) (n : Nat) : Prop
  | fails {cause : Failure} {r₁' : BodyReader}
    (readSome : r'.readSome n = (.error (.transport cause), r₁')) (behind : Behind r r₁')
  | same {result : Except ReadError Octets} {r₁ r₁' : BodyReader}
    (readSome : r.readSome n = (result, r₁)) (readSome' : r'.readSome n = (result, r₁'))
    (disturbed : Disturbed r₁ r₁')

/-- Only the read itself matters. -/
theorem Resumes.congr {r r' r₁ r₁' : BodyReader} {n : Nat} (h : Resumes r₁ r₁' n)
    (hread : ∀ n, n ≠ 0 → r.readSome n = r₁.readSome n)
    (hread' : r'.readSome n = r₁'.readSome n) (hn : n ≠ 0) : Resumes r r' n := by
  cases h with
  | fails readSome behind =>
    obtain ⟨hahead, hdisturbed⟩ := behind
    exact .fails (hread'.trans readSome) ⟨fun n hn ↦ (hread n hn).trans (hahead n hn), hdisturbed⟩
  | same readSome readSome' disturbed =>
    exact .same ((hread n hn).trans readSome) (hread'.trans readSome') disturbed

end BodyReader

open BodyReader (Disturbed Behind Resumes readSome_bound readSome_chunked readSome_untilEof)

/-! ### One read -/

/-- A body of a known length: one question to the transport, one answer. -/
theorem BoundBody.resumes (r : BoundBody) {s : Source} {n : Nat}
    (hs : r.source.Disturbed r.bufferSize s) (hn : n ≠ 0) :
    Resumes (.bound r) (.bound { r with source := s }) n := by
  by_cases hlength : r.length ≤ r.totalRead
  · exact .same (readSome_bound (readSome_of_le hlength hn))
      (readSome_bound (readSome_of_le hlength hn)) (.bound hs)
  rcases hsupply : r.source.supply r.bufferSize with ⟨supplied, t⟩
  rcases hs.supply hsupply with ⟨cause, t', hsupply', ht⟩ | ⟨t', hsupply', ht⟩
  · have hread := readSome_of_failed (r := { r with source := s }) hlength hn hsupply'
    exact .fails (readSome_bound hread) (Disturbed.bound ht).behind
  cases supplied with
  | ready =>
    have hready : ({ r with source := t' } : BoundBody).ready =
        ({ r with source := t } : BoundBody).ready := congrArg (List.take _) ht.buffer
    have hread := readSome_of_supply (r := { r with source := s }) hlength hn hsupply'
    rw [hready] at hread
    exact .same (readSome_bound (readSome_of_supply hlength hn hsupply)) (readSome_bound hread)
      (.bound (ht.consume _))
  | ended =>
    have hread := readSome_of_ended (r := { r with source := s }) hlength hn hsupply'
    exact .same (readSome_bound (readSome_of_ended hlength hn hsupply)) (readSome_bound hread)
      (.bound ht)
  | failed cause =>
    have hread := readSome_of_failed (r := { r with source := s }) hlength hn hsupply'
    exact .same (readSome_bound (readSome_of_failed hlength hn hsupply)) (readSome_bound hread)
      (.bound ht)

/-- A body that ends with the connection: the same, and an end is remembered by both. -/
theorem UntilEofBody.resumes (r : UntilEofBody) {s : Source} {n : Nat}
    (hs : r.source.Disturbed r.bufferSize s) (hn : n ≠ 0) :
    Resumes (.untilEof r) (.untilEof { r with source := s }) n := by
  rcases Bool.eq_false_or_eq_true r.finished with hopen | hopen
  · exact .same (readSome_untilEof (readSome_of_finished hopen hn))
      (readSome_untilEof (readSome_of_finished hopen hn)) (.untilEof hs)
  rcases hsupply : r.source.supply r.bufferSize with ⟨supplied, t⟩
  rcases hs.supply hsupply with ⟨cause, t', hsupply', ht⟩ | ⟨t', hsupply', ht⟩
  · have hread := readSome_of_failed (r := { r with source := s }) hopen hn hsupply'
    exact .fails (readSome_untilEof hread) (Disturbed.untilEof ht).behind
  cases supplied with
  | ready =>
    have hread := readSome_of_supply (r := { r with source := s }) hopen hn hsupply'
    rw [ht.buffer] at hread
    exact .same (readSome_untilEof (readSome_of_supply hopen hn hsupply)) (readSome_untilEof hread)
      (.untilEof (ht.consume _))
  | ended =>
    have hread := readSome_of_ended (r := { r with source := s }) hopen hn hsupply'
    exact .same (readSome_untilEof (readSome_of_ended hopen hn hsupply)) (readSome_untilEof hread)
      (.untilEof (r := { r with source := t, finished := true }) ht)
  | failed cause =>
    have hread := readSome_of_failed (r := { r with source := s }) hopen hn hsupply'
    exact .same (readSome_untilEof (readSome_of_failed hopen hn hsupply)) (readSome_untilEof hread)
      (.untilEof ht)

namespace ChunkedBody

variable {r : ChunkedBody} {n : Nat} {s t t' : Source}

/-- To hand out of the same window keeps readers related. -/
theorem disturbed_after (r : ChunkedBody) (hs : r.source.Disturbed r.bufferSize s) (w : Window)
    (k : Nat) :
    Disturbed (.chunked (r.after w k))
      (.chunked (({ r with source := s } : ChunkedBody).after w k)) := by
  unfold after
  split
  · exact .chunked (r := { r with window? := some ⟨w.start + k, w.stop⟩ }) hs
  · exact .chunked (r := { r with source := r.source.consume w.stop, window? := none })
      (hs.consume w.stop)

/-- A call over the same buffer does the same. -/
theorem called_eq (r : ChunkedBody) (ht : t.Disturbed r.bufferSize t') :
    ({ r with source := s } : ChunkedBody).called t' =
      { r.called t with source := t'.consume (r.decoder.parse t.buffer).consumed } := by
  rw [called, called, ht.buffer]

theorem found_eq (r : ChunkedBody) (ht : t.Disturbed r.bufferSize t') :
    ({ r with source := s } : ChunkedBody).found t' = { r.found t with source := t' } := by
  rw [found, found, ht.buffer]

/-- A decoder that is not done is reading. -/
theorem stage_of_not_done (h : r.decoder.done = false) : r.decoder.draft.stage = .reading := by
  cases hstage : r.decoder.draft.stage with
  | reading => rfl
  | complete | failed _ =>
    rw [ChunkedDecoder.done, hstage] at h
    cases h

/-- A round that finds nothing might as well have been part of the read before. -/
theorem readSome_called (hwindow : r.window? = none) (hstage : r.decoder.draft.stage = .reading)
    (hsupply : r.source.supply r.bufferSize = (.ready, t))
    (haction : (r.decoder.parse t.buffer).action = .none)
    (hdone : (r.called t).decoder.done = false) (hn : n ≠ 0) :
    (BodyReader.chunked r).readSome n = (BodyReader.chunked (r.called t)).readSome n := by
  rw [BodyReader.readSome, BodyReader.readSome, readSome_of_reading hwindow hstage hn,
    readSome_of_reading (r := r.called t) hwindow (stage_of_not_done hdone) hn,
    decode_of_not_done hsupply haction hdone]

theorem readSome_of_decode {r' : ChunkedBody} {result : Except ReadError Octets}
    (hwindow : r.window? = none) (hstage : r.decoder.draft.stage = .reading) (hn : n ≠ 0)
    (h : r.decode n = (result, r')) :
    (BodyReader.chunked r).readSome n = (result, .chunked r') :=
  readSome_chunked ((readSome_of_reading hwindow hstage hn).trans h)

/-- **A read of a body in chunks**, round by round. -/
theorem resumes_of_reading (r : ChunkedBody) {s : Source} (hwindow : r.window? = none)
    (hstage : r.decoder.draft.stage = .reading) (hs : r.source.Disturbed r.bufferSize s)
    (hn : n ≠ 0) : Resumes (.chunked r) (.chunked { r with source := s }) n := by
  have hbase {result : Except ReadError Octets} {r₁ : ChunkedBody}
      (h : r.decode n = (result, r₁)) : (BodyReader.chunked r).readSome n = (result, .chunked r₁) :=
    readSome_of_decode hwindow hstage hn h
  have hread {result : Except ReadError Octets} {r₁ : ChunkedBody}
      (h : ({ r with source := s } : ChunkedBody).decode n = (result, r₁)) :
      (BodyReader.chunked { r with source := s }).readSome n = (result, .chunked r₁) :=
    readSome_of_decode (r := { r with source := s }) hwindow hstage hn h
  rcases hsupply : r.source.supply r.bufferSize with ⟨supplied, t⟩
  rcases hs.supply hsupply with ⟨cause, t', hsupply', ht⟩ | ⟨t', hsupply', ht⟩
  · have hfailed := decode_of_failed (r := { r with source := s }) hsupply' n
    exact .fails (hread hfailed) (Disturbed.chunked ht).behind
  -- From here on the two decoders are called over the same octets.
  cases r.round with
  | failed hbegin =>
    cases hsupply.symm.trans hbegin
    have hfailed := decode_of_failed (r := { r with source := s }) hsupply' n
    exact .same (hbase (decode_of_failed hsupply n)) (hread hfailed) (.chunked ht)
  | ended hbegin =>
    cases hsupply.symm.trans hbegin
    have hended := decode_of_ended (r := { r with source := s }) hsupply' n
    exact .same (hbase (decode_of_ended hsupply n)) (hread hended) (.chunked ht)
  | data hbegin haction =>
    cases hsupply.symm.trans hbegin
    have hdata := decode_of_data (r := { r with source := s }) hsupply'
      (by rw [ht.buffer]; exact haction) rfl n
    rw [found_eq r ht, ht.buffer] at hdata
    exact .same (hbase (decode_of_data hsupply haction rfl n)) (hread hdata)
      (disturbed_after (r.found t) ht _ _)
  | refused hbegin haction =>
    cases hsupply.symm.trans hbegin
    have herror := decode_of_error (r := { r with source := s }) hsupply'
      (by rw [ht.buffer]; exact haction) n
    rw [called_eq r ht] at herror
    exact .same (hbase (decode_of_error hsupply haction n)) (hread herror) (.chunked (ht.consume _))
  | complete hbegin haction hdone =>
    cases hsupply.symm.trans hbegin
    have hcomplete := decode_of_done (r := { r with source := s }) hsupply'
      (by rw [ht.buffer]; exact haction) (by rw [called_eq r ht]; exact hdone) n
    rw [called_eq r ht] at hcomplete
    exact .same (hbase (decode_of_done hsupply haction hdone n)) (hread hcomplete)
      (.chunked (ht.consume _))
  | more hbegin haction hdone =>
    cases hsupply.symm.trans hbegin
    have hlt : (r.called t).source.total < r.source.total := total_called_lt hsupply haction
    have hmore := readSome_called (r := { r with source := s }) hwindow hstage hsupply'
      (by rw [ht.buffer]; exact haction) (by rw [called_eq r ht]; exact hdone) hn
    rw [called_eq r ht] at hmore
    -- Both have found nothing, and go on. If the transport fails later, the other is ahead of the
    -- reader after this round, and so of this one.
    have hlater := resumes_of_reading (r.called t) hwindow (stage_of_not_done hdone)
      (ht.consume _) hn
    exact hlater.congr (fun n ↦ readSome_called hwindow hstage hsupply haction hdone) hmore hn
termination_by r.source.total

/-- A reader in chunks that has a window, or is done, does not ask the transport at all. -/
theorem resumes (r : ChunkedBody) (hs : r.source.Disturbed r.bufferSize s) (hn : n ≠ 0) :
    Resumes (.chunked r) (.chunked { r with source := s }) n := by
  rcases Option.eq_none_or_eq_some r.window? with hwindow | ⟨w, hwindow⟩
  · cases hstage : r.decoder.draft.stage with
    | reading => exact resumes_of_reading r hwindow hstage hs hn
    | complete =>
      exact .same (readSome_chunked (readSome_of_complete hwindow hstage hn))
        (readSome_chunked (readSome_of_complete hwindow hstage hn)) (.chunked hs)
    | failed e =>
      exact .same (readSome_chunked (readSome_of_error hwindow hstage hn))
        (readSome_chunked (readSome_of_error hwindow hstage hn)) (.chunked hs)
  · have hread := readSome_of_window (r := { r with source := s }) hwindow hn
    rw [hs.buffer] at hread
    exact .same (readSome_chunked (readSome_of_window hwindow hn)) (readSome_chunked hread)
      (disturbed_after r hs w _)

end ChunkedBody

namespace BodyReader

variable {r r' : BodyReader} {n : Nat}

/-- **One read of a reader with failures put in** fails out of turn, or does what the other does. -/
theorem Disturbed.resumes (h : Disturbed r r') (hn : n ≠ 0) : Resumes r r' n := by
  cases h with
  | bound hs => exact BoundBody.resumes _ hs hn
  | chunked hs => exact ChunkedBody.resumes _ hs hn
  | untilEof hs => exact UntilEofBody.resumes _ hs hn

/-- **One read of a reader that is ahead** fails and leaves it ahead, or does what a read of the
other does. -/
theorem Behind.resumes (h : Behind r r') (hn : n ≠ 0) : Resumes r r' n := by
  obtain ⟨hahead, hdisturbed⟩ := h
  exact (hdisturbed.resumes hn).congr hahead rfl hn

end BodyReader

/-! ### What a failure leaves -/

/-- A call that finds nothing and is followed by another has consumed all. -/
theorem ChunkedDecoder.prospect_cons_of_none {d : ChunkedDecoder} {piece : Octets}
    (hd : d.Reached) (hlive : Live d) (hne : piece ≠ [])
    (haction : (d.parse piece).action = .none) (hdone : (d.parse piece).decoder.done = false)
    (pieces : List Octets) :
    d.prospect (piece :: pieces) = (d.parse piece).decoder.prospect pieces := by
  have hconsumed : (d.parse piece).consumed = piece.length :=
    hd.kept.lifeCycle.consumes_all piece haction hdone
  have hwindow : (d.parse piece).window = [] := by rw [Decoded.window, haction]
  rw [prospect_cons_of_not_done hlive hne hdone, hconsumed, List.drop_length, prospect_nil_cons,
    hwindow]
  rfl

/-- What a read that fails makes of a reader: nothing at all, except that it may have decoded all
that was buffered and some that it received, and found only framing. -/
inductive BodyReader.Spared : BodyReader → BodyReader → Prop
  | bound {r : BoundBody} {s : Source} (buffer : s.buffer = r.source.buffer)
    (unread : s.unread = r.source.unread) : Spared (.bound r) (.bound { r with source := s })
  | chunked {r : ChunkedBody} {s : Source} {d : ChunkedDecoder} {framing : List Octets}
    {received : Octets} (buffer : s.buffer = [])
    (pieces : framing.flatten = r.source.buffer ++ received)
    (unread : r.source.unread = received ++ s.unread)
    (prospect : r.decoder.prospect framing = ⟨[], d, []⟩) :
    Spared (.chunked r) (.chunked { r with source := s, decoder := d })
  | untilEof {r : UntilEofBody} {s : Source} (buffer : s.buffer = r.source.buffer)
    (unread : s.unread = r.source.unread) : Spared (.untilEof r) (.untilEof { r with source := s })

open BodyReader (Spared)

/-- Decoding that fails has taken in only framing: the rounds before the failure found nothing to
hand out. -/
theorem ChunkedBody.spared_of_decode (r : ChunkedBody) {r' : ChunkedBody} {n : Nat}
    {cause : Failure} (hd : r.decoder.Reached) (hnot : r.decoder.done = false)
    (h : r.decode n = (.error (.transport cause), r')) : Spared (.chunked r) (.chunked r') := by
  rcases round_of_transport h with ⟨s, hsupply, rfl⟩ | ⟨s, hsupply, haction, hdone, hlater⟩
  · obtain ⟨hbuffer, hbuffer', hunread⟩ := Source.of_failed hsupply
    have hpieces : ([] : List Octets).flatten = r.source.buffer ++ [] := by rw [hbuffer]; rfl
    exact .chunked hbuffer' hpieces hunread.symm rfl
  · have hlt : (r.called s).source.total < r.source.total := total_called_lt hsupply haction
    -- This round has taken all that was buffered, and found nothing in it to hand out. The rounds
    -- that follow begin with an empty buffer.
    obtain ⟨received, hbuffer, hunread⟩ := Source.received_supply hsupply
    have hempty : (r.called s).source.buffer = [] := by
      rw [called, Source.consume, hd.kept.lifeCycle.consumes_all s.buffer haction hdone,
        List.drop_length]
    have hfound := ChunkedDecoder.prospect_cons_of_none hd (hd.kept.live hnot)
      (Source.buffer_ne_nil_of_supply hsupply) haction hdone
    have hspared := spared_of_decode (r.called s) (.parse hd _) hdone hlater
    generalize hcalled : r.called s = next at hspared hempty
    cases hspared with
    | @chunked _ t d framing received' buffer pieces unread prospect =>
      subst hcalled
      have hpieces : (s.buffer :: framing).flatten =
          r.source.buffer ++ (received ++ received') := by
        rw [List.flatten_cons, pieces, hempty, hbuffer, List.nil_append, List.append_assoc]
      have hunread' : r.source.unread = (received ++ received') ++ t.unread := by
        rw [hunread, List.append_assoc]
        exact congrArg (received ++ ·) unread
      exact .chunked buffer hpieces hunread' ((hfound framing).trans prospect)
termination_by r.source.total

/-- **A read that fails hands out nothing and takes nothing away.** -/
theorem BodyReader.spared_of_transport {r r' : BodyReader} {n : Nat} {cause : Failure}
    (hr : r.Tidy) (h : r.readSome n = (.error (.transport cause), r')) : Spared r r' := by
  cases fails_of_transport h with
  | bound hsupply =>
    obtain ⟨hbuffer, hbuffer', hunread⟩ := Source.of_failed hsupply
    exact .bound (hbuffer'.trans hbuffer.symm) hunread
  | untilEof hsupply =>
    obtain ⟨hbuffer, hbuffer', hunread⟩ := Source.of_failed hsupply
    exact .untilEof (hbuffer'.trans hbuffer.symm) hunread
  | @chunked r r' _ hdone hdecode => exact ChunkedBody.spared_of_decode r hr.1 hdone hdecode

end HttpFraming
