import HttpFraming.Proofs.Stream.Termination

/-!
# Reading a body makes progress

Every read of a body returns something or tells why it does not, and the loop that copies the rest
of a body comes to an end (`BodyReader.copyWithin_eq`), with the number of octets it has copied if
and only if it came to the end of the body. That a body has ended is told by a read that returns
nothing, as from a transport, and by no other (`BodyReader.read_eq_nil_iff`). The reader remembers
it (`BodyReader.atEnd_of_readSome`).

## What makes the loop end

What a read returns is no longer in the source: `BodyReader.undelivered` is how much there still is,
and a read that succeeds lowers it by what it hands out (`undelivered_of_readSome`). It is counted
from the next octet that is to be handed out, which in a chunked body is not the first that is
buffered: a window stays in the buffer until all of it is out, and the octets of it that are out
would be counted twice. As a read that succeeds returns at least one octet, `undelivered` is the
measure that `Loop.Moves` asks for, and `moves_of_copy` is the step of the loop.

The measure by which a single read of a chunked body ends is another one (`Source.total`): its loop
may go around without handing out anything, but not without taking something from the source.

## What is told of the end

`Ended` speaks of what a reader will do, and `AtEnd` of what it remembers. The first is what
`read_eq_nil_iff` is about: a read that returns nothing has met the end, and a reader that is at its
end returns nothing to any read. The second is what a read that tells of the end leaves behind, and
it does not change any more.

All of it is collected in `Source.finishes_reading`, together with what was said of single reads and
of heads. It is said of any source and any transport, and of a body reader after any reads.
-/

namespace HttpFraming

open BodyReader (Tidy)

/-! ### What is handed out is used up -/

/-- What a script still delivers is not longer than its weight, which counts its failures as
well. -/
theorem Delivery.length_octetsOf_le (script : List Delivery) :
    (octetsOf script).length ≤ weight script := by
  induction script with
  | nil => exact Nat.le_refl 0
  | cons d rest ih =>
    cases d with
    | octets data =>
      rw [octetsOf, weight, List.length_append]
      omega
    | failure cause =>
      rw [octetsOf, weight]
      omega

namespace Source

variable {s : Source} {k : Nat}

/-- What is consumed is taken from the stream. -/
theorem length_stream_consume (h : k ≤ s.buffer.length) :
    (s.consume k).stream.length + k = s.stream.length := by
  have hle : k ≤ s.stream.length := by
    rw [stream, List.length_append]
    omega
  rw [stream_consume h, List.length_drop, Nat.sub_add_cancel hle]

theorem length_stream_le (s : Source) : s.stream.length ≤ s.total := by
  have hunread : s.unread.length ≤ Delivery.weight s.script := Delivery.length_octetsOf_le s.script
  rw [stream, total, List.length_append]
  omega

end Source

namespace BoundBody

variable {r r' : BoundBody} {n : Nat} {data : Octets}

/-- A body of known length takes from its source exactly what it hands out. -/
theorem length_of_readSome (hn : n ≠ 0) (h : r.readSome n = (.ok data, r')) :
    r'.source.stream.length + data.length = r.source.stream.length := by
  by_cases hend : r.length ≤ r.totalRead
  · cases (readSome_of_le hend hn).symm.trans h
  rcases hsupply : r.source.supply r.bufferSize with ⟨_ | _ | cause, s⟩
  · cases (readSome_of_supply hend hn hsupply).symm.trans h
    have hready : ({ r with source := s } : BoundBody).ready.length ≤ s.buffer.length :=
      List.length_take_le' _ _
    rw [List.length_take, ← Source.stream_of_supply hsupply]
    exact Source.length_stream_consume (Nat.le_trans (Nat.min_le_right _ _) hready)
  · cases (readSome_of_ended hend hn hsupply).symm.trans h
  · cases (readSome_of_failed hend hn hsupply).symm.trans h

/-- A reader that tells of the end of its body has handed out all of it. -/
theorem length_le_of_eof (hn : n ≠ 0) (h : r.readSome n = (.error .eof, r')) :
    r'.length ≤ r'.totalRead := by
  by_cases hend : r.length ≤ r.totalRead
  · cases (readSome_of_le hend hn).symm.trans h
    exact hend
  rcases hsupply : r.source.supply r.bufferSize with ⟨_ | _ | cause, s⟩
  · cases (readSome_of_supply hend hn hsupply).symm.trans h
  · cases (readSome_of_ended hend hn hsupply).symm.trans h
  · cases (readSome_of_failed hend hn hsupply).symm.trans h

end BoundBody

namespace UntilEofBody

variable {r r' : UntilEofBody} {n : Nat} {data : Octets}

/-- A body that ends with the connection takes from its source what it hands out, too. -/
theorem length_of_readSome (hn : n ≠ 0) (h : r.readSome n = (.ok data, r')) :
    r'.source.stream.length + data.length = r.source.stream.length := by
  rcases Bool.eq_false_or_eq_true r.finished with hend | hopen
  · cases (readSome_of_finished hend hn).symm.trans h
  rcases hsupply : r.source.supply r.bufferSize with ⟨_ | _ | cause, s⟩
  · cases (readSome_of_supply hopen hn hsupply).symm.trans h
    rw [List.length_take, ← Source.stream_of_supply hsupply]
    exact Source.length_stream_consume (Nat.min_le_right _ _)
  · cases (readSome_of_ended hopen hn hsupply).symm.trans h
  · cases (readSome_of_failed hopen hn hsupply).symm.trans h

/-- A reader that tells of the end of the transport keeps that it has seen it. -/
theorem finished_of_eof (hn : n ≠ 0) (h : r.readSome n = (.error .eof, r')) :
    r'.finished = true := by
  rcases Bool.eq_false_or_eq_true r.finished with hend | hopen
  · cases (readSome_of_finished hend hn).symm.trans h
    exact hend
  rcases hsupply : r.source.supply r.bufferSize with ⟨_ | _ | cause, s⟩
  · cases (readSome_of_supply hopen hn hsupply).symm.trans h
  · cases (readSome_of_ended hopen hn hsupply).symm.trans h
    rfl
  · cases (readSome_of_failed hopen hn hsupply).symm.trans h

end UntilEofBody

namespace ChunkedBody

variable {r r' : ChunkedBody} {w : Window} {n : Nat} {data : Octets}

/-- How many octets the source has from the next one on that is to be handed out. -/
def undelivered (r : ChunkedBody) : Nat :=
  r.source.stream.length - (r.window?.map Window.start).getD 0

/-- To hand out octets of a window uses them up, and what is before them. -/
theorem undelivered_after (hw : w.start ≤ w.stop) (hstop : w.stop ≤ r.source.buffer.length)
    {k : Nat} (hk : k ≤ w.length) :
    (r.after w k).undelivered = r.source.stream.length - (w.start + k) := by
  unfold after
  split
  · rfl
  · rename_i hend
    have hlength := Source.length_stream_consume hstop
    have hall : w.start + k = w.stop := by
      rw [Window.length] at hk
      omega
    rw [hall, ← hlength, Nat.add_sub_cancel]
    rfl

/-- What a read hands out of a window is no longer there. -/
theorem undelivered_handOut (hw : w.start ≤ w.stop) (hstop : w.stop ≤ r.source.buffer.length)
    (n : Nat) : (r.after w (min n w.length)).undelivered +
      ((w.octets r.source.buffer).take n).length = r.source.stream.length - w.start := by
  have hle : r.source.buffer.length ≤ r.source.stream.length := r.source.length_buffer_le
  rw [undelivered_after hw hstop (Nat.min_le_right _ _), List.length_take, length_octets hstop]
  rw [Window.length]
  omega

/-- What the decoder finds is used up with what is between two windows: sizes, line ends and
trailers are not handed out. -/
theorem undelivered_of_decode (r : ChunkedBody) {r' : ChunkedBody} (hd : r.decoder.Reached)
    (h : r.decode n = (.ok data, r')) :
    r'.undelivered + data.length ≤ r.source.stream.length := by
  cases r.round with
  | failed hsupply => cases (decode_of_failed hsupply n).symm.trans h
  | ended hsupply => cases (decode_of_ended hsupply n).symm.trans h
  | refused hsupply haction => cases (decode_of_error hsupply haction n).symm.trans h
  | complete hsupply haction hdone => cases (decode_of_done hsupply haction hdone n).symm.trans h
  | @data s window hsupply haction =>
    obtain ⟨w, hw⟩ : ∃ w : Window, w = ⟨(r.decoder.parse s.buffer).consumed - window.length,
      (r.decoder.parse s.buffer).consumed⟩ := ⟨_, rfl⟩
    have hle : w.start ≤ w.stop := by
      rw [hw]
      exact Nat.sub_le _ _
    have hstop : w.stop ≤ (r.found s).source.buffer.length := by
      rw [hw]
      exact ChunkedDecoder.consumed_parse_le r.decoder s.buffer
    cases (decode_of_data hsupply haction hw n).symm.trans h
    rw [← Source.stream_of_supply hsupply]
    exact Nat.le_trans (Nat.le_of_eq (undelivered_handOut hle hstop n)) (Nat.sub_le _ _)
  -- The call found nothing, so its octets are sizes and line ends. They count as used up, which is
  -- why this is an inequality.
  | @more s hsupply haction hdone =>
    have hlt : (r.called s).source.total < r.source.total := total_called_lt hsupply haction
    rw [decode_of_not_done hsupply haction hdone] at h
    have hlater : r'.undelivered + data.length ≤ (s.consume _).stream.length :=
      undelivered_of_decode (r.called s) (.parse hd _) h
    have hlength := Source.length_stream_consume
      (ChunkedDecoder.consumed_parse_le r.decoder s.buffer)
    rw [← Source.stream_of_supply hsupply, ← hlength]
    exact Nat.le_trans hlater (Nat.le_add_right _ _)
termination_by r.source.total

/-- A chunked body hands out what is in its window, and what is not there any more. -/
theorem undelivered_of_readSome (hr : Tidy (.chunked r)) (hn : n ≠ 0)
    (h : r.readSome n = (.ok data, r')) : r'.undelivered + data.length ≤ r.undelivered := by
  rcases Option.eq_none_or_eq_some r.window? with hwindow | ⟨w, hwindow⟩
  · have hall : r.undelivered = r.source.stream.length := by
      rw [undelivered, hwindow]
      rfl
    rw [hall]
    cases hstage : r.decoder.draft.stage with
    | reading =>
      rw [readSome_of_reading hwindow hstage hn] at h
      exact undelivered_of_decode r hr.1 h
    | complete => cases (readSome_of_complete hwindow hstage hn).symm.trans h
    | failed e => cases (readSome_of_error hwindow hstage hn).symm.trans h
  · have hall : r.undelivered = r.source.stream.length - w.start := by
      rw [undelivered, hwindow]
      rfl
    obtain ⟨hstart, hstop⟩ := hr.2 w hwindow
    cases (readSome_of_window hwindow hn).symm.trans h
    rw [hall]
    exact Nat.le_of_eq (undelivered_handOut (Nat.le_of_lt hstart) hstop n)

/-- Nothing is left of a body that was read to its end. -/
def Complete (r : ChunkedBody) : Prop :=
  r.window? = none ∧ r.decoder.draft.stage = .complete

/-- A decoder that stops with the end of the body has come to its last chunk and has no window. -/
theorem complete_of_decode (r : ChunkedBody) {r' : ChunkedBody} (hwindow : r.window? = none)
    (h : r.decode n = (.error .eof, r')) : r'.Complete := by
  cases r.round with
  | failed hsupply => cases (decode_of_failed hsupply n).symm.trans h
  | ended hsupply => cases (decode_of_ended hsupply n).symm.trans h
  | data hsupply haction => cases (decode_of_data hsupply haction rfl n).symm.trans h
  | refused hsupply haction => cases (decode_of_error hsupply haction n).symm.trans h
  | complete hsupply haction hdone =>
    cases (decode_of_done hsupply haction hdone n).symm.trans h
    exact ⟨hwindow, ChunkedDecoder.stage_of_action_none haction hdone⟩
  | @more s hsupply haction hdone =>
    have hlt : (r.called s).source.total < r.source.total := total_called_lt hsupply haction
    rw [decode_of_not_done hsupply haction hdone] at h
    exact complete_of_decode (r.called s) hwindow h
termination_by r.source.total

/-- So a reader that tells of the end has read the body completely. -/
theorem complete_of_eof (hn : n ≠ 0) (h : r.readSome n = (.error .eof, r')) : r'.Complete := by
  rcases Option.eq_none_or_eq_some r.window? with hwindow | ⟨w, hwindow⟩
  · cases hstage : r.decoder.draft.stage with
    | reading =>
      rw [readSome_of_reading hwindow hstage hn] at h
      exact complete_of_decode r hwindow h
    | complete =>
      cases (readSome_of_complete hwindow hstage hn).symm.trans h
      exact ⟨hwindow, hstage⟩
    | failed e => cases (readSome_of_error hwindow hstage hn).symm.trans h
  · cases (readSome_of_window hwindow hn).symm.trans h

end ChunkedBody

namespace BodyReader

variable {r r' : BodyReader} {n : Nat} {data : Octets} {sizes : ReadSizes}

/-- How many octets the source has from the next one on that is to be handed out. -/
def undelivered : BodyReader → Nat
  | bound r => r.source.stream.length
  | chunked r => r.undelivered
  | untilEof r => r.source.stream.length

/-- **What is handed out is used up.** -/
theorem undelivered_of_readSome (hr : r.Tidy) (hn : n ≠ 0) (h : r.readSome n = (.ok data, r')) :
    r'.undelivered + data.length ≤ r.undelivered := by
  cases r with
  | bound r =>
    rcases hread : r.readSome n with ⟨result, r₁⟩
    cases (readSome_bound hread).symm.trans h
    exact Nat.le_of_eq (BoundBody.length_of_readSome hn hread)
  | chunked r =>
    rcases hread : r.readSome n with ⟨result, r₁⟩
    cases (readSome_chunked hread).symm.trans h
    exact ChunkedBody.undelivered_of_readSome hr hn hread
  | untilEof r =>
    rcases hread : r.readSome n with ⟨result, r₁⟩
    cases (readSome_untilEof hread).symm.trans h
    exact Nat.le_of_eq (UntilEofBody.length_of_readSome hn hread)

theorem undelivered_le (r : BodyReader) : r.undelivered ≤ r.source.total := by
  have hle := r.source.length_stream_le
  cases r with
  | bound r | untilEof r => exact hle
  | chunked r => exact Nat.le_trans (Nat.sub_le _ _) hle

/-! ### Copying the rest of a body -/

/-- What a read hands out comes before the rest. -/
theorem drain_of_ok (h : r.readSome (sizes.size 0) = (.ok data, r')) :
    r.drain sizes = (r'.drain sizes.tail).prepend data := by
  rw [drain]
  split
  · rename_i hread
    cases h.symm.trans hread
  · rename_i hread
    cases h.symm.trans hread
    rfl

/-- An error is where the reading stops. -/
theorem drain_of_error {e : ReadError} (h : r.readSome (sizes.size 0) = (.error e, r')) :
    r.drain sizes = ⟨[], e, r'⟩ := by
  rw [drain]
  split
  · rename_i hread
    cases h.symm.trans hread
    rfl
  · rename_i hread
    cases h.symm.trans hread

/-- **A read is over after some rounds**, whatever is read. -/
theorem readSomeWithin_eq (hr : r.Tidy) (n : Nat) {rounds : Nat}
    (h : r.source.total + 1 < rounds) : r.readSomeWithin rounds n = some (r.readSome n) := by
  cases r with
  | bound r | untilEof r => rfl
  | chunked r =>
    have hle : r.source.stream.length ≤ r.source.total := r.source.length_stream_le
    have hrounds : r.source.stream.length + 1 < rounds :=
      Nat.lt_of_le_of_lt (Nat.add_le_add_right hle 1) h
    rw [readSomeWithin, ChunkedBody.readSomeWithin_eq hr n hrounds]
    rfl

/-- What was read, behind `out`, where `total` octets are already counted. That the body has ended
is no error, and the number of octets is returned then. -/
def Drained.toCopied (d : Drained) (out : Octets) (total : Nat) : Copied :=
  ⟨out ++ d.data, if d.stop.isEof then .ok (total + d.data.length) else .error d.stop, d.reader⟩

/-- A copy succeeds exactly if the reads stop at the end of the body. -/
theorem Drained.result_toCopied (d : Drained) (out : Octets) (total : Nat) :
    (d.toCopied out 0).result = .ok total ↔ d.stop = .eof ∧ total = d.data.length := by
  rw [toCopied, Nat.zero_add]
  cases hstop : d.stop with
  | eof => simp [ReadError.isEof, eq_comm]
  | unexpectedEof | connectionClosed | parse _ | transport _ => simp [ReadError.isEof]

/-- The sizes of the reads of a copy. -/
def copySizes : ReadSizes :=
  .const copySize (by decide)

section Rounds

variable {rounds total : Nat} {out : Octets} (hr : r.Tidy) (hrounds : r.source.total + 1 < rounds)
include hr hrounds

/-- A round of copying that reads something puts it behind what is there, and counts it. -/
theorem copyRound_of_ok (hread : r.readSome copySize = (.ok data, r')) :
    copyRound rounds (r, out, total) = some (.again (r', out ++ data, total + data.length)) := by
  rw [copyRound, readSomeWithin_eq hr copySize hrounds, hread]

/-- The loop is left with what the reads have come to. -/
theorem copyRound_of_error {e : ReadError} (hread : r.readSome copySize = (.error e, r')) :
    copyRound rounds (r, out, total) = some (.leave (Drained.toCopied ⟨[], e, r'⟩ out total)) := by
  rw [copyRound, readSomeWithin_eq hr copySize hrounds, hread, Drained.toCopied, List.append_nil]
  cases e <;> rfl

/-- A round of copying: the read is the last, or it has used up something. -/
theorem moves_of_copy :
    Loop.Moves (copyRound rounds)
      (fun state ↦ state.1.Tidy ∧ state.1.source.total + 1 < rounds)
      (fun state copied ↦ copied = (state.1.drain copySizes).toCopied state.2.1 state.2.2)
      (fun state ↦ state.1.undelivered) (r, out, total) := by
  have hsize : copySize ≠ 0 := by decide
  rcases hread : r.readSome copySize with ⟨e | data, r'⟩
  · have hdrain : r.drain copySizes = ⟨[], e, r'⟩ := drain_of_error hread
    refine .leave (copyRound_of_error hr hrounds hread) ?_
    rw [hdrain]
  · have hdrain : r.drain copySizes = (r'.drain copySizes).prepend data := drain_of_ok hread
    have htotal : r'.source.total ≤ r.source.total := by
      have hle := r.total_readSome_le copySize
      rw [hread] at hle
      exact hle
    -- The number of rounds is the same for the reads that follow: a source does not grow, so what
    -- was enough is still enough.
    have hrounds' : r'.source.total + 1 < rounds := by omega
    have hused := undelivered_of_readSome hr hsize hread
    have hne : 0 < data.length := List.length_pos_iff.2 (hr.ne_nil hsize hread)
    refine .again (copyRound_of_ok hr hrounds hread) ⟨hr.of_readSome hread, hrounds'⟩
      (by simp only; omega) fun copied hcopied ↦ ?_
    rw [hcopied, hdrain, Drained.toCopied, Drained.toCopied, Drained.prepend]
    simp only [List.append_assoc, List.length_append, Nat.add_assoc]

end Rounds

/-- **To copy the rest of a body is over after some rounds.** -/
theorem copyWithin_eq (hr : r.Tidy) (out : Octets) {rounds : Nat}
    (h : r.source.total + 1 < rounds) :
    r.copyWithin rounds out = some ((r.drain copySizes).toCopied out 0) := by
  have hundelivered : r.undelivered < rounds := by
    have hle := r.undelivered_le
    omega
  obtain ⟨copied, hwithin, hcopied⟩ := Loop.exists_within
    (fun state hstate ↦ moves_of_copy hstate.1 hstate.2) (r, out, 0) ⟨hr, h⟩ hundelivered
  rw [copyWithin, hwithin, hcopied]

/-- The rest of a body is what is copied. -/
theorem readToEnd_eq (hr : r.Tidy) : r.readToEnd = (r.drain copySizes).toRest := by
  have hsize : copySize ≠ 0 := by decide
  have hone (r : BodyReader) : r.readSome (copySizes.size 0) = r.readSome copySize := rfl
  rw [readToEnd]
  generalize hn : copySize = n at hsize hone
  fun_induction readRest r n with
  | case1 r r' hread => rw [drain_of_error ((hone r).trans hread)]; rfl
  | case2 r e r' hne hread =>
    rw [drain_of_error ((hone r).trans hread), Drained.toRest]
    cases e with
    | eof => exact absurd rfl hne
    | unexpectedEof | connectionClosed | parse _ | transport _ => rfl
  | case3 r r' hread => exact absurd rfl (hr.ne_nil hsize hread)
  | case4 r b data r' hread rest ih =>
    rw [drain_of_ok ((hone r).trans hread)]
    have hlater : rest = (r'.drain copySizes).toRest := ih (hr.of_readSome hread)
    rw [hlater]
    rfl

/-! ### The end of a body -/

/-- Nothing is left of a body, and whoever reads on is told that it has ended. -/
def Ended (r : BodyReader) : Prop :=
  ∀ sizes, (r.drain sizes).data = [] ∧ (r.drain sizes).stop = .eof

/-- A reader that tells of the end at one size tells of it at every size. -/
theorem ended_of_readSome (hr : r.Tidy) (hn : n ≠ 0) (h : (r.readSome n).1 = .error .eof) :
    r.Ended := fun sizes ↦ by
  cases turn hr with
  | offers _ hread _ =>
    rw [hread n hn] at h
    cases h
  | @stops e r' hread _ =>
    rw [hread n hn] at h
    obtain rfl := Except.error.inj h
    rw [drain_of_error (hread _ (sizes.ne_zero 0))]
    exact ⟨rfl, rfl⟩

/-- A reader whose body has ended says so. -/
theorem Ended.readSome (h : r.Ended) (hr : r.Tidy) (hn : n ≠ 0) :
    (r.readSome n).1 = .error .eof := by
  obtain ⟨hdata, hstop⟩ := h (.const n hn)
  have hone : r.readSome ((ReadSizes.const n hn).size 0) = r.readSome n := rfl
  rcases hread : r.readSome n with ⟨e | data, r'⟩
  · rw [drain_of_error (hone.trans hread)] at hstop
    exact congrArg Except.error hstop
  · rw [drain_of_ok (hone.trans hread)] at hdata
    exact absurd (List.append_eq_nil_iff.1 hdata).1 (hr.ne_nil hn hread)

/-- **To read nothing is to have come to the end.** -/
theorem read_eq_nil_iff (hr : r.Tidy) (hn : n ≠ 0) : (r.read n).1 = .ok [] ↔ r.Ended := by
  constructor
  · intro h
    refine ended_of_readSome hr hn ?_
    rcases hread : r.readSome n with ⟨e | data, r'⟩
    · rw [read, hread] at h
      cases e with
      | eof => rfl
      | unexpectedEof | connectionClosed | parse _ | transport _ => cases h
    · rw [read, hread] at h
      exact absurd (Except.ok.inj h) (hr.ne_nil hn hread)
  · intro h
    rcases hread : r.readSome n with ⟨result, r'⟩
    have hend := h.readSome hr hn
    rw [hread] at hend
    obtain rfl : result = .error .eof := hend
    rw [read, hread]

/-- A reader that knows that its body has ended. -/
def AtEnd : BodyReader → Prop
  | bound r => r.length ≤ r.totalRead
  | chunked r => r.Complete
  | untilEof r => r.finished = true

/-- A reader that knows that its body has ended stays as it is. -/
theorem AtEnd.readSome (h : r.AtEnd) (hn : n ≠ 0) : r.readSome n = (.error .eof, r) := by
  cases r with
  | bound r => exact readSome_bound (BoundBody.readSome_of_le h hn)
  | chunked r => exact readSome_chunked (ChunkedBody.readSome_of_complete h.1 h.2 hn)
  | untilEof r => exact readSome_untilEof (UntilEofBody.readSome_of_finished h hn)

/-- A reader that tells of the end of its body remembers it. -/
theorem atEnd_of_readSome (h : r.readSome n = (.error .eof, r')) : r'.AtEnd := by
  have hn : n ≠ 0 := by
    rintro rfl
    rw [readSome_zero] at h
    cases h
  cases r with
  | bound r =>
    rcases hread : r.readSome n with ⟨result, r₁⟩
    cases (readSome_bound hread).symm.trans h
    exact BoundBody.length_le_of_eof hn hread
  | chunked r =>
    rcases hread : r.readSome n with ⟨result, r₁⟩
    cases (readSome_chunked hread).symm.trans h
    exact ChunkedBody.complete_of_eof hn hread
  | untilEof r =>
    rcases hread : r.readSome n with ⟨result, r₁⟩
    cases (readSome_untilEof hread).symm.trans h
    exact UntilEofBody.finished_of_eof hn hread

/-! ### All readers -/

/-- Reading from a body is over after some rounds, and makes progress. -/
structure Finishes (r : BodyReader) : Prop where
  /-- Each read is over, whatever is asked for. -/
  readSome : ∀ n rounds, r.source.total + 1 < rounds →
    r.readSomeWithin rounds n = some (r.readSome n)
  /-- To copy the rest of the body is over, too. -/
  copy : ∀ out rounds, r.source.total + 1 < rounds →
    r.copyWithin rounds out = some ((r.drain copySizes).toCopied out 0)
  /-- Where the reads of a copy stop at the end of the body, it returns how many octets it has put
  behind those that were there, and only there. -/
  copied : ∀ out total, ((r.drain copySizes).toCopied out 0).out = out ++ (r.drain copySizes).data ∧
    (((r.drain copySizes).toCopied out 0).result = .ok total ↔
      (r.drain copySizes).stop = .eof ∧ total = (r.drain copySizes).data.length)
  readToEnd : r.readToEnd = (r.drain copySizes).toRest
  /-- A read that succeeds returns something. -/
  ne_nil : ∀ n data, n ≠ 0 → (r.readSome n).1 = .ok data → data ≠ []
  /-- To read nothing as from a transport is to have come to the end. -/
  read : ∀ n, n ≠ 0 → ((r.read n).1 = .ok [] ↔ r.Ended)
  /-- The end stays the end. -/
  ended : ∀ n, n ≠ 0 → r.Ended → ∃ r', r.readSome n = (.error .eof, r') ∧
    ∀ n, n ≠ 0 → r'.readSome n = (.error .eof, r')

/-- Reading from any reader that is in order makes progress and comes to an end. -/
theorem Tidy.finishes (hr : r.Tidy) : r.Finishes where
  readSome n _ hrounds := readSomeWithin_eq hr n hrounds
  copy out _ hrounds := copyWithin_eq hr out hrounds
  copied out total := ⟨rfl, Drained.result_toCopied _ out total⟩
  readToEnd := readToEnd_eq hr
  ne_nil n data hn h := hr.ne_nil hn (Prod.ext h rfl)
  read _ hn := read_eq_nil_iff hr hn
  ended n hn h := by
    have hread : r.readSome n = (.error .eof, (r.readSome n).2) := Prod.ext (h.readSome hr hn) rfl
    exact ⟨_, hread, fun _ hn ↦ (atEnd_of_readSome hread).readSome hn⟩

end BodyReader

/-- Reading from a source makes progress, and is over after a number of rounds that is known
beforehand. -/
structure Source.Finishes (s : Source) (options : ReadOptions) : Prop where
  /-- A read of the transport is repeated only as often as it is interrupted. -/
  receive : ∀ max rounds, Delivery.interruptions s.script < rounds →
    Loop.within (Reception.attempt max) rounds (s.script, 0) =
      some (Reception.ofScript max s.script)
  readRequest : ∀ rounds, s.unread.length < rounds →
    HeadReader.readWithin rounds options s = some (readRequest options s)
  readResponse : ∀ rounds, s.unread.length < rounds →
    HeadReader.readWithin rounds options s = some (readResponse options s)
  /-- Bodies of any framing, after any reads. -/
  body : ∀ size sizes, ((BodyReader.ofSize size options s).calls sizes).2.Finishes

/-- **Readers make progress and come to an end**, whatever the transport does. -/
theorem Source.finishes_reading (s : Source) (options : ReadOptions) : s.Finishes options where
  receive max _ hrounds := Reception.within_attempt max s.script hrounds
  readRequest _ hrounds := HeadReader.readWithin_eq options s hrounds
  readResponse _ hrounds := HeadReader.readWithin_eq options s hrounds
  body size sizes := ((BodyReader.tidy_ofSize size options s).calls sizes).finishes

end HttpFraming
