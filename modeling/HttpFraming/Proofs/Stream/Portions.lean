import HttpFraming.Proofs.LifeCycle.Body
import HttpFraming.Proofs.Stream.Reads

/-!
# Reading a body in portions of any size

How much is asked for at a time decides in which portions a body is handed out, and nothing else. A
reader can be read to its end with destinations of any sizes, and not only the data are the same,
but also how it stops and where it is left (`BodyReader.persist_sizes`). This holds of any
transport, failing or not, if the reading goes on after failures.

## One notion for all readers

What a reader does next is either to stop, whatever the size, or to hand out octets that are there
already, in portions, and to be left with the same when all of them are handed out. This is what
`BodyReader.Turn` says, and `Offers` is its second case: the octets, and the reader that is left
when some of them are out. Each of the three readers takes such turns (`BoundBody.turn`,
`UntilEofBody.turn`, `ChunkedBody.turn`), and nothing after that looks into them.

For a body of known length and for one that ends with the transport, what is offered is the buffer,
cut at the length where there is one. For a chunked body it is the window that the last call of the
decoder found. A window that is partly handed out is offered again from where it stands, so a reader
has to keep its window in its buffer and not empty (`BodyReader.Tidy`), which reads do
(`Tidy.of_readSome`).

## The induction

`persist_sizes` goes along the rank of a reader, which every read lowers. A read of exactly what is
offered is what the two readings are compared with: it leaves the reader that both come to when all
of it is handed out, and the induction hypothesis is about that reader. That neither of the two
readings takes more than is offered before that is `Offers.persist`, by induction on what is left of
the offer.
-/

namespace HttpFraming

namespace BodyReader

/-- What the decoder of a reader has gone through are calls, and its window is in the buffer and not
empty. -/
def Tidy : BodyReader → Prop
  | bound _ | untilEof _ => True
  | chunked r => r.decoder.Reached ∧
      ∀ w ∈ r.window?, w.start < w.stop ∧ w.stop ≤ r.source.buffer.length

theorem tidy_bound {r : BoundBody} : Tidy (.bound r) := trivial

theorem tidy_untilEof {r : UntilEofBody} : Tidy (.untilEof r) := trivial

/-- Some octets are handed out in portions. The reader is `after k` when `k` of them are. -/
structure Offers (content : Octets) (after : Nat → BodyReader) : Prop where
  ne : content ≠ []
  readSome : ∀ k n, k < content.length → n ≠ 0 →
    (after k).readSome n = (.ok ((content.drop k).take n), after (min (k + n) content.length))

/-- What a reader does next, however much is asked for. -/
inductive Turn (r : BodyReader) : Prop
  | offers {content : Octets} {after : Nat → BodyReader} (offers : Offers content after)
    (readSome : ∀ n, n ≠ 0 →
      r.readSome n = (.ok (content.take n), after (min n content.length)))
    (tidy : ∀ k, k ≤ content.length → (after k).Tidy)
  | stops {e : ReadError} {r' : BodyReader}
    (readSome : ∀ n, n ≠ 0 → r.readSome n = (.error e, r')) (tidy : r'.Tidy)

end BodyReader

open BodyReader (Tidy Offers Turn tidy_bound tidy_untilEof readSome_bound readSome_chunked
  readSome_untilEof)

/-! ### The turns of each reader -/

namespace BoundBody

variable {r : BoundBody}

/-- What is buffered of a body of known length is handed out in portions of any sizes: a portion is
never longer than what is left of it. -/
theorem offers_of_ready (hready : r.ready ≠ []) : Offers r.ready fun k ↦ .bound (r.advance k) where
  ne := hready
  readSome k n hk hn := by
    have hrest : (r.advance k).ready ≠ [] := by
      rw [ready_advance]
      exact List.drop_eq_nil_iff.not.2 (Nat.not_le.2 hk)
    have hmin : k + min n (r.ready.length - k) = min (k + n) r.ready.length := by omega
    simp only [BodyReader.readSome, readSome_of_ready hrest hn, advance_advance, ready_advance,
      List.length_drop, hmin]

/-- A body of known length takes turns: it stops at its length, offers what is buffered, or passes
on what the transport says. -/
theorem turn (r : BoundBody) : Turn (.bound r) := by
  by_cases hlength : r.length ≤ r.totalRead
  · exact .stops (fun n hn ↦ readSome_bound (readSome_of_le hlength hn)) tidy_bound
  rcases hsupply : r.source.supply r.bufferSize with ⟨_ | _ | cause, s⟩
  · have hbuffer : s.buffer ≠ [] := Source.buffer_ne_nil_of_supply hsupply
    have hremaining : r.remaining ≠ 0 := Nat.sub_ne_zero_of_lt (Nat.not_le.1 hlength)
    have hready : ({ r with source := s } : BoundBody).ready ≠ [] :=
      List.take_eq_nil_iff.not.2 (not_or.2 ⟨hremaining, hbuffer⟩)
    exact .offers (offers_of_ready hready)
      (fun n hn ↦ readSome_bound (readSome_of_supply hlength hn hsupply)) fun _ _ ↦ tidy_bound
  · exact .stops (fun n hn ↦ readSome_bound (readSome_of_ended hlength hn hsupply)) tidy_bound
  · exact .stops (fun n hn ↦ readSome_bound (readSome_of_failed hlength hn hsupply)) tidy_bound

end BoundBody

namespace UntilEofBody

variable {r : UntilEofBody}

/-- What is buffered of a body that ends with the transport is handed out in portions of any
sizes. -/
theorem offers_of_buffer (hopen : r.finished = false) (hbuffer : r.source.buffer ≠ []) :
    Offers r.source.buffer fun k ↦ .untilEof (r.advance k) where
  ne := hbuffer
  readSome k n hk hn := by
    have hrest : (r.advance k).source.buffer ≠ [] := List.drop_eq_nil_iff.not.2 (Nat.not_le.2 hk)
    have hlength : (r.advance k).source.buffer.length = r.source.buffer.length - k :=
      List.length_drop
    have hmin : k + min n (r.source.buffer.length - k) = min (k + n) r.source.buffer.length := by
      omega
    have hread := readSome_of_supply (r := r.advance k) hopen hn (Source.supply_of_ne_nil hrest)
    rw [advance_advance, hlength, hmin] at hread
    rw [BodyReader.readSome, hread]
    rfl

/-- A body that ends with the connection takes turns: it stops when it has been told of the end, and
else offers what is buffered. -/
theorem turn (r : UntilEofBody) : Turn (.untilEof r) := by
  cases hopen : r.finished with
  | true =>
    exact .stops (fun n hn ↦ readSome_untilEof (readSome_of_finished hopen hn)) tidy_untilEof
  | false =>
    rcases hsupply : r.source.supply r.bufferSize with ⟨_ | _ | cause, s⟩
    · have hbuffer : s.buffer ≠ [] := Source.buffer_ne_nil_of_supply hsupply
      exact .offers (offers_of_buffer (r := { r with source := s }) hopen hbuffer)
        (fun n hn ↦ readSome_untilEof (readSome_of_supply hopen hn hsupply)) fun _ _ ↦ tidy_untilEof
    · exact .stops (fun n hn ↦ readSome_untilEof (readSome_of_ended hopen hn hsupply)) tidy_untilEof
    · exact .stops (fun n hn ↦ readSome_untilEof (readSome_of_failed hopen hn hsupply))
        tidy_untilEof

end UntilEofBody

namespace ChunkedBody

variable {r : ChunkedBody} {w : Window}

/-- A window is handed out in portions of any sizes, each from where the last one stopped. -/
theorem offers_of_window (hw : w.start < w.stop) (hstop : w.stop ≤ r.source.buffer.length) :
    Offers (w.octets r.source.buffer) fun k ↦ .chunked (r.after w k) where
  ne := by
    rw [← List.length_pos_iff, length_octets hstop]
    exact Nat.sub_pos_of_lt hw
  readSome k n hk hn := by
    rw [length_octets hstop] at hk ⊢
    have hlt : w.start + k < w.stop := Nat.add_lt_of_lt_sub' hk
    have hmin : k + min n (w.stop - (w.start + k)) = min (k + n) w.length := by
      rw [Window.length]
      omega
    have hafter : r.after w k = { r with window? := some ⟨w.start + k, w.stop⟩ } := if_pos hlt
    have hread := readSome_of_window (r := { r with window? := some ⟨w.start + k, w.stop⟩ }) rfl hn
    rw [after_after, octets_drop, Window.length, hmin] at hread
    rw [hafter, BodyReader.readSome, hread]

/-- A window that is partly handed out is kept in order: it is dropped as soon as nothing is left of
it. -/
theorem tidy_after (hd : r.decoder.Reached) (hstop : w.stop ≤ r.source.buffer.length) (k : Nat) :
    Tidy (.chunked (r.after w k)) := by
  unfold after
  split
  · rename_i hlt
    refine ⟨hd, fun w' hw' ↦ ?_⟩
    obtain rfl := Option.some.inj hw'
    exact ⟨hlt, hstop⟩
  · exact ⟨hd, fun w' hw' ↦ by cases hw'⟩

/-- A reader that has nothing to hand out and goes on decoding, be it after some rounds that were
not told of. -/
theorem turn_of_decode (r : ChunkedBody) {r₀ : ChunkedBody} (hd : r.decoder.Reached)
    (hwindow : r.window? = none) (hread : ∀ n, n ≠ 0 → r₀.readSome n = r.decode n) :
    Turn (.chunked r₀) := by
  have htidy {d : ChunkedDecoder} (hd : d.Reached) (s : Source) :
      Tidy (.chunked { r with source := s, decoder := d }) :=
    ⟨hd, fun w hw ↦ by cases hwindow.symm.trans hw⟩
  have hturn {n : Nat} (hn : n ≠ 0) {result : Except ReadError Octets} {r' : ChunkedBody}
      (h : r.decode n = (result, r')) :
      (BodyReader.chunked r₀).readSome n = (result, .chunked r') :=
    readSome_chunked ((hread n hn).trans h)
  cases r.round with
  | failed hsupply => exact .stops (fun n hn ↦ hturn hn (decode_of_failed hsupply n)) (htidy hd _)
  | ended hsupply => exact .stops (fun n hn ↦ hturn hn (decode_of_ended hsupply n)) (htidy hd _)
  | refused hsupply haction =>
    exact .stops (fun n hn ↦ hturn hn (decode_of_error hsupply haction n)) (htidy (.parse hd _) _)
  | complete hsupply haction hdone =>
    exact .stops (fun n hn ↦ hturn hn (decode_of_done hsupply haction hdone n))
      (htidy (.parse hd _) _)
  | @data s window hsupply haction =>
    obtain ⟨hne, hlength, -⟩ := hd.kept.lifeCycle.window s.buffer window haction
    obtain ⟨w, hw⟩ : ∃ w : Window, w = ⟨(r.decoder.parse s.buffer).consumed - window.length,
      (r.decoder.parse s.buffer).consumed⟩ := ⟨_, rfl⟩
    have hstart : w.start < w.stop := by
      rw [hw]
      exact Nat.sub_lt_self (List.length_pos_iff.2 hne) hlength
    have hstop : w.stop ≤ (r.found s).source.buffer.length := by
      rw [hw]
      exact ChunkedDecoder.consumed_parse_le r.decoder s.buffer
    refine .offers (offers_of_window hstart hstop) (fun n hn ↦ ?_) fun k _ ↦
      tidy_after (.parse hd _) hstop k
    rw [hturn hn (decode_of_data hsupply haction hw n), length_octets hstop]
    rfl
  | @more s hsupply haction hdone =>
    have hlt : (r.called s).source.total < r.source.total := total_called_lt hsupply haction
    -- The call found nothing. The reader behind it does what this one does, and its source has
    -- become smaller, on which the recursion is.
    refine turn_of_decode (r.called s) (.parse hd _) hwindow fun n hn ↦ ?_
    rw [hread n hn, decode_of_not_done hsupply haction hdone]
termination_by r.source.total

/-- A chunked body takes turns: it offers its window, and where it has none, what the decoder does
next decides. -/
theorem turn (r : ChunkedBody) (hr : Tidy (.chunked r)) : Turn (.chunked r) := by
  obtain ⟨hd, hw⟩ := hr
  cases hwindow : r.window? with
  | some w =>
    obtain ⟨hstart, hstop⟩ := hw w hwindow
    refine .offers (offers_of_window hstart hstop) (fun n hn ↦ ?_) fun k _ ↦ tidy_after hd hstop k
    rw [readSome_chunked (readSome_of_window hwindow hn), length_octets hstop]
  | none =>
    cases hstage : r.decoder.draft.stage with
    | reading => exact turn_of_decode r hd hwindow fun n ↦ readSome_of_reading hwindow hstage
    | complete =>
      exact .stops (fun n hn ↦ readSome_chunked (readSome_of_complete hwindow hstage hn)) ⟨hd, hw⟩
    | failed e =>
      exact .stops (fun n hn ↦ readSome_chunked (readSome_of_error hwindow hstage hn)) ⟨hd, hw⟩

end ChunkedBody

/-! ### Reading on after failures -/

namespace BodyReader

variable {r r' : BodyReader} {n : Nat} {content : Octets} {after : Nat → BodyReader}
  {cause : Failure}

/-- **Every reader takes turns**, whatever its framing. -/
theorem turn (hr : r.Tidy) : Turn r := by
  cases r with
  | bound r => exact r.turn
  | chunked r => exact r.turn hr
  | untilEof r => exact r.turn

/-- A read keeps a reader tidy. -/
theorem Tidy.of_readSome {result : Except ReadError Octets} (hr : r.Tidy)
    (h : r.readSome n = (result, r')) : r'.Tidy := by
  by_cases hn : n = 0
  · rw [hn, readSome_zero] at h
    obtain ⟨-, rfl⟩ := Prod.mk.inj h
    exact hr
  · cases turn hr with
    | offers offers hread htidy =>
      obtain ⟨-, rfl⟩ := Prod.mk.inj ((hread n hn).symm.trans h)
      exact htidy _ (Nat.min_le_right _ _)
    | stops hread htidy =>
      obtain ⟨-, rfl⟩ := Prod.mk.inj ((hread n hn).symm.trans h)
      exact htidy

/-- Reads into destinations of some sizes, and goes on when the transport fails, until another error
is returned. -/
def persist (r : BodyReader) (sizes : ReadSizes) : Drained :=
  match _h : r.readSome (sizes.size 0) with
  | (.error (.transport _), r') => r'.persist sizes.tail
  | (.error e, r') => ⟨[], e, r'⟩
  | (.ok data, r') => (r'.persist sizes.tail).prepend data
termination_by r.rank
decreasing_by
  · exact rank_lt_of_transport _h
  · exact rank_readSome_lt (sizes.ne_zero 0) _h

variable {sizes : ReadSizes}

/-- What a read hands out comes before the rest. -/
theorem persist_of_ok {data : Octets} (h : r.readSome (sizes.size 0) = (.ok data, r')) :
    r.persist sizes = (r'.persist sizes.tail).prepend data := by
  rw [persist]
  split
  · rename_i hread
    cases h.symm.trans hread
  · rename_i hread
    cases h.symm.trans hread
  · rename_i hread
    cases h.symm.trans hread
    rfl

/-- A failure of the transport is passed over. -/
theorem persist_of_transport (h : r.readSome (sizes.size 0) = (.error (.transport cause), r')) :
    r.persist sizes = r'.persist sizes.tail := by
  rw [persist]
  split
  · rename_i hread
    cases h.symm.trans hread
    rfl
  · rename_i hnot hread
    cases h.symm.trans hread
    exact absurd rfl (hnot cause)
  · rename_i hread
    cases h.symm.trans hread

/-- Any other error is where the reading stops. -/
theorem persist_of_stop {e : ReadError} (he : ∀ cause, e ≠ .transport cause)
    (h : r.readSome (sizes.size 0) = (.error e, r')) : r.persist sizes = ⟨[], e, r'⟩ := by
  rw [persist]
  split
  · rename_i hread
    cases h.symm.trans hread
    exact absurd rfl (he _)
  · rename_i hread
    cases h.symm.trans hread
    rfl
  · rename_i hread
    cases h.symm.trans hread

/-- Where the transport does not fail, to go on after failures is to read as usual. -/
theorem persist_eq_drain (h : ∀ cause, (r.drain sizes).stop ≠ .transport cause) :
    r.persist sizes = r.drain sizes := by
  fun_induction drain r sizes with
  | case1 r sizes e r' hread => exact persist_of_stop h hread
  | case2 r sizes data r' hread ih => rw [persist_of_ok hread, ih h]

theorem Drained.prepend_prepend (a b : Octets) (d : Drained) :
    (d.prepend b).prepend a = d.prepend (a ++ b) := by
  simp [prepend]

/-- What is offered is handed out before anything else, if it does not matter in what portions the
rest is read. -/
theorem Offers.persist (h : Offers content after)
    (hrest : ∀ sizes sizes',
      (after content.length).persist sizes = (after content.length).persist sizes')
    (sizes sizes' : ReadSizes) {k : Nat} (hk : k ≤ content.length) :
    (after k).persist sizes = ((after content.length).persist sizes').prepend (content.drop k) := by
  rcases Nat.eq_or_lt_of_le hk with rfl | hlt
  · rw [List.drop_length, hrest sizes sizes']
    rfl
  · have hn : sizes.size 0 ≠ 0 := sizes.ne_zero 0
    have hdrop : (content.drop k).drop (sizes.size 0) =
        content.drop (min (k + sizes.size 0) content.length) := by
      rw [List.drop_drop, List.drop_eq_drop_min]
    rw [persist_of_ok (h.readSome k _ hlt hn),
      Offers.persist h hrest sizes.tail sizes' (Nat.min_le_right _ _), Drained.prepend_prepend,
      ← hdrop, List.take_append_drop]
termination_by content.length - k
decreasing_by omega

/-- **The sizes of the destinations do not matter**, whatever the transport does. -/
theorem persist_sizes (r : BodyReader) (hr : r.Tidy) (sizes sizes' : ReadSizes) :
    r.persist sizes = r.persist sizes' := by
  cases turn hr with
  | @offers content after offers hread htidy =>
    have hlength : content.length ≠ 0 := List.length_eq_zero_iff.not.2 offers.ne
    -- A read of exactly what is offered, which has no other part than to lower the rank: the
    -- induction hypothesis is about the reader that it leaves.
    have hall : r.readSome content.length = (.ok content, after content.length) := by
      rw [hread _ hlength, List.take_length, Nat.min_self]
    have hrest (sizes sizes' : ReadSizes) :
        (after content.length).persist sizes = (after content.length).persist sizes' :=
      persist_sizes _ (htidy _ (Nat.le_refl _)) sizes sizes'
    have hpersist (sizes : ReadSizes) :
        r.persist sizes = ((after content.length).persist sizes').prepend content := by
      have hfirst : r.persist sizes = (after 0).persist sizes := by
        rw [persist_of_ok (hread _ (sizes.ne_zero 0)), persist_of_ok (offers.readSome 0 _
          (Nat.pos_of_ne_zero hlength) (sizes.ne_zero 0)), Nat.zero_add, List.drop_zero]
      rw [hfirst, offers.persist hrest sizes sizes' (Nat.zero_le _), List.drop_zero]
    rw [hpersist sizes, hpersist sizes']
  | @stops e r' hread htidy =>
    have hfirst (sizes : ReadSizes) : r.readSome (sizes.size 0) = (.error e, r') :=
      hread _ (sizes.ne_zero 0)
    -- A failure is passed over, so the reader that it leaves is read on. Any other stop is the end
    -- of both readings.
    by_cases he : ∃ cause, e = .transport cause
    · obtain ⟨cause, rfl⟩ := he
      rw [persist_of_transport (hfirst sizes), persist_of_transport (hfirst sizes')]
      exact persist_sizes r' htidy sizes.tail sizes'.tail
    · have hstop : ∀ cause, e ≠ .transport cause := not_exists.1 he
      rw [persist_of_stop hstop (hfirst sizes), persist_of_stop hstop (hfirst sizes')]
termination_by r.rank
decreasing_by
  · exact rank_readSome_lt hlength hall
  · exact rank_lt_of_transport (hfirst sizes)

end BodyReader

end HttpFraming
