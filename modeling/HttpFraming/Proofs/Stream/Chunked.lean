import HttpFraming.Proofs.Stream.Call
import HttpFraming.Proofs.Stream.Drain

/-!
# Reading a chunked body from a source

A reader of a chunked body feeds its decoder the pieces in which the source delivers, and hands out
what the decoder finds, in whatever portions are asked for. All reads together deliver what a
decoder finds in the whole stream: `BodyReader.drain_chunked_of_stream`.

## What is still to come

What a reader is to deliver can be told from where it stands: what is left of its window, and what
its decoder finds in the pieces to come (`ChunkedBody.prospect`). A read takes from the front of
that, and leaves the rest as it is. So the prospect is the invariant of reading. `Prospect` holds
the data, the decoder as it will be after them, and the octets that will follow, and the last two
never change from one read to the next.

Behind a window the buffer may hold octets that are not decoded yet. The pieces ahead therefore
begin with what is left of the buffer after the window (`ChunkedBody.ahead`), and the window itself
counts as found.

## From calls to the stream

* One call: `ChunkedDecoder.Found` says what a call over the buffer has to do with the prospect, in
  the cases in which a call can end (`found_parse`).
* One read: `reads_decode` goes along the rounds of a read until a call finds data or stops. It is
  the step that `BodyReader.Delivers` asks for (`ChunkedBody.delivers`).
* All reads: `HttpFraming.Proofs.Stream.Drain` repeats the step, for any sizes of destinations.
* The whole stream: the pieces do not matter to a decoder, so what is found in the pieces of a
  source is found in its stream. Where the stream is refused, the pieces may be refused with another
  error, but they are never accepted, which is why an error is known by its kind only
  (`readsChunkedBodyOf_of_stops`).
-/

namespace HttpFraming

namespace ChunkedDecoder

/-- What a decoder finds in some pieces: the data, the decoder after them, and the octets that
follow those it consumes. -/
structure Prospect where
  data : Octets
  decoder : ChunkedDecoder
  rest : Octets

/-- Some data that is found before. -/
def Prospect.prepend (data : Octets) (p : Prospect) : Prospect :=
  { p with data := data ++ p.data }

theorem Prospect.prepend_prepend (a b : Octets) (p : Prospect) :
    (p.prepend b).prepend a = p.prepend (a ++ b) := by
  simp [prepend]

/-- What a decoder finds in some pieces. -/
def prospect (d : ChunkedDecoder) (pieces : List Octets) : Prospect :=
  ⟨(d.decodePieces pieces).body, (d.decodePieces pieces).decoder,
    pieces.flatten.drop (d.decodePieces pieces).consumed⟩

variable {d : ChunkedDecoder} {piece : Octets} {pieces : List Octets}

theorem Progress.append_assoc (P Q R : Progress) :
    (P.append Q).append R = P.append (Q.append R) := by
  simp [append, Nat.add_assoc]

theorem stay_append (d : ChunkedDecoder) (P : Progress) : d.stay.append P = P := by
  simp [Progress.append, stay]

/-- An empty piece is nothing to a decoder. -/
@[simp] theorem prospect_nil_cons (d : ChunkedDecoder) (pieces : List Octets) :
    d.prospect ([] :: pieces) = d.prospect pieces := by
  have hpieces : d.decodePieces ([] :: pieces) = d.decodePieces pieces := by
    rw [decodePieces, decode_nil]
    exact stay_append d _
  rw [prospect, hpieces, List.flatten_cons, List.nil_append, prospect]

/-- What is found in one call comes before what is found in the next. -/
theorem prospect_cons_of_not_done (hd : Live d) (hne : piece ≠ [])
    (h : (d.parse piece).decoder.done = false) :
    d.prospect (piece :: pieces) =
      ((d.parse piece).decoder.prospect (piece.drop (d.parse piece).consumed :: pieces)).prepend
        (d.parse piece).window := by
  have hgo : ¬ (piece = [] ∨ d.done = true) := by simp [hne, done_of_live hd]
  have hdecode : d.decode piece = (d.parse piece).toProgress.append
      ((d.parse piece).decoder.decode (piece.drop (d.parse piece).consumed)) := by
    rw [decode, dif_neg hgo]
    exact dif_neg (by simp [h])
  have hpieces : d.decodePieces (piece :: pieces) = (d.parse piece).toProgress.append
      ((d.parse piece).decoder.decodePieces (piece.drop (d.parse piece).consumed :: pieces)) := by
    rw [decodePieces, hdecode, Progress.append_assoc]
    rfl
  have hle := d.consumed_parse_le piece
  rw [prospect, hpieces, prospect, Prospect.prepend, List.flatten_cons, List.flatten_cons,
    ← List.drop_append_of_le_length hle, List.drop_drop]
  rfl

/-- A decoder that is done with a call finds nothing more. -/
theorem prospect_cons_of_done (hd : Live d) (hne : piece ≠ [])
    (h : (d.parse piece).decoder.done = true) :
    d.prospect (piece :: pieces) = ⟨(d.parse piece).window, (d.parse piece).decoder,
      piece.drop (d.parse piece).consumed ++ pieces.flatten⟩ := by
  have hgo : ¬ (piece = [] ∨ d.done = true) := by simp [hne, done_of_live hd]
  have hdecode : d.decode piece = (d.parse piece).toProgress := by
    rw [decode, dif_neg hgo]
    exact dif_pos h
  have hpieces : d.decodePieces (piece :: pieces) = (d.parse piece).toProgress := by
    have hlater : (d.parse piece).toProgress.decoder.decodePieces pieces =
        (d.parse piece).decoder.stay := decodePieces_of_done h pieces
    rw [decodePieces, hdecode, hlater]
    exact (d.parse piece).toProgress.append_stay
  have hle := d.consumed_parse_le piece
  rw [prospect, hpieces, List.flatten_cons, ← List.drop_append_of_le_length hle]
  rfl

@[simp] theorem prospect_nil (d : ChunkedDecoder) : d.prospect [] = ⟨[], d, []⟩ := rfl

/-- What a decoder finds that needs more than what is buffered, or has more to find in it. -/
theorem prospect_pieces_of_not_done {s : Source} (hd : Live d) (hne : s.buffer ≠ [])
    (h : (d.parse s.buffer).decoder.done = false) (max : Nat) :
    d.prospect (s.pieces max) =
      ((d.parse s.buffer).decoder.prospect
        ((s.consume (d.parse s.buffer).consumed).pieces max)).prepend (d.parse s.buffer).window :=
  prospect_cons_of_not_done hd hne h

/-- What a decoder finds that comes to the end of its body in what is buffered. -/
theorem prospect_pieces_of_done {s : Source} (hs : s.Flows) (hd : Live d) (hne : s.buffer ≠ [])
    (h : (d.parse s.buffer).decoder.done = true) (max : Nat) :
    d.prospect (s.pieces max) = ⟨(d.parse s.buffer).window, (d.parse s.buffer).decoder,
      (s.consume (d.parse s.buffer).consumed).stream⟩ := by
  rw [Source.pieces, prospect_cons_of_done hd hne h, Delivery.flatten_pieces hs]
  rfl

/-- What a call over what is buffered has to do with what is found in all. -/
inductive Found (p : Prospect) (s : Source) (max : Nat) : Decoded → Prop
  | data {d : ChunkedDecoder} {front window rest : Octets} (live : Live d) (ne : window ≠ [])
    (split : s.buffer = front ++ (window ++ rest))
    (found : p = (d.prospect ((s.consume (front ++ window).length).pieces max)).prepend window) :
    Found p s max ⟨d, (front ++ window).length, .data window⟩
  | more {d : ChunkedDecoder} {n : Nat} (live : Live d)
    (found : p = d.prospect ((s.consume n).pieces max)) : Found p s max ⟨d, n, .none⟩
  | complete {d : ChunkedDecoder} {n : Nat} (verdict : d.verdict = .accepted d.trailers)
    (found : p = ⟨[], d, (s.consume n).stream⟩) : Found p s max ⟨d, n, .none⟩
  | failed {d : ChunkedDecoder} {n : Nat} {e : ParseError} (verdict : d.verdict = .refused e)
    (found : p = ⟨[], d, (s.consume n).stream⟩) : Found p s max ⟨d, n, .error e⟩

/-- To see to it that the buffer holds something does not change what a decoder finds. -/
theorem found_parse {s s' : Source} {max : Nat} (hd : Live d) (hs : s.Flows)
    (h : s.supply max = (.ready, s')) :
    s'.Flows ∧ Found (d.prospect (s.pieces max)) s' max (d.parse s'.buffer) := by
  have hsupplied := Source.supplied_supply hs max
  rw [h] at hsupplied
  cases hsupplied with
  | ready hs' hne _ hpieces =>
    have hprospect : d.prospect (s.pieces max) = d.prospect (s'.pieces max) := by
      rcases hpieces with hpieces | hpieces
      · rw [hpieces]
      · rw [hpieces, prospect_nil_cons]
    have hgo := fun h ↦ prospect_pieces_of_not_done hd hne h max
    have hend := fun h ↦ prospect_pieces_of_done hs' hd hne h max
    have hcalled := called_parse hd s'.buffer
    rw [hprospect]
    generalize d.parse s'.buffer = called at hgo hend hcalled
    refine ⟨hs', ?_⟩
    cases hcalled with
    | data live ne split => exact .data live ne split (hgo (done_of_live live))
    | more live => exact .more live (hgo (done_of_live live))
    | complete verdict => exact .complete verdict (hend (of_verdict_accepted verdict).1)
    | failed verdict => exact .failed verdict (hend (of_verdict_refused verdict).1)

end ChunkedDecoder

namespace ChunkedBody

open ChunkedDecoder (Live Prospect)

variable {r : ChunkedBody} {w : Window} {n : Nat}

/-- How much of the buffer is decoded. -/
def decoded (r : ChunkedBody) : Nat :=
  match r.window? with
  | some w => w.stop
  | none => 0

/-- The data that is found and not handed out. -/
def held (r : ChunkedBody) : Octets :=
  match r.window? with
  | some w => w.octets r.source.buffer
  | none => []

/-- The pieces that are to be decoded. -/
def ahead (r : ChunkedBody) : List Octets :=
  (r.source.consume r.decoded).pieces r.bufferSize

/-- What a reader is to find. -/
def prospect (r : ChunkedBody) : Prospect :=
  (r.decoder.prospect r.ahead).prepend r.held

/-- A reader that is not done: its source flows, its decoder can go on, and its window, if there is
one, is in the buffer and not empty. -/
structure Sound (r : ChunkedBody) : Prop where
  live : Live r.decoder
  flows : r.source.Flows
  window : ∀ w ∈ r.window?, w.start < w.stop ∧ w.stop ≤ r.source.buffer.length

theorem sound_new (options : ReadOptions) {s : Source} (hs : s.Flows) : Sound (.new options s) where
  live := ChunkedDecoder.live_new options.limits
  flows := hs
  window w hw := by cases hw

theorem length_octets {buffer : Octets} (h : w.stop ≤ buffer.length) :
    (w.octets buffer).length = w.length := by
  simp only [Window.octets, List.length_take, List.length_drop, Window.length]
  omega

/-- A window that begins later has lost its first octets. -/
theorem octets_drop (w : Window) (n : Nat) (buffer : Octets) :
    (⟨w.start + n, w.stop⟩ : Window).octets buffer = (w.octets buffer).drop n := by
  rw [Window.octets, Window.octets, List.drop_take, List.drop_drop, Window.length, Window.length,
    Nat.sub_add_eq]

/-- A window is its first `n` octets and the window that begins after them. -/
theorem take_append_octets (w : Window) (n : Nat) (buffer : Octets) :
    (w.octets buffer).take n ++ (⟨w.start + n, w.stop⟩ : Window).octets buffer =
      w.octets buffer := by
  rw [octets_drop, List.take_append_drop]

/-- Where less is asked for than the window has, the window is cut. -/
theorem handOut_of_lt (h : w.start + n < w.stop) :
    r.handOut w n = ((w.octets r.source.buffer).take n,
      { r with window? := some ⟨w.start + n, w.stop⟩ }) := by
  have hmin : min n w.length = n := by
    rw [Window.length]
    omega
  simp only [handOut, hmin, h, if_true]

/-- Where all of the window is asked for, it is handed out and consumed. -/
theorem handOut_of_le (hstop : w.stop ≤ r.source.buffer.length) (h : w.stop ≤ w.start + n) :
    r.handOut w n = (w.octets r.source.buffer,
      { r with source := r.source.consume w.stop, window? := none }) := by
  have hle : w.length ≤ n := Nat.sub_le_iff_le_add'.2 h
  have hend : ¬ w.start + w.length < w.stop := by
    rw [Window.length]
    omega
  have htake : (w.octets r.source.buffer).take n = w.octets r.source.buffer :=
    List.take_of_length_le (length_octets hstop ▸ hle)
  simp only [handOut, htake, Nat.min_eq_right hle, hend, if_false]

/-- To hand out a part of a window keeps the rest of it. -/
theorem handOut_spec (hd : Live r.decoder) (hs : r.source.Flows) (hw : w.start < w.stop)
    (hstop : w.stop ≤ r.source.buffer.length) (hn : n ≠ 0) :
    (r.handOut w n).1 ≠ [] ∧ (r.handOut w n).2.Sound ∧
      (r.decoder.prospect ((r.source.consume w.stop).pieces r.bufferSize)).prepend
          (w.octets r.source.buffer) =
        (r.handOut w n).2.prospect.prepend (r.handOut w n).1 := by
  have hne : w.octets r.source.buffer ≠ [] := by
    rw [← List.length_pos_iff, length_octets hstop]
    exact Nat.sub_pos_of_lt hw
  rcases Nat.lt_or_ge (w.start + n) w.stop with hlt | hle
  · have hwindow : ∀ w' ∈ some (⟨w.start + n, w.stop⟩ : Window),
        w'.start < w'.stop ∧ w'.stop ≤ r.source.buffer.length := by
      intro w' hw'
      obtain rfl := Option.some.inj hw'
      exact ⟨hlt, hstop⟩
    have hout : (w.octets r.source.buffer).take n ≠ [] := by simp [hne, hn]
    have hprospect : ({ r with window? := some ⟨w.start + n, w.stop⟩ } : ChunkedBody).prospect =
        (r.decoder.prospect ((r.source.consume w.stop).pieces r.bufferSize)).prepend
          ((⟨w.start + n, w.stop⟩ : Window).octets r.source.buffer) := rfl
    rw [handOut_of_lt hlt]
    refine ⟨hout, ⟨hd, hs, hwindow⟩, ?_⟩
    rw [hprospect, Prospect.prepend_prepend, take_append_octets]
  · rw [handOut_of_le hstop hle]
    exact ⟨hne, ⟨hd, hs, fun w hw ↦ by cases hw⟩, rfl⟩

/-- A reader that is to find some data, and then to be left with a decoder and some octets. -/
inductive Has (d : ChunkedDecoder) (rest : Octets) : BodyReader → Octets → Prop
  | mk {r : ChunkedBody} {data : Octets} (sound : r.Sound)
    (prospect : r.prospect = ⟨data, d, rest⟩) : Has d rest (.chunked r) data

/-- How a reader stops whose decoder stops as `d`, with the octets `rest` after it. -/
inductive Stops (d : ChunkedDecoder) (rest : Octets) : ReadError → BodyReader → Prop
  | complete {r : ChunkedBody} (verdict : d.verdict = .accepted r.trailers)
    (flows : r.source.Flows) (stream : r.source.stream = rest) : Stops d rest .eof (.chunked r)
  | refused {e : ParseError} {r : ChunkedBody} (verdict : d.verdict = .refused e) :
    Stops d rest (.parse e) (.chunked r)
  | unfinished {r : ChunkedBody} (verdict : d.verdict = .unfinished) :
    Stops d rest .unexpectedEof (.chunked r)

/-- One read does of a reader what it should that is to find `p`. -/
def Reads (p : Prospect) (result : Except ReadError Octets × ChunkedBody) : Prop :=
  BodyReader.Reads (Has p.decoder p.rest) (Stops p.decoder p.rest) p.data
    (result.1, .chunked result.2)

/-- To hand out of a window is a read of what the window and the pieces after it have. -/
theorem reads_handOut (hd : Live r.decoder) (hs : r.source.Flows) (hw : w.start < w.stop)
    (hstop : w.stop ≤ r.source.buffer.length) (hn : n ≠ 0) :
    Reads ((r.decoder.prospect ((r.source.consume w.stop).pieces r.bufferSize)).prepend
      (w.octets r.source.buffer)) (.ok (r.handOut w n).1, (r.handOut w n).2) := by
  obtain ⟨hne, hsound, hprospect⟩ := handOut_spec hd hs hw hstop hn
  rw [hprospect]
  exact .some hne (.mk hsound rfl)

/-- **A read of a reader without a window**: calls of the decoder until one finds data or stops. -/
theorem reads_decode (hd : Live r.decoder) (hs : r.source.Flows) (hn : n ≠ 0) :
    Reads (r.decoder.prospect (r.source.pieces r.bufferSize)) (r.decode n) := by
  fun_induction decode r n with
  | case1 r cause s hsupply =>
    have hsupplied := Source.supplied_supply hs r.bufferSize
    rw [hsupply] at hsupplied
    cases hsupplied
  | case2 r s hsupply =>
    have hsupplied := Source.supplied_supply hs r.bufferSize
    rw [hsupply] at hsupplied
    cases hsupplied with
    | ended _ _ _ hpieces =>
      have hverdict : r.decoder.verdict = .unfinished := by
        rw [ChunkedDecoder.verdict, hd.stage]
      rw [hpieces, ChunkedDecoder.prospect_nil_cons, ChunkedDecoder.prospect_nil]
      exact .stop (.unfinished hverdict)
  | case3 r s hsupply d window haction out r' hout =>
    obtain ⟨hs', hfound⟩ := ChunkedDecoder.found_parse hd hs hsupply
    change ChunkedDecoder.Found _ s _ d at hfound
    -- From here on the call counts only by what it comes to, not by how it is computed.
    clear_value d
    cases hfound with
    | @data d' front octets rest live hne split found =>
      obtain rfl : octets = window := ChunkedAction.data.inj haction
      have hlength : s.buffer.length = (front ++ octets).length + rest.length := by
        simp [split, Nat.add_assoc]
      have hpos : 0 < octets.length := List.length_pos_iff.2 hne
      have hstart : (front ++ octets).length - octets.length = front.length := by simp
      have hwindow : (⟨front.length, (front ++ octets).length⟩ : Window).octets s.buffer =
          octets := by
        simp [Window.octets, Window.length, split]
      have hreads := reads_handOut (r := { r with source := s, decoder := d' })
        (w := ⟨front.length, (front ++ octets).length⟩) live hs' (by simp [hpos])
        (by simp only [hlength]; omega) hn
      -- The reader counts back from what is consumed, which is the front and the window, by the
      -- length of the window, and so begins after the front.
      simp only [hstart] at hout
      simp only [hout, hwindow] at hreads
      rw [found]
      exact hreads
    | more | complete | failed => cases haction
  | case4 r s hsupply d e haction =>
    obtain ⟨hs', hfound⟩ := ChunkedDecoder.found_parse hd hs hsupply
    change ChunkedDecoder.Found _ s _ d at hfound
    clear_value d
    cases hfound with
    | failed verdict found =>
      obtain rfl := ChunkedAction.error.inj haction
      rw [found]
      exact .stop (.refused verdict)
    | data | more | complete => cases haction
  | case5 r s hsupply d haction r' hdone =>
    obtain ⟨hs', hfound⟩ := ChunkedDecoder.found_parse hd hs hsupply
    change ChunkedDecoder.Found _ s _ d at hfound
    clear_value d
    cases hfound with
    | complete verdict found =>
      rw [found]
      exact .stop (.complete verdict hs' rfl)
    | more live => cases (ChunkedDecoder.done_of_live live).symm.trans hdone
    | data | failed => cases haction
  | case6 r s hsupply d haction r' hdone ih =>
    obtain ⟨hs', hfound⟩ := ChunkedDecoder.found_parse hd hs hsupply
    change ChunkedDecoder.Found _ s _ d at hfound
    clear_value d
    cases hfound with
    | more live found =>
      rw [found]
      exact ih live hs'
    | complete verdict => exact absurd (ChunkedDecoder.of_verdict_accepted verdict).1 hdone
    | data | failed => cases haction

/-- **One read of a chunked body.** -/
theorem reads_readSome (hr : r.Sound) (hn : n ≠ 0) : Reads r.prospect (r.readSome n) := by
  rw [readSome, if_neg hn]
  cases hwindow : r.window? with
  | some w =>
    obtain ⟨hlt, hstop⟩ := hr.window w hwindow
    have hprospect : r.prospect =
        (r.decoder.prospect ((r.source.consume w.stop).pieces r.bufferSize)).prepend
          (w.octets r.source.buffer) := by
      simp only [prospect, ahead, held, decoded, hwindow]
    rw [hprospect]
    exact reads_handOut hr.live hr.flows hlt hstop hn
  | none =>
    have hprospect : r.prospect = r.decoder.prospect (r.source.pieces r.bufferSize) := by
      simp only [prospect, ahead, held, decoded, hwindow]
      rfl
    simp only [hr.live.stage, hprospect]
    exact reads_decode hr.live hr.flows hn

/-- **A chunked body is delivered**: the data its decoder finds in the pieces to come. -/
theorem delivers (d : ChunkedDecoder) (rest : Octets) :
    BodyReader.Delivers (Has d rest) (Stops d rest) where
  reads := by
    rintro _ _ n hn ⟨sound, prospect⟩
    have hreads := reads_readSome sound hn
    rw [prospect] at hreads
    exact hreads

/-- Where a decoder accepts what is in the stream, a body is read to its end. -/
theorem readsToEnd_new {options : ReadOptions} {s : Source} (hs : s.Flows) {trailers : Headers}
    {n : Nat}
    (h : ((ChunkedDecoder.new options.limits).decode s.stream).outcome = (.accepted trailers, n)) :
    BodyReader.ReadsToEnd (.chunked (.new options s))
      ((ChunkedDecoder.new options.limits).decode s.stream).body (s.stream.drop n) := by
  obtain ⟨hbody, hanticipates⟩ := ChunkedDecoder.anticipates_decodePieces
    (s.pieces options.bufferSize) (ChunkedDecoder.live_new options.limits)
  rw [Source.flatten_pieces hs, h] at hanticipates
  rw [Source.flatten_pieces hs] at hbody
  have houtcome : ((ChunkedDecoder.new options.limits).decodePieces
      (s.pieces options.bufferSize)).outcome = (.accepted trailers, n) := by
    rcases hanticipates.eq_or_refused with heq | ⟨e, f, -, hf⟩
    · exact heq
    · cases hf
  obtain ⟨hverdict, hconsumed⟩ := Prod.mk.inj houtcome
  have hprospect : prospect (.new options s) =
      ⟨((ChunkedDecoder.new options.limits).decode s.stream).body,
        ((ChunkedDecoder.new options.limits).decodePieces (s.pieces options.bufferSize)).decoder,
        s.stream.drop n⟩ := by
    rw [← hbody, ← hconsumed, ← Source.flatten_pieces hs options.bufferSize]
    rfl
  refine (delivers _ _).readsToEnd (.mk (sound_new options hs) hprospect) fun hstops ↦ ?_
  cases hstops with
  | complete _ flows stream => exact ⟨rfl, flows, stream⟩
  | refused verdict => cases verdict.symm.trans hverdict
  | unfinished verdict => cases verdict.symm.trans hverdict

end ChunkedBody

/-! ### The whole stream -/

/-- What is read of a chunked body is what a decoder finds that is driven over `w`. -/
structure ReadsChunkedBodyOf (limits : Limits) (w : Octets) (r : BodyReader.Drained) : Prop where
  data : r.data = ((ChunkedDecoder.new limits).decode w).body
  eof_iff : r.stop = .eof ↔
    ((ChunkedDecoder.new limits).decode w).decoder.done = true ∧
      ((ChunkedDecoder.new limits).decode w).decoder.error? = none
  trailers : r.stop = .eof →
    r.reader.trailers? = some ((ChunkedDecoder.new limits).decode w).decoder.trailers
  /-- What follows the body is left in the source. -/
  rest : r.stop = .eof → r.reader.source.buffer ++ r.reader.source.unread =
    w.drop ((ChunkedDecoder.new limits).decode w).consumed
  parse_iff : (∃ e, r.stop = .parse e) ↔
    ((ChunkedDecoder.new limits).decode w).decoder.done = true ∧
      ∃ e, ((ChunkedDecoder.new limits).decode w).decoder.error? = some e
  unexpectedEof_iff : r.stop = .unexpectedEof ↔
    ((ChunkedDecoder.new limits).decode w).decoder.done = false

/-- How a reader stops, told by the decoder that is driven over the whole stream. Its outcome
anticipates the one in pieces: the two are equal, or both are refusals. -/
theorem readsChunkedBodyOf_of_stops {limits : Limits} {w : Octets} {d : ChunkedDecoder}
    {n : Nat} {r : BodyReader.Drained}
    (hdata : r.data = ((ChunkedDecoder.new limits).decode w).body)
    (hstops : ChunkedBody.Stops d (w.drop n) r.stop r.reader)
    (hd : Verdict.Anticipates (d.verdict, n) ((ChunkedDecoder.new limits).decode w).outcome) :
    ReadsChunkedBodyOf limits w r := by
  obtain ⟨data, stop, reader⟩ := r
  have hsplit := hd.eq_or_refused
  generalize houtcome : ((ChunkedDecoder.new limits).decode w).outcome = u at hsplit
  obtain ⟨hverdict, hconsumed⟩ := Prod.mk.inj houtcome
  cases hstops with
  | @complete r verdict _ stream =>
    rw [verdict] at hsplit
    obtain rfl : (.accepted r.trailers, n) = u := by simpa using hsplit
    obtain ⟨hdone, herror, htrailers⟩ := ChunkedDecoder.of_verdict_accepted hverdict
    constructor
    · exact hdata
    · simp [hdone, herror]
    · intro _
      rw [htrailers]
      rfl
    · intro _
      rw [hconsumed]
      exact stream
    · simp [herror]
    · simp [hdone]
  | @refused e r verdict =>
    -- In one piece the stream may be refused with another error than in several.
    obtain ⟨f, hf⟩ : ∃ f, u.1 = .refused f := by
      rcases hsplit with rfl | ⟨-, f, -, hf⟩
      · exact ⟨e, verdict⟩
      · exact ⟨f, hf⟩
    obtain ⟨hdone, herror⟩ := ChunkedDecoder.of_verdict_refused (hverdict.trans hf)
    constructor
    · exact hdata
    · simp [herror]
    · simp
    · simp
    · simp [hdone, herror]
    · simp [hdone]
  | @unfinished r verdict =>
    rw [verdict] at hsplit
    obtain rfl : (.unfinished, n) = u := by simpa using hsplit
    obtain ⟨hdone, herror⟩ := ChunkedDecoder.of_verdict_unfinished hverdict
    constructor
    · exact hdata
    · simp [hdone]
    · simp
    · simp
    · simp [hdone]
    · simp [hdone]

/-- **A chunked body is read from a source as it is decoded from the stream**, however much of the
stream is buffered, in whatever fragments the rest is delivered, however much is asked for at a
time, and whatever the sizes of the destinations. -/
theorem BodyReader.drain_chunked_of_stream (options : ReadOptions) {s : Source} (hs : s.Flows)
    (sizes : ReadSizes) :
    ReadsChunkedBodyOf options.limits s.stream
      ((BodyReader.chunked (.new options s)).drain sizes) := by
  have hlive := ChunkedDecoder.live_new options.limits
  have hsound := ChunkedBody.sound_new options hs
  obtain ⟨hdata, hstops⟩ := (ChunkedBody.delivers _ _).drain (.mk hsound rfl) sizes
  obtain ⟨hbody, hanticipates⟩ :=
    ChunkedDecoder.anticipates_decodePieces (s.pieces options.bufferSize) hlive
  rw [Source.flatten_pieces hs] at hbody hanticipates
  refine readsChunkedBodyOf_of_stops (hdata.trans hbody) ?_ hanticipates
  rw [← Source.flatten_pieces hs options.bufferSize]
  exact hstops

/-- A chunk with the data `ab`, the last chunk, and one octet more. One octet is buffered, another
is delivered after an interruption, and two octets are asked for at a time, with destinations of one
octet each. -/
theorem BodyReader.drain_chunked_of_stream_one_chunk :
    (⟨[0x32], [.octets [0x0A], .failure ⟨.interrupted, ""⟩,
        .octets [0x61, 0x62, 0x0A, 0x30, 0x0A, 0x0A, 0x58]], 0⟩ : Source).Flows ∧
      ReadsChunkedBodyOf .standard [0x32, 0x0A, 0x61, 0x62, 0x0A, 0x30, 0x0A, 0x0A, 0x58]
        ((BodyReader.chunked (.new ⟨.standard, 2⟩ ⟨[0x32], [.octets [0x0A],
          .failure ⟨.interrupted, ""⟩, .octets [0x61, 0x62, 0x0A, 0x30, 0x0A, 0x0A, 0x58]],
            0⟩)).drain (.const 1 (by decide))) := by
  have hs : (⟨[0x32], [.octets [0x0A], .failure ⟨.interrupted, ""⟩,
      .octets [0x61, 0x62, 0x0A, 0x30, 0x0A, 0x0A, 0x58]], 0⟩ : Source).Flows := by decide
  exact ⟨hs, drain_chunked_of_stream ⟨.standard, 2⟩ hs (.const 1 (by decide))⟩

end HttpFraming
