import HttpFraming.Proofs.Loop
import HttpFraming.Proofs.Stream.Conservation
import HttpFraming.Proofs.Stream.Failures
import HttpFraming.Stream.Loops

/-!
# Loops of readers come to an end

A loop comes to an end if each of its rounds leaves it or makes something smaller that cannot become
smaller forever (`Loop.exists_within`). What that is differs between the loops.

* A read of the transport is repeated when it was interrupted, and the script has one interruption
  less then (`Reception.within_attempt`).
* To read on in a head, something must have come that the transport does not deliver again
  (`HeadReader.readWithin_eq`).
* A decoder that is called again has used some of the buffer (`ChunkedBody.moves_of_consume`).
* After decoding there is data to hand out, which is never empty, or the decoder is done, or the
  whole buffer is used, so that less of the stream is left (`ChunkedBody.Consumed`). That none of it
  remains undecoded is what makes the next round ask the transport, and not go over the same octets
  again.

A loop that comes to an end has done what `readHead` and `ChunkedBody.readSome` say.

## Two forms of one algorithm

The readers are defined by recursion, with a proof that it ends, and that form is used everywhere
else. Here they are compared with loops as they are programmed (`HttpFraming.Stream.Loops`), which
do not know whether they will end: they are given a number of rounds, and return nothing if that is
not enough. To show that the loop returns, and returns the same, is to show that it ends, within a
number of rounds that is known beforehand.

## The loop in a loop

A read of a chunked body has two loops, one in the other: the outer fills the buffer, and the inner
decodes what is buffered. `Consumed` is what is known when the inner loop is left, and is all the
outer one relies on. The outer measure is `ChunkedBody.effort`, which is the length of the stream,
or nothing at all where the next round is certain to return. So there is one round more than there
are octets.
-/

namespace HttpFraming

open Loop (Step within)

/-! ### Reads of a transport -/

namespace Reception

open Delivery (interruptions)

/-- **A read is repeated as often as it is interrupted**, and no more. -/
theorem within_attempt (max : Nat) (script : List Delivery) {rounds : Nat}
    (h : interruptions script < rounds) :
    within (attempt max) rounds (script, 0) = some (ofScript max script) := by
  have hmoves (state : List Delivery × Nat) (_ : True) :
      Loop.Moves (attempt max) (fun _ ↦ True)
        (fun state r ↦ r = { ofScript max state.1 with
          reads := state.2 + (ofScript max state.1).reads })
        (fun state ↦ interruptions state.1) state := by
    obtain ⟨script, reads⟩ := state
    rcases script with _ | ⟨data | cause, rest⟩
    · exact .leave rfl rfl
    · exact .leave rfl rfl
    · by_cases hkind : cause.kind = .interrupted
      · have hmore : interruptions (.failure cause :: rest) = interruptions rest + 1 :=
          List.countP_cons_of_pos (by simp [Delivery.interrupts, hkind])
        have hround : attempt max (.failure cause :: rest, reads) =
            some (.again (rest, reads + 1)) := if_pos hkind
        -- The interruption that was met is gone from the script, and the reads so far are counted
        -- along.
        refine .again hround trivial (by simp only [hmore]; omega) fun r hr ↦ ?_
        rw [hr]
        simp only [ofScript, hkind, if_true, Nat.add_assoc, Nat.add_comm 1]
      · refine .leave (if_neg hkind) ?_
        simp only [ofScript, hkind, if_false]
  obtain ⟨r, hwithin, hr⟩ := Loop.exists_within hmoves (script, 0) trivial h
  rw [hwithin, hr, Nat.zero_add]

end Reception

/-! ### Heads -/

namespace HeadReader

variable {H : Type} [ReadableHead H] {p : HeadParser H} {s : Source} {bufferSize : Nat}
  {received : Bool}

/-- Where the buffer is filled and the loop goes on, the transport has less to deliver. -/
theorem of_refill_again {state : HeadParser H × Source × Bool}
    (h : refill bufferSize p s received = .again state) :
    ∃ s', state = (p, s', received) ∧ s'.unread.length < s.unread.length := by
  unfold refill at h
  split at h
  · cases h
  · cases h
  · rename_i n s' hfill
    obtain ⟨data, hlength, -, -, hunread⟩ := Source.exists_of_fill_ok hfill
    cases h
    refine ⟨s', rfl, ?_⟩
    rw [hunread, List.length_append]
    omega

/-- To go on with a parser that is not done is to fill the buffer. -/
theorem readWith_of_not_done (bufferSize : Nat) (received : Bool) {fed : HeadParser H × Source}
    (hfed : feedBuffer p s = fed) (hdone : fed.1.done = false) :
    readWith bufferSize p s received =
      match refill bufferSize fed.1 fed.2 (received || !s.buffer.isEmpty) with
      | .leave result => result
      | .again (p', s', received') => readWith bufferSize p' s' received' := by
  subst hfed
  rw [readWith, refill, if_neg (Bool.eq_false_iff.1 hdone)]
  rcases hfill : (feedBuffer p s).2.fill bufferSize with ⟨cause | _ | n, s'⟩ <;> split <;>
    simp_all

theorem readWith_of_done {fed : HeadParser H × Source} (hfed : feedBuffer p s = fed)
    (hdone : fed.1.done = true) :
    readWith bufferSize p s received = (fed.1.toExcept.mapError .parse, fed.2) := by
  subst hfed
  rw [readWith, if_pos hdone]

/-- A round that fills the buffer leaves the loop with what is read, or goes on. -/
theorem moves_of_refill {fed : HeadParser H × Source} (hfed : feedBuffer p s = fed)
    (hdone : fed.1.done = false)
    (hround : round bufferSize (p, s, received) =
      some (refill bufferSize fed.1 fed.2 (received || !s.buffer.isEmpty))) :
    Loop.Moves (round bufferSize) (fun state : HeadParser H × Source × Bool ↦ state.1.done = false)
      (fun state result ↦ result = readWith bufferSize state.1 state.2.1 state.2.2)
      (fun state ↦ state.2.1.unread.length) (p, s, received) := by
  have hread := readWith_of_not_done bufferSize received hfed hdone
  cases hrefill : refill bufferSize fed.1 fed.2 (received || !s.buffer.isEmpty) with
  | leave result =>
    rw [hrefill] at hround hread
    exact .leave hround hread.symm
  | again state =>
    obtain ⟨s', rfl, hlt⟩ := of_refill_again hrefill
    rw [hrefill] at hround hread
    have hunread : fed.2.unread = s.unread := by rw [← hfed, unread_feedBuffer]
    rw [hunread] at hlt
    exact .again hround hdone hlt fun result hresult ↦ hresult.trans hread.symm

/-- **A head is read in rounds** each of which but the last brings something that was not there. -/
theorem readWithin_eq (options : ReadOptions) (s : Source) {rounds : Nat}
    (h : s.unread.length < rounds) :
    readWithin rounds options s = some (readHead H options s) := by
  have hmoves (state : HeadParser H × Source × Bool) (hdone : state.1.done = false) :
      Loop.Moves (round options.bufferSize) (fun state ↦ state.1.done = false)
        (fun state result ↦ result = readWith options.bufferSize state.1 state.2.1 state.2.2)
        (fun state ↦ state.2.1.unread.length) state := by
    obtain ⟨p, s, received⟩ := state
    rcases Bool.eq_false_or_eq_true s.buffer.isEmpty with hempty | hempty
    -- With nothing buffered the loop does not call the parser, which a call on nothing would leave
    -- as it is.
    · have hfed : feedBuffer p s = (p, s) := if_pos hempty
      refine moves_of_refill hfed hdone ?_
      simp only [round, hempty, if_true, Bool.not_true, Bool.or_false]
    · have hfed : feedBuffer p s = ((p.parse s.buffer).1, s.consume (p.parse s.buffer).2) :=
        if_neg (Bool.eq_false_iff.1 hempty)
      rcases Bool.eq_false_or_eq_true (p.parse s.buffer).1.done with hdone' | hdone'
      · refine .leave ?_ (readWith_of_done hfed hdone').symm
        simp only [round, hempty, hdone', if_true]
        rfl
      · refine moves_of_refill hfed hdone' ?_
        simp only [round, hempty, hdone', Bool.not_false, Bool.or_true]
        rfl
  obtain ⟨result, hwithin, hresult⟩ :=
    Loop.exists_within hmoves (HeadParser.new options.limits, s, false) rfl h
  rw [readWithin, hwithin, hresult]
  rfl

end HeadReader

/-! ### Bodies in chunks -/

namespace ChunkedDecoder

variable {d : ChunkedDecoder} {data : Octets}

/-- A call that finds nothing and leaves the decoder done has come to the end of the body. -/
theorem stage_of_action_none (h : (d.parse data).action = .none)
    (hdone : (d.parse data).decoder.done = true) :
    (d.parse data).decoder.draft.stage = .complete := by
  have hreturns := d.returns_parse data
  generalize d.parse data = r at hreturns h hdone ⊢
  cases hreturns with
  | refused | failed | malformed | data => cases h
  | none _ hstage =>
    cases hend : (d.afterFed data).draft.stage with
    | reading =>
      rw [done, hend] at hdone
      cases hdone
    | complete => rfl
    | failed e => exact absurd hend (hstage e)

end ChunkedDecoder

/-- What is buffered is a part of the stream. -/
theorem Source.length_buffer_le (s : Source) : s.buffer.length ≤ s.stream.length := by
  rw [stream, List.length_append]
  exact Nat.le_add_right _ _

/-- To see to it that something is buffered moves octets, and loses none. -/
theorem Source.stream_of_supply {s s' : Source} {max : Nat} {supplied : Supply}
    (h : s.supply max = (supplied, s')) : s'.stream = s.stream := by
  obtain ⟨received, hbuffer, hunread⟩ := received_supply h
  rw [stream, stream, hbuffer, hunread, List.append_assoc]

namespace ChunkedBody

variable {r r' : ChunkedBody} {n : Nat}

/-- A reader whose next round returns something. -/
def Settled (r : ChunkedBody) : Prop :=
  r.window? ≠ none ∨ r.decoder.done = true

/-- What decoding what is buffered leaves: reading on comes to the same, and something can be
returned, or all of the buffer is used. -/
structure Consumed (r r' : ChunkedBody) : Prop where
  tidy : (BodyReader.chunked r').Tidy
  readSome : ∀ n, n ≠ 0 → r'.readSome n = r.readSome n
  script : r'.source.script = r.source.script
  length : r'.source.buffer.length ≤ r.source.buffer.length
  settled : r'.Settled ∨ r'.source.buffer = []

/-- Where something is buffered and the decoder is not done, it is called. -/
theorem consumeRound_of_ne_nil (hbuffer : r.source.buffer ≠ []) (hdone : r.decoder.done = false) :
    r.consumeRound = match (r.decoder.parse r.source.buffer).action with
      | .data window => some (.leave { r.found r.source with
          window? := some ⟨(r.decoder.parse r.source.buffer).consumed - window.length,
            (r.decoder.parse r.source.buffer).consumed⟩ })
      | .none => some (.again (r.called r.source))
      | .error _ => some (.leave (r.called r.source)) := by
  have hempty : r.source.buffer.isEmpty = false := by simpa using hbuffer
  rw [consumeRound, hempty, hdone]
  rfl

section Calls

variable (hr : (BodyReader.chunked r).Tidy) (hwindow : r.window? = none)
  (hbuffer : r.source.buffer ≠ []) (hdone : r.decoder.done = false)

include hwindow hbuffer hdone in
/-- What a reader reads that has called its decoder, and found nothing. -/
theorem readSome_of_called (haction : (r.decoder.parse r.source.buffer).action = .none)
    (hn : n ≠ 0) : (r.called r.source).readSome n = r.readSome n := by
  have hsupply : r.source.supply r.bufferSize = (.ready, r.source) :=
    Source.supply_of_ne_nil hbuffer
  rw [readSome_of_reading hwindow (stage_of_not_done hdone) hn]
  rcases Bool.eq_false_or_eq_true (r.called r.source).decoder.done with hdone' | hdone'
  · have hstage := ChunkedDecoder.stage_of_action_none haction hdone'
    rw [decode_of_done hsupply haction hdone',
      readSome_of_complete (r := r.called r.source) hwindow hstage hn]
  · rw [decode_of_not_done hsupply haction hdone',
      readSome_of_reading (r := r.called r.source) hwindow (stage_of_not_done hdone') hn]

include hr hwindow in
theorem tidy_called : (BodyReader.chunked (r.called r.source)).Tidy :=
  ⟨.parse hr.1 _, fun w hw ↦ by cases hwindow.symm.trans hw⟩

/-- A call of the decoder makes no more of the buffer. -/
theorem length_called_le :
    (r.called r.source).source.buffer.length ≤ r.source.buffer.length := by
  rw [called, Source.consume, List.length_drop]
  exact Nat.sub_le _ _

include hbuffer in
/-- A call that finds nothing makes less of the buffer. -/
theorem length_called_lt (haction : (r.decoder.parse r.source.buffer).action = .none) :
    (r.called r.source).source.buffer.length < r.source.buffer.length := by
  have hpos : 0 < (r.decoder.parse r.source.buffer).consumed :=
    ChunkedDecoder.parse_progress r.decoder hbuffer fun e he ↦ by cases haction.symm.trans he
  have hbuffered : 0 < r.source.buffer.length := List.length_pos_iff.2 hbuffer
  rw [called, Source.consume, List.length_drop]
  omega

include hwindow hbuffer hdone in
/-- Where the decoder has found nothing, what another round leaves is left. -/
theorem consumed_of_none (haction : (r.decoder.parse r.source.buffer).action = .none)
    (h : Consumed (r.called r.source) r') : Consumed r r' where
  tidy := h.tidy
  readSome n hn := (h.readSome n hn).trans (readSome_of_called hwindow hbuffer hdone haction hn)
  script := h.script
  length := Nat.le_trans h.length length_called_le
  settled := h.settled

include hr hwindow hbuffer hdone

/-- A window that the decoder has found can be handed out, as it is not empty. -/
theorem consumed_of_data {window : Octets}
    (haction : (r.decoder.parse r.source.buffer).action = .data window) :
    Consumed r { r.found r.source with
      window? := some ⟨(r.decoder.parse r.source.buffer).consumed - window.length,
        (r.decoder.parse r.source.buffer).consumed⟩ } := by
  have hsupply : r.source.supply r.bufferSize = (.ready, r.source) :=
    Source.supply_of_ne_nil hbuffer
  obtain ⟨hne, hle, -⟩ := hr.1.kept.lifeCycle.window r.source.buffer window haction
  have hlt := Nat.sub_lt_self (List.length_pos_iff.2 hne) hle
  refine ⟨⟨.parse hr.1 _, fun w hw ↦ ?_⟩, fun n hn ↦ ?_, rfl, Nat.le_refl _, .inl (.inl ?_)⟩
  · obtain rfl := Option.some.inj hw
    exact ⟨hlt, ChunkedDecoder.consumed_parse_le r.decoder r.source.buffer⟩
  · rw [readSome_of_window rfl hn, readSome_of_reading hwindow (stage_of_not_done hdone) hn,
      decode_of_data hsupply haction rfl n]
    rfl
  · exact Option.some_ne_none _

/-- An error that the decoder has found is returned. -/
theorem consumed_of_error {e : ParseError}
    (haction : (r.decoder.parse r.source.buffer).action = .error e) :
    Consumed r (r.called r.source) := by
  have hsupply : r.source.supply r.bufferSize = (.ready, r.source) :=
    Source.supply_of_ne_nil hbuffer
  have hdone' : (r.called r.source).decoder.done = true :=
    ChunkedDecoder.done_of_action_error haction
  refine ⟨tidy_called hr hwindow, fun n hn ↦ ?_, rfl, length_called_le, .inl (.inr hdone')⟩
  rw [readSome_of_error (r := r.called r.source) hwindow
    (ChunkedDecoder.stage_of_action_error haction) hn,
    readSome_of_reading hwindow (stage_of_not_done hdone) hn, decode_of_error hsupply haction n]

end Calls

/-- A round of decoding what is buffered. -/
theorem moves_of_consume (hr : (BodyReader.chunked r).Tidy) (hwindow : r.window? = none) :
    Loop.Moves consumeRound
      (fun r ↦ (BodyReader.chunked r).Tidy ∧ r.window? = none) Consumed
      (fun r ↦ r.source.buffer.length) r := by
  by_cases hbuffer : r.source.buffer = []
  · refine .leave (if_pos (by simp [hbuffer])) ?_
    exact ⟨hr, fun _ _ ↦ rfl, rfl, Nat.le_refl _, .inr hbuffer⟩
  rcases Bool.eq_false_or_eq_true r.decoder.done with hdone | hdone
  · refine .leave (if_pos (by simp [hdone])) ?_
    exact ⟨hr, fun _ _ ↦ rfl, rfl, Nat.le_refl _, .inl (.inr hdone)⟩
  have hround := consumeRound_of_ne_nil hbuffer hdone
  cases haction : (r.decoder.parse r.source.buffer).action with
  | data window =>
    rw [haction] at hround
    exact .leave hround (consumed_of_data hr hwindow hbuffer hdone haction)
  | error e =>
    rw [haction] at hround
    exact .leave hround (consumed_of_error hr hwindow hbuffer hdone haction)
  | none =>
    rw [haction] at hround
    exact .again hround ⟨tidy_called hr hwindow, hwindow⟩ (length_called_lt hbuffer haction)
      fun _ ↦ consumed_of_none hwindow hbuffer hdone haction

/-- **What is buffered is decoded in rounds** each of which but the last uses some of it. -/
theorem exists_consumeWithin (hr : (BodyReader.chunked r).Tidy) (hwindow : r.window? = none)
    {rounds : Nat} (h : r.source.buffer.length < rounds) :
    ∃ r', consumeWithin rounds r = some r' ∧ Consumed r r' :=
  Loop.exists_within (fun _ hr ↦ moves_of_consume hr.1 hr.2) r ⟨hr, hwindow⟩ h

/-! #### Filling and decoding -/

/-- A reader that has seen to it that something is buffered reads the same. -/
theorem readSome_of_ready {s : Source} (hwindow : r.window? = none)
    (hstage : r.decoder.draft.stage = .reading)
    (hsupply : r.source.supply r.bufferSize = (.ready, s)) (hn : n ≠ 0) :
    ({ r with source := s } : ChunkedBody).readSome n = r.readSome n := by
  have hready : s.supply r.bufferSize = (.ready, s) :=
    Source.supply_of_ne_nil (Source.buffer_ne_nil_of_supply hsupply)
  rw [readSome_of_reading hwindow hstage hn,
    readSome_of_reading (r := { r with source := s }) hwindow hstage hn]
  rw [decode_of_ready hready, decode_of_ready hsupply]
  rfl

/-- How much there is to do until something is returned. -/
def effort (r : ChunkedBody) : Nat :=
  if r.window?.isSome || r.decoder.done then 0 else r.source.stream.length + 1

/-- Where something can be returned, nothing else is to be done. -/
theorem effort_of_settled (h : r.Settled) : r.effort = 0 := by
  refine if_pos ?_
  rcases h with hwindow | hdone
  · rw [Option.isSome_iff_ne_none.2 hwindow, Bool.true_or]
  · rw [hdone, Bool.or_true]

/-- No more rounds are needed than there are octets, and one. -/
theorem effort_le (r : ChunkedBody) : r.effort ≤ r.source.stream.length + 1 := by
  unfold effort
  split
  · exact Nat.zero_le _
  · exact Nat.le_refl _

/-- What decoding leaves takes less effort. -/
theorem Consumed.effort_lt (h : Consumed r r') (hbuffer : r.source.buffer ≠ []) :
    r'.effort < r.source.stream.length + 1 := by
  rcases h.settled with hsettled | hnil
  · rw [effort_of_settled hsettled]
    exact Nat.succ_pos _
  · have hunread : r'.source.unread = r.source.unread := congrArg Delivery.octetsOf h.script
    have hlength : 0 < r.source.buffer.length := List.length_pos_iff.2 hbuffer
    have hle := r'.effort_le
    rw [Source.stream, hnil, hunread, List.nil_append] at hle
    rw [Source.stream, List.length_append]
    omega

/-- What is decoded is not there any more. -/
theorem Consumed.length_stream_le (h : Consumed r r') :
    r'.source.stream.length ≤ r.source.stream.length := by
  have hunread : r'.source.unread = r.source.unread := congrArg Delivery.octetsOf h.script
  rw [Source.stream, Source.stream, hunread, List.length_append, List.length_append]
  exact Nat.add_le_add_right h.length _

/-- A window that is there is handed out. -/
theorem readRound_of_window {rounds : Nat} {w : Window} (hwindow : r.window? = some w)
    (hw : w.start < w.stop) :
    readRound rounds n r = some (.leave (.ok ((w.octets r.source.buffer).take n),
      r.after w (min n w.length))) := by
  have hfilter : (r.window?.filter fun w ↦ w.start < w.stop) = some w := by
    rw [hwindow, Option.filter_some, if_pos (by simpa using hw)]
  simp only [readRound, hfilter, handOut_eq]

section Rounds

variable {rounds : Nat} {s : Source} (hwindow : r.window? = none)
include hwindow

theorem filter_of_none : (r.window?.filter fun w ↦ w.start < w.stop) = none := by
  rw [hwindow]
  rfl

theorem readRound_of_error {e : ParseError} (hstage : r.decoder.draft.stage = .failed e) :
    readRound rounds n r = some (.leave (.error (.parse e), r)) := by
  simp only [readRound, filter_of_none hwindow, hstage]

theorem readRound_of_complete (hstage : r.decoder.draft.stage = .complete) :
    readRound rounds n r = some (.leave (.error .eof, r)) := by
  simp only [readRound, filter_of_none hwindow, hstage]

variable (hstage : r.decoder.draft.stage = .reading)
include hstage

theorem readRound_of_failed {cause : Failure}
    (hsupply : r.source.supply r.bufferSize = (.failed cause, s)) :
    readRound rounds n r =
      some (.leave (.error (.transport cause), { r with source := s })) := by
  simp only [readRound, filter_of_none hwindow, hstage, hsupply]

theorem readRound_of_ended (hsupply : r.source.supply r.bufferSize = (.ended, s)) :
    readRound rounds n r = some (.leave (.error .unexpectedEof, { r with source := s })) := by
  simp only [readRound, filter_of_none hwindow, hstage, hsupply]

theorem readRound_of_ready (hsupply : r.source.supply r.bufferSize = (.ready, s)) :
    readRound rounds n r = (consumeWithin rounds { r with source := s }).map .again := by
  simp only [readRound, filter_of_none hwindow, hstage, hsupply]

end Rounds

/-- To decode what is there leaves less to do. -/
theorem moves_of_ready {rounds : Nat} {s : Source} (hr : (BodyReader.chunked r).Tidy)
    (hwindow : r.window? = none) (hstage : r.decoder.draft.stage = .reading)
    (hsupply : r.source.supply r.bufferSize = (.ready, s)) (hn : n ≠ 0)
    (hrounds : r.source.stream.length < rounds) :
    Loop.Moves (readRound rounds n)
      (fun r ↦ (BodyReader.chunked r).Tidy ∧ r.source.stream.length < rounds)
      (fun r result ↦ result = r.readSome n) effort r := by
  have hready : s.buffer ≠ [] := Source.buffer_ne_nil_of_supply hsupply
  have htidy : (BodyReader.chunked { r with source := s }).Tidy :=
    ⟨hr.1, fun w hw ↦ by cases hwindow.symm.trans hw⟩
  have hbuffered : s.buffer.length ≤ s.stream.length := s.length_buffer_le
  have hfull : r.effort = s.stream.length + 1 := by
    rw [effort, hwindow, ChunkedDecoder.done, hstage, Source.stream_of_supply hsupply]
    rfl
  rw [← Source.stream_of_supply hsupply] at hrounds
  obtain ⟨r', hwithin, hconsumed⟩ :=
    exists_consumeWithin htidy hwindow (Nat.lt_of_le_of_lt hbuffered hrounds)
  have hround : readRound rounds n r = some (.again r') := by
    rw [readRound_of_ready hwindow hstage hsupply, hwithin, Option.map_some]
  -- One round of the outer loop is all rounds of the inner one: the inner loop has come to its end,
  -- and something is decoded.
  refine .again hround ⟨hconsumed.tidy, ?_⟩ ?_ fun result hresult ↦ ?_
  · exact Nat.lt_of_le_of_lt hconsumed.length_stream_le hrounds
  · rw [hfull]
    exact hconsumed.effort_lt hready
  · rw [hresult, hconsumed.readSome n hn, readSome_of_ready hwindow hstage hsupply hn]

/-- A round of filling and decoding. -/
theorem moves_of_read {rounds : Nat} (hr : (BodyReader.chunked r).Tidy) (hn : n ≠ 0)
    (hrounds : r.source.stream.length < rounds) :
    Loop.Moves (readRound rounds n)
      (fun r ↦ (BodyReader.chunked r).Tidy ∧ r.source.stream.length < rounds)
      (fun r result ↦ result = r.readSome n) effort r := by
  rcases Option.eq_none_or_eq_some r.window? with hwindow | ⟨w, hwindow⟩
  · cases hstage : r.decoder.draft.stage with
    | failed e =>
      exact .leave (readRound_of_error hwindow hstage) (readSome_of_error hwindow hstage hn).symm
    | complete =>
      exact .leave (readRound_of_complete hwindow hstage)
        (readSome_of_complete hwindow hstage hn).symm
    | reading =>
      have hreading : r.readSome n = r.decode n := readSome_of_reading hwindow hstage hn
      rcases hsupply : r.source.supply r.bufferSize with ⟨_ | _ | cause, s⟩
      · exact moves_of_ready hr hwindow hstage hsupply hn hrounds
      · exact .leave (readRound_of_ended hwindow hstage hsupply)
          (hreading.trans (decode_of_ended hsupply n)).symm
      · exact .leave (readRound_of_failed hwindow hstage hsupply)
          (hreading.trans (decode_of_failed hsupply n)).symm
  · exact .leave (readRound_of_window hwindow (hr.2 w hwindow).1)
      (readSome_of_window hwindow hn).symm

/-- **A read of a chunked body is over after some rounds.** -/
theorem readSomeWithin_eq (hr : (BodyReader.chunked r).Tidy) (n : Nat) {rounds : Nat}
    (h : r.source.stream.length + 1 < rounds) :
    r.readSomeWithin rounds n = some (r.readSome n) := by
  by_cases hn : n = 0
  · rw [hn]
    rfl
  · have heffort : r.effort < rounds := Nat.lt_of_le_of_lt r.effort_le h
    obtain ⟨result, hwithin, hresult⟩ := Loop.exists_within
      (fun r hr ↦ moves_of_read hr.1 hn hr.2) r ⟨hr, Nat.lt_of_succ_lt h⟩ heffort
    rw [readSomeWithin, if_neg hn, hwithin, hresult]

end ChunkedBody

end HttpFraming
