import HttpFraming.Proofs.Stream.Asking
import HttpFraming.Proofs.Stream.Failures

/-!
# Bodies are read patiently

The readers of bodies ask their transport in one place only: where there has to be something in the
buffer, and there is nothing. So the question is whether they get there too often. A body that is
received already must be returned without asking, or a reader waits for octets that the other side
has no reason to send. `BodyReader.readsPatiently` says that this does not happen, for bodies of any
framing, any sizes of destinations and any transport.

## When enough was received

What is enough is told of all octets received, and not of the reader (`BodySize.Decided`): as many
as the body is long, or so many that a decoder that is given all of them at once is done, be it with
an error. A body that ends with the connection is never decided by octets. `BodySize.Whole` leaves
out the errors, and is what makes the next read return data or the end.

## What ties a reader to what it has received

* A body of a known length counts: what it has received is what it has handed out and what is
  buffered (`BoundBody.Tracks`).
* A chunked body does not know how much it needs, but its decoder does. What the decoder would come
  to with all that is buffered (`ChunkedBody.outlook`) is what a decoder comes to that is given
  everything received so far (`ChunkedBody.Tracks`), in some pieces, however it was cut on the way
  and wherever reading has stopped to hand out data. So if the last line feed has been received, it
  is found before anything more is asked for.

The second is the reason why the outlook is kept, and not the decoder. A decoder that has stopped
after a window has not seen what is behind it, though that was received, but the outlook has. To
hand out of a window, to call the decoder and to consume what it has read do not change the outlook
(`outlook_after`, `outlook_called`), and only what is supplied does.

## From rounds to reads

The log of a read is defined beside the reader (`asks`, `decodeAsks`), in the same recursion, and
`ChunkedBody.Tracks.decode` goes along it, with one line for each case of a round. Reads one after
the other have their logs one after the other (`BodyReader.Tracks.calls`).
-/

namespace HttpFraming

/-! ### When nothing more is needed -/

/-- The octets `w` begin with a whole body, or with what no further octets could make one. -/
def BodySize.Decided (limits : Limits) (w : Octets) : BodySize → Prop
  | contentLength n => n ≤ w.length
  | transferEncoding => ((ChunkedDecoder.new limits).decode w).decoder.done = true
  | untilEof => False

/-- The octets `w` begin with a whole body. -/
def BodySize.Whole (limits : Limits) (w : Octets) : BodySize → Prop
  | contentLength n => n ≤ w.length
  | transferEncoding => ((ChunkedDecoder.new limits).decode w).decoder.done = true ∧
      ((ChunkedDecoder.new limits).decode w).decoder.error? = none
  | untilEof => False

namespace Source

variable {s t u : Source} {max : Nat} {enough : Octets → Prop} {supplied : Supply}

/-- The log of seeing to it that the buffer holds something. -/
def asks (s : Source) : List Source :=
  if s.buffer.isEmpty then [s] else []

theorem asks_of_ne_nil (h : s.buffer ≠ []) : s.asks = [] := by
  rw [asks, if_neg (by simpa using h)]

theorem eq_fill_of_supply (hbuffer : s.buffer = []) (h : s.supply max = (supplied, t)) :
    t = (s.fill max).2 := by
  rw [supply_of_nil hbuffer] at h
  exact (congrArg Prod.snd h).symm

theorem Patient.consumed {asked : List Source} (h : Patient max enough s t asked u) (n : Nat) :
    Patient max enough s t asked (u.consume n) := by
  have hconsumed := h.trans (.consume u n)
  rwa [List.append_nil] at hconsumed

/-- To supply is patient, if an empty buffer means that more is needed. -/
theorem Patient.supply (h : t.supply max = (supplied, u))
    (henough : t.buffer = [] → ¬ enough (s.receivedBy t)) :
    Patient max enough s t t.asks u := by
  by_cases hbuffer : t.buffer = []
  · rw [asks, if_pos (by simpa using hbuffer), eq_fill_of_supply hbuffer h]
    exact .fill hbuffer (henough hbuffer)
  · rw [supply_of_ne_nil hbuffer] at h
    obtain ⟨-, rfl⟩ := Prod.mk.inj h
    rw [asks_of_ne_nil hbuffer]
    exact .refl t

/-- What is supplied is received, and comes behind what is buffered. -/
theorem received_of_supply (hsuffix : t.unread <:+ s.unread) (h : t.supply max = (supplied, u)) :
    ∃ brought, u.buffer = t.buffer ++ brought ∧ s.receivedBy u = s.receivedBy t ++ brought ∧
      u.unread <:+ s.unread := by
  obtain ⟨brought, hbuffer, hunread⟩ := received_supply h
  exact ⟨brought, hbuffer, receivedBy_append hsuffix hunread⟩

end Source

/-! ### Bodies of a known length -/

namespace BoundBody

variable {r : BoundBody} {s : Source} {n : Nat}

/-- The log of a read. -/
def asks (r : BoundBody) (n : Nat) : List Source :=
  if n = 0 ∨ r.length ≤ r.totalRead then [] else r.source.asks

/-- A reader of a source that was `s` at first: what it has received is what it has handed out and
what is buffered. -/
structure Tracks (s : Source) (r : BoundBody) : Prop where
  suffix : r.source.unread <:+ s.unread
  length_eq : (s.receivedBy r.source).length = r.totalRead + r.source.buffer.length

/-- A new reader has received what is buffered, and handed out nothing. -/
theorem tracks_new (options : ReadOptions) (length : Nat) (s : Source) :
    Tracks s (.new options length s) where
  suffix := List.suffix_refl _
  length_eq := by
    rw [new, Source.receivedBy_self, Nat.zero_add]

/-- What is supplied is received and buffered. -/
theorem Tracks.supply (hr : r.Tracks s) {supplied : Source.Supply} {t : Source}
    (h : r.source.supply r.bufferSize = (supplied, t)) : Tracks s { r with source := t } := by
  obtain ⟨brought, hbuffer, hreceived, hsuffix⟩ := Source.received_of_supply hr.suffix h
  refine ⟨hsuffix, ?_⟩
  rw [hreceived, List.length_append, hr.length_eq, hbuffer, List.length_append, Nat.add_assoc]

/-- What is handed out is counted, and no longer buffered. -/
theorem Tracks.advance (hr : r.Tracks s) {k : Nat} (hk : k ≤ r.source.buffer.length) :
    (r.advance k).Tracks s where
  suffix := hr.suffix
  length_eq := by
    have hreceived : s.receivedBy (r.advance k).source = s.receivedBy r.source := rfl
    have hbuffer : (r.advance k).source.buffer.length = r.source.buffer.length - k :=
      List.length_drop
    have htotal : (r.advance k).totalRead = r.totalRead + k := rfl
    rw [hreceived, hr.length_eq, hbuffer, htotal]
    omega

/-- Whoever is at the end of the buffer and not of the body has not received enough. -/
theorem Tracks.not_enough (hr : r.Tracks s) (hlength : ¬ r.length ≤ r.totalRead)
    (hbuffer : r.source.buffer = []) : ¬ r.length ≤ (s.receivedBy r.source).length := by
  rwa [hr.length_eq, hbuffer, List.length_nil, Nat.add_zero]

theorem ready_le (r : BoundBody) : r.ready.length ≤ r.source.buffer.length :=
  List.length_take_le' _ _

/-- **A read of a body of a known length is patient.** -/
theorem Tracks.readSome (hr : r.Tracks s) (n : Nat) :
    s.Patient r.bufferSize (fun w ↦ r.length ≤ w.length) r.source (r.asks n)
        (r.readSome n).2.source ∧ (r.readSome n).2.Tracks s := by
  by_cases hn : n = 0
  · rw [asks, if_pos (.inl hn), BoundBody.readSome, if_pos hn]
    exact ⟨.refl _, hr⟩
  by_cases hlength : r.length ≤ r.totalRead
  · rw [asks, if_pos (.inr hlength), readSome_of_le hlength hn]
    exact ⟨.refl _, hr⟩
  rw [asks, if_neg (not_or.2 ⟨hn, hlength⟩)]
  rcases hsupply : r.source.supply r.bufferSize with ⟨supplied, t⟩
  have hasked : s.Patient r.bufferSize (fun w ↦ r.length ≤ w.length) r.source r.source.asks t :=
    .supply hsupply (hr.not_enough hlength)
  have ht := hr.supply hsupply
  cases supplied with
  | ready =>
    rw [readSome_of_supply hlength hn hsupply]
    refine ⟨?_, ht.advance ((Nat.min_le_right _ _).trans (ready_le _))⟩
    exact hasked.consumed _
  | ended =>
    rw [readSome_of_ended hlength hn hsupply]
    exact ⟨hasked, ht⟩
  | failed cause =>
    rw [readSome_of_failed hlength hn hsupply]
    exact ⟨hasked, ht⟩

/-- A read does not change how long the body is. -/
theorem length_readSome (r : BoundBody) (n : Nat) : (r.readSome n).2.length = r.length := by
  unfold BoundBody.readSome
  split
  · rfl
  · split
    · rfl
    · split <;> rfl

/-- A read does not change how much is asked for at a time. -/
theorem bufferSize_readSome (r : BoundBody) (n : Nat) :
    (r.readSome n).2.bufferSize = r.bufferSize := by
  unfold BoundBody.readSome
  split
  · rfl
  · split
    · rfl
    · split <;> rfl

/-- With the whole body received, a read returns some of it, or its end. -/
theorem Tracks.result_of_whole (hr : r.Tracks s) (hn : n ≠ 0)
    (hwhole : r.length ≤ (s.receivedBy r.source).length) :
    (∃ data, (r.readSome n).1 = .ok data) ∨ (r.readSome n).1 = .error .eof := by
  by_cases hlength : r.length ≤ r.totalRead
  · exact .inr (congrArg Prod.fst (readSome_of_le hlength hn))
  have hbuffer : r.source.buffer ≠ [] := fun h ↦ hr.not_enough hlength h hwhole
  have hsupply : r.source.supply r.bufferSize = (.ready, r.source) :=
    Source.supply_of_ne_nil hbuffer
  exact .inl ⟨_, congrArg Prod.fst (readSome_of_supply hlength hn hsupply)⟩

end BoundBody

/-! ### Bodies that end with the connection -/

namespace UntilEofBody

/-- The log of a read. -/
def asks (r : UntilEofBody) (n : Nat) : List Source :=
  if n = 0 ∨ r.finished = true then [] else r.source.asks

/-- **A read of a body that ends with the connection is patient.** -/
theorem patient_readSome (r : UntilEofBody) (s : Source) (n : Nat) :
    s.Patient r.bufferSize (fun _ ↦ False) r.source (r.asks n) (r.readSome n).2.source := by
  by_cases hn : n = 0
  · rw [asks, if_pos (.inl hn), readSome, if_pos hn]
    exact .refl _
  cases hopen : r.finished with
  | true =>
    rw [asks, if_pos (.inr hopen), readSome_of_finished hopen hn]
    exact .refl _
  | false =>
    rw [asks, if_neg (not_or.2 ⟨hn, Bool.eq_false_iff.1 hopen⟩)]
    rcases hsupply : r.source.supply r.bufferSize with ⟨supplied, t⟩
    have hasked : s.Patient r.bufferSize (fun _ ↦ False) r.source r.source.asks t :=
      .supply hsupply fun _ ↦ id
    cases supplied with
    | ready =>
      rw [readSome_of_supply hopen hn hsupply]
      exact hasked.consumed _
    | ended =>
      rw [readSome_of_ended hopen hn hsupply]
      exact hasked
    | failed cause =>
      rw [readSome_of_failed hopen hn hsupply]
      exact hasked

/-- A read does not change how much is asked for at a time. -/
theorem bufferSize_readSome (r : UntilEofBody) (n : Nat) :
    (r.readSome n).2.bufferSize = r.bufferSize := by
  unfold readSome
  split
  · rfl
  · split
    · rfl
    · split <;> rfl

end UntilEofBody

/-! ### Bodies in chunks -/

namespace ChunkedDecoder

variable {d : ChunkedDecoder} {data : Octets}

/-- To decode some input is to make a call and to decode what it has left. -/
theorem decoder_decode (hne : data ≠ []) (hdone : d.done = false) :
    (d.decode data).decoder =
      ((d.parse data).decoder.decode (data.drop (d.parse data).consumed)).decoder := by
  have hgo : ¬ (data = [] ∨ d.done = true) := not_or.2 ⟨hne, Bool.eq_false_iff.1 hdone⟩
  rw [decode, dif_neg hgo]
  by_cases hend : (d.parse data).decoder.done = true
  · rw [dif_pos hend, decode_of_done hend]
    rfl
  · rw [dif_neg hend]
    rfl

/-- To decode pieces is to decode the last of them after the others. -/
theorem decoder_decodePieces_append (pieces : List Octets) (last : Octets) :
    (d.decodePieces (pieces ++ [last])).decoder =
      ((d.decodePieces pieces).decoder.decode last).decoder := by
  induction pieces generalizing d with
  | nil => rfl
  | cons piece pieces ih => exact ih

theorem verdict_of_not_done (h : d.done = false) : d.verdict = .unfinished := by
  cases hstage : d.draft.stage <;> simp_all [verdict, done]

end ChunkedDecoder

namespace ChunkedBody

open ChunkedDecoder (live_new)

variable {r : ChunkedBody} {options : ReadOptions} {s t : Source} {n : Nat} {w : Window}

/-- The log of decoding. -/
def decodeAsks (r : ChunkedBody) : List Source :=
  r.source.asks ++
    match _hsupply : r.source.supply r.bufferSize with
    | (.ready, t) =>
      match _haction : (r.decoder.parse t.buffer).action with
      | .none => if (r.called t).decoder.done then [] else (r.called t).decodeAsks
      | .data _ | .error _ => []
    | (.ended, _) | (.failed _, _) => []
termination_by r.source.total
decreasing_by exact total_called_lt _hsupply _haction

/-- The log of a read. -/
def asks (r : ChunkedBody) (n : Nat) : List Source :=
  if n = 0 ∨ r.window?.isSome ∨ r.decoder.done then [] else r.decodeAsks

/-- A round that goes on has its own entry, if any, and then those of the rounds after it. -/
theorem decodeAsks_of_more (hsupply : r.source.supply r.bufferSize = (.ready, t))
    (haction : (r.decoder.parse t.buffer).action = .none)
    (hdone : (r.called t).decoder.done = false) :
    r.decodeAsks = r.source.asks ++ (r.called t).decodeAsks := by
  rw [decodeAsks]
  refine congrArg (r.source.asks ++ ·) ?_
  split
  · rename_i heq
    cases hsupply.symm.trans heq
    split
    · rw [if_neg (Bool.eq_false_iff.1 hdone)]
    · rename_i heq'
      cases haction.symm.trans heq'
    · rename_i heq'
      cases haction.symm.trans heq'
  · rename_i heq
    cases hsupply.symm.trans heq
  · rename_i heq
    cases hsupply.symm.trans heq

/-- Where a round is the last one, nothing is asked after it. -/
theorem decodeAsks_of_last
    (hlast : ∀ t, r.source.supply r.bufferSize = (.ready, t) →
      (r.decoder.parse t.buffer).action = .none → (r.called t).decoder.done = true) :
    r.decodeAsks = r.source.asks := by
  rw [decodeAsks]
  refine (congrArg (r.source.asks ++ ·) ?_).trans (List.append_nil _)
  split
  · rename_i t hsupply
    split
    · rename_i haction
      exact if_pos (hlast t hsupply haction)
    · rfl
    · rfl
  · rfl
  · rfl

/-- What the decoder comes to with all that is buffered. -/
def outlook (r : ChunkedBody) : ChunkedDecoder :=
  (r.decoder.decode (r.source.buffer.drop r.decoded)).decoder

/-- Without a window, none of the buffer is decoded. -/
theorem outlook_of_window_none (hwindow : r.window? = none) :
    r.outlook = (r.decoder.decode r.source.buffer).decoder := by
  have hdecoded : r.decoded = 0 := by rw [decoded, hwindow]
  rw [outlook, hdecoded, List.drop_zero]

/-- To hand out does not change what the decoder comes to. -/
theorem outlook_after (r : ChunkedBody) (w : Window) (k : Nat) :
    (r.after w k).outlook = (r.decoder.decode (r.source.buffer.drop w.stop)).decoder := by
  unfold after
  split <;> rfl

/-- A call of the decoder makes no difference to what it comes to. -/
theorem outlook_called (hwindow : r.window? = none) (hdone : r.decoder.done = false)
    (hbuffer : t.buffer ≠ []) :
    (r.called t).outlook = (r.decoder.decode t.buffer).decoder := by
  rw [outlook_of_window_none (r := r.called t) hwindow, ChunkedDecoder.decoder_decode hbuffer hdone]
  rfl

/-- A reader of a source that was `s` at first: what its decoder comes to is what decoding all that
was received comes to, in some pieces. -/
structure Tracks (options : ReadOptions) (s : Source) (r : ChunkedBody) : Prop where
  bufferSize : r.bufferSize = options.bufferSize
  suffix : r.source.unread <:+ s.unread
  outlook : ∃ pieces : List Octets, pieces.flatten = s.receivedBy r.source ∧
    ((ChunkedDecoder.new options.limits).decodePieces pieces).decoder = r.outlook

/-- A new reader has all that it has received in its buffer. -/
theorem tracks_new (options : ReadOptions) (s : Source) : Tracks options s (.new options s) where
  bufferSize := rfl
  suffix := List.suffix_refl _
  outlook := by
    refine ⟨[s.buffer], ?_, rfl⟩
    rw [List.flatten_singleton]
    exact s.receivedBy_self.symm

/-- What the decoder comes to tells what there is in all that was received. -/
theorem Tracks.anticipates (hr : r.Tracks options s) : ∃ m n, Verdict.Anticipates
    (r.outlook.verdict, m)
    (((ChunkedDecoder.new options.limits).decode (s.receivedBy r.source)).decoder.verdict, n) := by
  obtain ⟨pieces, hpieces, houtlook⟩ := hr.outlook
  have hanticipates := (ChunkedDecoder.anticipates_decodePieces pieces (live_new options.limits)).2
  rw [hpieces] at hanticipates
  rw [← houtlook]
  exact ⟨_, _, hanticipates⟩

/-- A decoder that goes on with nothing buffered has not received enough. -/
theorem Tracks.not_decided (hr : r.Tracks options s) (hwindow : r.window? = none)
    (hdone : r.decoder.done = false) (hbuffer : r.source.buffer = []) :
    ¬ BodySize.transferEncoding.Decided options.limits (s.receivedBy r.source) := by
  obtain ⟨m, n, hanticipates⟩ := hr.anticipates
  have houtlook : r.outlook = r.decoder := by
    rw [outlook_of_window_none hwindow, hbuffer, ChunkedDecoder.decode_nil]
    rfl
  rw [houtlook, ChunkedDecoder.verdict_of_not_done hdone] at hanticipates
  rcases hanticipates.eq_or_refused with heq | ⟨e, f, he, -⟩
  · have hverdict := (Prod.mk.inj heq).1
    exact Bool.eq_false_iff.1 (ChunkedDecoder.of_verdict_unfinished hverdict.symm).1
  · cases he

/-! #### One round -/

/-- What is supplied is received, and is the next piece for the decoder. -/
theorem Tracks.supply (hr : r.Tracks options s) (hwindow : r.window? = none)
    {supplied : Source.Supply} (h : r.source.supply r.bufferSize = (supplied, t)) :
    Tracks options s { r with source := t } := by
  by_cases hbuffer : r.source.buffer = []
  · obtain ⟨brought, hbrought, hreceived, hsuffix⟩ := Source.received_of_supply hr.suffix h
    obtain ⟨pieces, hpieces, houtlook⟩ := hr.outlook
    rw [outlook_of_window_none hwindow, hbuffer, ChunkedDecoder.decode_nil] at houtlook
    refine ⟨hr.bufferSize, hsuffix, pieces ++ [brought], ?_, ?_⟩
    · rw [List.flatten_append, List.flatten_singleton, hpieces, hreceived]
    · rw [ChunkedDecoder.decoder_decodePieces_append, houtlook,
        outlook_of_window_none (r := { r with source := t }) hwindow, hbrought, hbuffer]
      rfl
  · rw [Source.supply_of_ne_nil hbuffer] at h
    obtain ⟨-, rfl⟩ := Prod.mk.inj h
    exact hr

/-- A reader that has received nothing more, and whose decoder comes to the same. -/
theorem Tracks.congr {r' : ChunkedBody} (hr : r.Tracks options s)
    (hbufferSize : r'.bufferSize = r.bufferSize) (hunread : r'.source.unread = r.source.unread)
    (houtlook : r'.outlook = r.outlook) : r'.Tracks options s where
  bufferSize := hbufferSize.trans hr.bufferSize
  suffix := hunread ▸ hr.suffix
  outlook := by
    have hreceived : s.receivedBy r'.source = s.receivedBy r.source := by
      rw [Source.receivedBy, Source.receivedBy, hunread]
    rw [hreceived, houtlook]
    exact hr.outlook

/-- A call of the decoder receives nothing. -/
theorem Tracks.called (hr : Tracks options s { r with source := t }) (hwindow : r.window? = none)
    (hdone : r.decoder.done = false) (hbuffer : t.buffer ≠ []) : (r.called t).Tracks options s :=
  hr.congr rfl rfl ((outlook_called hwindow hdone hbuffer).trans
    (outlook_of_window_none (r := { r with source := t }) hwindow).symm)

theorem unread_after (r : ChunkedBody) (w : Window) (k : Nat) :
    (r.after w k).source.unread = r.source.unread := by
  unfold after
  split <;> rfl

theorem bufferSize_after (r : ChunkedBody) (w : Window) (k : Nat) :
    (r.after w k).bufferSize = r.bufferSize := by
  unfold after
  split <;> rfl

/-- To hand out of a window receives nothing either. -/
theorem Tracks.after (hr : r.Tracks options s) (hw : r.window? = some w) (k : Nat) :
    (r.after w k).Tracks options s := by
  refine hr.congr (bufferSize_after r w k) (unread_after r w k) ?_
  rw [outlook_after, ChunkedBody.outlook, decoded, hw]

/-- Nor does a call that finds a window. -/
theorem Tracks.found (hr : Tracks options s { r with source := t }) (hwindow : r.window? = none)
    (hdone : r.decoder.done = false) (hbuffer : t.buffer ≠ [])
    (hw : w.stop = (r.decoder.parse t.buffer).consumed) (k : Nat) :
    ((r.found t).after w k).Tracks options s := by
  refine hr.congr (bufferSize_after _ w k) (unread_after _ w k) ?_
  rw [outlook_after, hw, outlook_of_window_none (r := { r with source := t }) hwindow,
    ChunkedDecoder.decoder_decode hbuffer hdone]
  rfl

/-- To hand out of a window asks for nothing. -/
theorem patient_after {max : Nat} {enough : Octets → Prop} {u : Source} {asked : List Source}
    (h : s.Patient max enough u asked r.source) (w : Window) (k : Nat) :
    s.Patient max enough u asked (r.after w k).source := by
  unfold after
  split
  · exact h
  · exact h.consumed _

/-! #### A read -/

/-- **Decoding is patient**, round by round. -/
theorem Tracks.decode (r : ChunkedBody) (hr : r.Tracks options s) (hwindow : r.window? = none)
    (hdone : r.decoder.done = false) (n : Nat) :
    s.Patient options.bufferSize (BodySize.transferEncoding.Decided options.limits) r.source
        r.decodeAsks (r.decode n).2.source ∧
      (r.decode n).2.Tracks options s := by
  have hasked {supplied : Source.Supply} {t : Source}
      (h : r.source.supply r.bufferSize = (supplied, t)) :
      s.Patient options.bufferSize (BodySize.transferEncoding.Decided options.limits) r.source
        r.source.asks t :=
    .supply (hr.bufferSize ▸ h) (hr.not_decided hwindow hdone)
  cases r.round with
  | failed hsupply =>
    rw [decode_of_failed hsupply, decodeAsks_of_last fun t ht ↦ by cases hsupply.symm.trans ht]
    exact ⟨hasked hsupply, hr.supply hwindow hsupply⟩
  | ended hsupply =>
    rw [decode_of_ended hsupply, decodeAsks_of_last fun t ht ↦ by cases hsupply.symm.trans ht]
    exact ⟨hasked hsupply, hr.supply hwindow hsupply⟩
  | @data t window hsupply haction =>
    have hbuffer := Source.buffer_ne_nil_of_supply hsupply
    rw [decode_of_data hsupply haction rfl, decodeAsks_of_last fun t ht hnone ↦ by
      obtain ⟨-, rfl⟩ := Prod.mk.inj (hsupply.symm.trans ht)
      cases haction.symm.trans hnone]
    exact ⟨patient_after (r := r.found t) (hasked hsupply) _ _,
      (hr.supply hwindow hsupply).found hwindow hdone hbuffer rfl _⟩
  | @refused t e hsupply haction =>
    have hbuffer := Source.buffer_ne_nil_of_supply hsupply
    rw [decode_of_error hsupply haction, decodeAsks_of_last fun t ht hnone ↦ by
      obtain ⟨-, rfl⟩ := Prod.mk.inj (hsupply.symm.trans ht)
      cases haction.symm.trans hnone]
    exact ⟨(hasked hsupply).consumed _, (hr.supply hwindow hsupply).called hwindow hdone hbuffer⟩
  | @complete t hsupply haction hend =>
    have hbuffer := Source.buffer_ne_nil_of_supply hsupply
    rw [decode_of_done hsupply haction hend, decodeAsks_of_last fun t ht _ ↦ by
      obtain ⟨-, rfl⟩ := Prod.mk.inj (hsupply.symm.trans ht)
      exact hend]
    exact ⟨(hasked hsupply).consumed _, (hr.supply hwindow hsupply).called hwindow hdone hbuffer⟩
  -- The octets of this round count as received for the rounds after it, so the logs fit together.
  | @more t hsupply haction hgo =>
    have hbuffer := Source.buffer_ne_nil_of_supply hsupply
    have hlt : (r.called t).source.total < r.source.total := total_called_lt hsupply haction
    rw [decode_of_not_done hsupply haction hgo, decodeAsks_of_more hsupply haction hgo]
    obtain ⟨hlater, htracks⟩ := Tracks.decode (r.called t)
      ((hr.supply hwindow hsupply).called hwindow hdone hbuffer) hwindow hgo n
    exact ⟨((hasked hsupply).consumed _).trans hlater, htracks⟩
termination_by r.source.total

/-- **A read of a chunked body is patient.** -/
theorem Tracks.readSome (hr : r.Tracks options s) (n : Nat) :
    s.Patient options.bufferSize (BodySize.transferEncoding.Decided options.limits) r.source
        (r.asks n) (r.readSome n).2.source ∧ (r.readSome n).2.Tracks options s := by
  by_cases hn : n = 0
  · rw [asks, if_pos (.inl hn), ChunkedBody.readSome, if_pos hn]
    exact ⟨.refl _, hr⟩
  cases hwindow : r.window? with
  | some w =>
    rw [asks, if_pos (.inr (.inl (by rw [hwindow]; rfl))), readSome_of_window hwindow hn]
    exact ⟨patient_after (.refl _) w _, hr.after hwindow _⟩
  | none =>
    cases hstage : r.decoder.draft.stage with
    | reading =>
      have hdone : r.decoder.done = false := by rw [ChunkedDecoder.done, hstage]
      rw [asks, if_neg (by simp [hn, hwindow, hdone]), readSome_of_reading hwindow hstage hn]
      exact hr.decode r hwindow hdone n
    | complete =>
      have hdone : r.decoder.done = true := by rw [ChunkedDecoder.done, hstage]
      rw [asks, if_pos (.inr (.inr hdone)), readSome_of_complete hwindow hstage hn]
      exact ⟨.refl _, hr⟩
    | failed e =>
      have hdone : r.decoder.done = true := by rw [ChunkedDecoder.done, hstage]
      rw [asks, if_pos (.inr (.inr hdone)), readSome_of_error hwindow hstage hn]
      exact ⟨.refl _, hr⟩

/-! #### With the whole body received -/

/-- Where the decoder is going to accept, no round fails before data are found or the body ends. -/
theorem result_of_accepted (r : ChunkedBody) (hd : r.decoder.Reached) (hwindow : r.window? = none)
    (hdone : r.decoder.done = false) {trailers : Headers}
    (hverdict : r.outlook.verdict = .accepted trailers) (n : Nat) :
    (∃ data, (r.decode n).1 = .ok data) ∨ (r.decode n).1 = .error .eof := by
  have houtlook := outlook_of_window_none hwindow
  have hbuffer : r.source.buffer ≠ [] := by
    intro hbuffer
    rw [houtlook, hbuffer, ChunkedDecoder.decode_nil] at hverdict
    cases (ChunkedDecoder.verdict_of_not_done hdone).symm.trans hverdict
  have hready : r.source.supply r.bufferSize = (.ready, r.source) :=
    Source.supply_of_ne_nil hbuffer
  cases r.round with
  | failed hsupply | ended hsupply => cases hready.symm.trans hsupply
  | data hsupply haction => exact .inl ⟨_, congrArg Prod.fst (decode_of_data hsupply haction rfl n)⟩
  | complete hsupply haction hend =>
    exact .inr (congrArg Prod.fst (decode_of_done hsupply haction hend n))
  | @refused t e hsupply haction =>
    obtain ⟨-, rfl⟩ := Prod.mk.inj (hready.symm.trans hsupply)
    have hend := ChunkedDecoder.done_of_action_error haction
    rw [houtlook, ChunkedDecoder.decoder_decode hbuffer hdone,
      ChunkedDecoder.decode_of_done hend] at hverdict
    have herror := hd.kept.error_of_action haction
    cases (ChunkedDecoder.of_verdict_accepted hverdict).2.1.symm.trans herror
  | @more t hsupply haction hgo =>
    obtain ⟨-, rfl⟩ := Prod.mk.inj (hready.symm.trans hsupply)
    have hlt : (r.called r.source).source.total < r.source.total := total_called_lt hsupply haction
    rw [houtlook, ← outlook_called hwindow hdone hbuffer] at hverdict
    rw [decode_of_not_done hsupply haction hgo]
    exact result_of_accepted (r.called r.source) (.parse hd _) hwindow hgo hverdict n
termination_by r.source.total

/-- With the whole body received, a read returns some of it, or its end. -/
theorem Tracks.result_of_whole (hr : r.Tracks options s) (hd : r.decoder.Reached) (hn : n ≠ 0)
    (hwhole : BodySize.transferEncoding.Whole options.limits (s.receivedBy r.source)) :
    (∃ data, (r.readSome n).1 = .ok data) ∨ (r.readSome n).1 = .error .eof := by
  cases hwindow : r.window? with
  | some w => exact .inl ⟨_, congrArg Prod.fst (readSome_of_window hwindow hn)⟩
  | none =>
    obtain ⟨i, j, hanticipates⟩ := hr.anticipates
    rw [ChunkedDecoder.verdict_of_done hwhole.1 hwhole.2] at hanticipates
    obtain ⟨trailers, hverdict⟩ : ∃ trailers, r.outlook.verdict = .accepted trailers := by
      rcases hanticipates.eq_or_refused with heq | ⟨e, f, -, hf⟩
      · exact ⟨_, (Prod.mk.inj heq).1⟩
      · cases hf
    cases hstage : r.decoder.draft.stage with
    | reading =>
      have hdone : r.decoder.done = false := by rw [ChunkedDecoder.done, hstage]
      rw [readSome_of_reading hwindow hstage hn]
      exact result_of_accepted r hd hwindow hdone hverdict n
    | complete => exact .inr (congrArg Prod.fst (readSome_of_complete hwindow hstage hn))
    | failed e =>
      have hdone : r.decoder.done = true := by rw [ChunkedDecoder.done, hstage]
      rw [outlook_of_window_none hwindow, ChunkedDecoder.decode_of_done hdone] at hverdict
      have herror : r.decoder.error? = some e := by rw [ChunkedDecoder.error?, hstage]
      cases (ChunkedDecoder.of_verdict_accepted hverdict).2.1.symm.trans herror

end ChunkedBody

/-! ### Bodies of any framing -/

namespace BodyReader

variable {r : BodyReader} {options : ReadOptions} {s : Source} {size : BodySize} {n : Nat}

/-- The log of a read. -/
def asks (r : BodyReader) (n : Nat) : List Source :=
  match r with
  | bound r => r.asks n
  | chunked r => r.asks n
  | untilEof r => r.asks n

/-- The log of reads into destinations of some sizes. -/
def asksOf (r : BodyReader) : List Nat → List Source
  | [] => []
  | n :: sizes => r.asks n ++ (r.readSome n).2.asksOf sizes

/-- A reader of a body of some size, of a source that was `s` at first. -/
inductive Tracks (options : ReadOptions) (s : Source) : BodySize → BodyReader → Prop
  | bound {m : Nat} {r : BoundBody} (length : r.length = m)
    (bufferSize : r.bufferSize = options.bufferSize) (tracks : r.Tracks s) :
    Tracks options s (.contentLength m) (.bound r)
  | chunked {r : ChunkedBody} (tracks : r.Tracks options s) :
    Tracks options s .transferEncoding (.chunked r)
  | untilEof {r : UntilEofBody} (bufferSize : r.bufferSize = options.bufferSize) :
    Tracks options s .untilEof (.untilEof r)

/-- A reader that has read nothing. -/
theorem tracks_ofSize (size : BodySize) (options : ReadOptions) (s : Source) :
    Tracks options s size (ofSize size options s) := by
  cases size with
  | contentLength m => exact .bound rfl rfl (BoundBody.tracks_new options m s)
  | transferEncoding => exact .chunked (ChunkedBody.tracks_new options s)
  | untilEof => exact .untilEof rfl

theorem source_ofSize (size : BodySize) (options : ReadOptions) (s : Source) :
    (ofSize size options s).source = s := by
  cases size <;> rfl

/-- **A read of any body is patient.** -/
theorem Tracks.readSome (hr : Tracks options s size r) (n : Nat) :
    s.Patient options.bufferSize (size.Decided options.limits) r.source (r.asks n)
        (r.readSome n).2.source ∧ Tracks options s size (r.readSome n).2 := by
  cases hr with
  | @bound m r hlength hbufferSize htracks =>
    obtain ⟨hpatient, htracks'⟩ := htracks.readSome n
    rw [hlength, hbufferSize] at hpatient
    exact ⟨hpatient, .bound ((r.length_readSome n).trans hlength)
      ((r.bufferSize_readSome n).trans hbufferSize) htracks'⟩
  | @chunked r htracks =>
    obtain ⟨hpatient, htracks'⟩ := htracks.readSome n
    exact ⟨hpatient, .chunked htracks'⟩
  | @untilEof r hbufferSize =>
    have hpatient := r.patient_readSome s n
    rw [hbufferSize] at hpatient
    exact ⟨hpatient, .untilEof ((r.bufferSize_readSome n).trans hbufferSize)⟩

/-- **Any reads of any body are patient.** -/
theorem Tracks.calls (hr : Tracks options s size r) (sizes : List Nat) :
    s.Patient options.bufferSize (size.Decided options.limits) r.source (r.asksOf sizes)
        (r.calls sizes).2.source ∧ Tracks options s size (r.calls sizes).2 := by
  induction sizes generalizing r with
  | nil => exact ⟨.refl _, hr⟩
  | cons n sizes ih =>
    obtain ⟨hpatient, hnext⟩ := hr.readSome n
    obtain ⟨hlater, hlast⟩ := ih hnext
    exact ⟨hpatient.trans hlater, hlast⟩

/-- With the whole body received, a read returns some of it, or its end. -/
theorem Tracks.result_of_whole (hr : Tracks options s size r) (htidy : r.Tidy) (hn : n ≠ 0)
    (hwhole : size.Whole options.limits (s.receivedBy r.source)) :
    (∃ data, data ≠ [] ∧ (r.readSome n).1 = .ok data) ∨ (r.readSome n).1 = .error .eof := by
  have hresult : (∃ data, (r.readSome n).1 = .ok data) ∨ (r.readSome n).1 = .error .eof := by
    cases hr with
    | bound hlength _ htracks =>
      rw [← hlength] at hwhole
      exact htracks.result_of_whole hn hwhole
    | chunked htracks => exact htracks.result_of_whole htidy.1 hn hwhole
    | untilEof => exact hwhole.elim
  rcases hresult with ⟨data, hdata⟩ | heof
  · exact .inl ⟨data, htidy.ne_nil hn (Prod.ext hdata rfl), hdata⟩
  · exact .inr heof

/-- What the next read of a body does, by what was received before it. -/
structure NextIsPatient (size : BodySize) (options : ReadOptions) (s : Source) (r : BodyReader) :
    Prop where
  /-- Where enough was received, the transport is left alone. -/
  untouched_of_decided : size.Decided options.limits (s.receivedBy r.source) →
    ∀ n, (r.readSome n).2.source.script = r.source.script ∧
      (r.readSome n).2.source.reads = r.source.reads
  /-- With the whole body received, some of it is returned, or its end. -/
  result_of_whole : size.Whole options.limits (s.receivedBy r.source) →
    ∀ n, n ≠ 0 →
      (∃ data, data ≠ [] ∧ (r.readSome n).1 = .ok data) ∨ (r.readSome n).1 = .error .eof
  /-- To read into an empty destination does nothing at all. -/
  readSome_zero : r.readSome 0 = (.ok [], r)

/-- **How a body is read**, as to what is asked for: only what the body needs. A body that is
received already is returned, in as many reads as it takes, and then its end. -/
structure ReadsPatiently (size : BodySize) (options : ReadOptions) (s : Source) : Prop where
  patient : ∀ sizes, s.Patient options.bufferSize (size.Decided options.limits) s
    ((ofSize size options s).asksOf sizes) ((ofSize size options s).calls sizes).2.source
  next : ∀ sizes, NextIsPatient size options s ((ofSize size options s).calls sizes).2

/-- What is known of a reader after some reads tells what the next does. -/
theorem Tracks.nextIsPatient (hr : Tracks options s size r) (htidy : r.Tidy) :
    NextIsPatient size options s r where
  untouched_of_decided hdecided n := (hr.readSome n).1.untouched hdecided
  result_of_whole hwhole _ hn := hr.result_of_whole htidy hn hwhole
  readSome_zero := BodyReader.readSome_zero r

/-- **Bodies of any framing are read patiently.** -/
theorem readsPatiently (size : BodySize) (options : ReadOptions) (s : Source) :
    ReadsPatiently size options s where
  patient sizes := by
    have hpatient := ((tracks_ofSize size options s).calls sizes).1
    rwa [source_ofSize] at hpatient
  next sizes :=
    ((tracks_ofSize size options s).calls sizes).2.nextIsPatient
      ((tidy_ofSize size options s).calls sizes)

end BodyReader

/-- **No reader waits for octets that it does not need**: neither the readers of heads nor those of
bodies of any framing, whatever is buffered and whatever the transport does. -/
theorem readsPatiently_any (options : ReadOptions) (s : Source) :
    HeadReader.ReadsPatiently Request options s ∧ HeadReader.ReadsPatiently Response options s ∧
      ∀ size, BodyReader.ReadsPatiently size options s :=
  ⟨HeadReader.readsPatiently (by decide) options s, HeadReader.readsPatiently (by decide) options s,
    fun size ↦ BodyReader.readsPatiently size options s⟩

end HttpFraming
