import HttpFraming.Proofs.Stream.Failures

/-!
# Bodies that end at a length or with the connection

Such bodies are not coded: a reader hands out the octets of its source as they are, and has only to
know where to stop. What its reads come to is `BodyReader.HandsOut`. Every read hands out something
from the front, at most as much as is asked for, until all data are handed out, and every read after
that returns the same error.

## Bodies of a known length

Such a body consists of so many octets from the front of the stream. If there are fewer, the reads
stop short of the end and say so (`BoundBody.stopOf`). What the reader counts is exactly what it has
handed out, and what it did not hand out is left in the source (`BoundBody.Counts`). This is the
invariant of its reads, and it is told against the stream as it was when the body began, so that
after any reads it is known what the source has, whatever was handed out in between.

## Bodies that end with the connection

Such a body consists of all octets up to the first read of the transport that brings nothing. That
this was the end is remembered, and so it stays the end, even if the transport would go on
(`Delivery.Ends`): a terminal, or a file that grows, may bring nothing at one read and something at
the next. A source that may go on is compared with one that does not (`Source.supply_extend`). What
is seen of the two is the same up to the end, and after it the transport is not asked any more.

## One step for both

Both readers are readers that deliver some data and then rest (`BodyReader.Rests`), with the same
error at every read. What several reads come to is said once of such readers
(`BodyReader.Delivers.handsOut`), and `BodyReader.exact_of_flows` puts the two together.
-/

namespace HttpFraming

namespace BodyReader

variable {r r' : BodyReader} {n : Nat} {data : Octets}

/-- A read hands out no more than was asked for. -/
theorem Tidy.length_le (hr : r.Tidy) (hn : n ≠ 0) (h : r.readSome n = (.ok data, r')) :
    data.length ≤ n := by
  cases turn hr with
  | offers offers hread _ =>
    cases (hread n hn).symm.trans h
    exact List.length_take_le n _
  | stops hread _ => cases (hread n hn).symm.trans h

/-! ### Reads that hand out data and stop -/

/-- The octets that reads have handed out. -/
def handed : List Call → Octets
  | [] => []
  | ⟨_, .ok out⟩ :: calls => out ++ handed calls
  | ⟨_, .error _⟩ :: calls => handed calls

/-- Reads hand out some data from the front, each of them something. When there are no more, the
reads return an error, and always the same. -/
inductive HandsOut (stop : ReadError) : Octets → List Call → Prop
  | nil {data : Octets} : HandsOut stop data []
  | some {n : Nat} {out data : Octets} {calls : List Call} (ne : out ≠ []) (le : out.length ≤ n)
    (rest : HandsOut stop data calls) : HandsOut stop (out ++ data) (⟨n, .ok out⟩ :: calls)
  | stop {n : Nat} {calls : List Call} (rest : HandsOut stop [] calls) :
    HandsOut stop [] (⟨n, .error stop⟩ :: calls)

/-- A reader that stops and from then on has nothing, and so stops again. -/
def Rests (stop : ReadError) (Has : BodyReader → Octets → Prop) (e : ReadError) (r : BodyReader) :
    Prop :=
  e = stop ∧ Has r []

variable {stop : ReadError} {Has : BodyReader → Octets → Prop}

/-- **Reads one after the other**, of a reader that delivers some data and then rests: they hand out
the data from the front, and the reader has what is left of them. -/
theorem Delivers.handsOut (h : Delivers Has (Rests stop Has)) (hr : Has r data) (htidy : r.Tidy)
    {sizes : List Nat} (hsizes : ∀ n ∈ sizes, n ≠ 0) :
    HandsOut stop data (r.calls sizes).1 ∧
      ∃ rest, data = handed (r.calls sizes).1 ++ rest ∧ Has (r.calls sizes).2 rest := by
  induction sizes generalizing r data with
  | nil => exact ⟨.nil, data, rfl, hr⟩
  | cons n sizes ih =>
    obtain ⟨hn, hrest⟩ := List.forall_mem_cons.1 hsizes
    have hreads := h.reads hn hr
    rcases hread : r.readSome n with ⟨result, r'⟩
    have htidy' : r'.Tidy := htidy.of_readSome hread
    rw [hread] at hreads
    rw [calls, hread]
    cases hreads with
    | @some out data r' ne has =>
      obtain ⟨hhands, rest, hdata, hlast⟩ := ih has htidy' hrest
      refine ⟨.some ne (htidy.length_le hn hread) hhands, rest, ?_, hlast⟩
      rw [handed, List.append_assoc, ← hdata]
    | stop stops =>
      obtain ⟨rfl, hnil⟩ := stops
      obtain ⟨hhands, rest, hdata, hlast⟩ := ih hnil htidy' hrest
      exact ⟨.stop hhands, rest, hdata, hlast⟩

end BodyReader

open BodyReader (HandsOut handed Rests Delivers readSome_bound readSome_untilEof tidy_bound
  tidy_untilEof)

/-! ### Bodies of a known length -/

namespace BoundBody

variable {r : BoundBody} {w : Octets} {size n : Nat}

/-- A reader of a body of some size has read it from the stream `w`, and has counted what it has
handed out. -/
structure Counts (w : Octets) (size : Nat) (r : BoundBody) : Prop where
  flows : r.source.Flows
  length : r.length = size
  totalRead_le : r.totalRead ≤ (w.take size).length
  stream : r.source.stream = w.drop r.totalRead

/-- How the reads of a body stop. -/
def stopOf (w : Octets) (size : Nat) : ReadError :=
  if size ≤ w.length then .eof else .unexpectedEof

/-- A reader that counts has the rest of the body. -/
def Owes (w : Octets) (size : Nat) (r : BodyReader) (data : Octets) : Prop :=
  ∃ b, r = .bound b ∧ Counts w size b ∧ data = (w.take size).drop b.totalRead

theorem counts_new (options : ReadOptions) {s : Source} (hs : s.Flows) (size : Nat) :
    Counts s.stream size (.new options size s) :=
  ⟨hs, rfl, Nat.zero_le _, rfl⟩

/-- What is to be handed out are the octets of the body that are buffered, and others. -/
theorem Counts.drop_eq (h : Counts w size r) :
    (w.take size).drop r.totalRead =
      r.ready ++ r.source.unread.take (r.remaining - r.source.buffer.length) := by
  rw [List.drop_take, ← h.stream, ← h.length, Source.stream, List.take_append]
  rfl

/-- To hand out what is buffered is counted. -/
theorem Counts.advance (h : Counts w size r) {k : Nat} (hk : k ≤ r.ready.length) :
    Counts w size (r.advance k) := by
  have hdrop := congrArg List.length h.drop_eq
  rw [List.length_drop, List.length_append] at hdrop
  have htotal := h.totalRead_le
  have hbuffer : k ≤ r.source.buffer.length := Nat.le_trans hk (List.length_take_le' _ _)
  refine ⟨h.flows, h.length, ?_, ?_⟩
  · show r.totalRead + k ≤ (w.take size).length
    omega
  · show (r.source.consume k).stream = w.drop (r.totalRead + k)
    rw [Source.stream_consume hbuffer, h.stream, List.drop_drop]

/-- To hand out what is buffered leaves the rest of the body. -/
theorem Counts.some (h : Counts w size r) (hne : r.ready.take n ≠ []) :
    BodyReader.Reads (Owes w size) (Rests (stopOf w size) (Owes w size))
      ((w.take size).drop r.totalRead)
      (.ok (r.ready.take n), .bound (r.advance (min n r.ready.length))) := by
  have hle : min n r.ready.length ≤ r.ready.length := Nat.min_le_right _ _
  have htake : r.ready.take n = ((w.take size).drop r.totalRead).take (min n r.ready.length) := by
    rw [h.drop_eq, List.take_append_of_le_length hle, ← List.take_eq_take_min]
  have hsplit : (w.take size).drop r.totalRead =
      r.ready.take n ++ (w.take size).drop (r.totalRead + min n r.ready.length) := by
    rw [htake, ← List.drop_drop, List.take_append_drop]
  rw [hsplit]
  exact .some hne ⟨_, rfl, h.advance hle, rfl⟩

/-- **A reader that counts delivers the rest of the body**, or what there is of it. -/
theorem delivers_owes (w : Octets) (size : Nat) :
    Delivers (Owes w size) (Rests (stopOf w size) (Owes w size)) where
  reads := by
    rintro _ _ n hn ⟨r, rfl, h, rfl⟩
    have htotal := h.totalRead_le
    have hlength := h.length
    rw [List.length_take] at htotal
    by_cases hend : r.length ≤ r.totalRead
    · have hnil : (w.take size).drop r.totalRead = [] := by
        rw [List.drop_eq_nil_iff, List.length_take]
        omega
      -- All of the body has been handed out, so it was in the stream.
      have hstop : stopOf w size = .eof := if_pos (by omega)
      rw [readSome_bound (readSome_of_le hend hn), hnil]
      exact .stop ⟨hstop.symm, r, rfl, h, hnil.symm⟩
    have hsupplied := Source.supplied_supply h.flows r.bufferSize
    rcases hsupply : r.source.supply r.bufferSize with ⟨supplied, s⟩
    rw [hsupply] at hsupplied
    cases hsupplied with
    | ended flows stream stream' =>
      -- The stream has ended, and the body has not: there was not enough.
      have hw : w.length ≤ r.totalRead := by rw [← List.drop_eq_nil_iff, ← h.stream, stream]
      have hnil : (w.take size).drop r.totalRead = [] := by
        rw [List.drop_eq_nil_iff, List.length_take]
        omega
      have hstop : stopOf w size = .unexpectedEof := if_neg (by omega)
      have hcounts : Counts w size { r with source := s } :=
        ⟨flows, h.length, h.totalRead_le, by rw [stream', ← h.stream, stream]⟩
      rw [readSome_bound (readSome_of_ended hend hn hsupply), hnil]
      exact .stop ⟨hstop.symm, _, rfl, hcounts, hnil.symm⟩
    | ready flows buffer stream =>
      have hcounts : Counts w size { r with source := s } :=
        ⟨flows, h.length, h.totalRead_le, stream.trans h.stream⟩
      have hread := readSome_bound (readSome_of_supply hend hn hsupply)
      have hne := BodyReader.Tidy.ne_nil tidy_bound hn hread
      rw [hread]
      exact hcounts.some hne

/-- What reads of a body of some size come to, from a source that holds the stream `w`. -/
structure Exact (w : Octets) (r : BoundBody) : Prop where
  /-- The reads hand out the body, which is the front of the stream, or what there is of it. Then
  they return that it has ended, or that there is not enough. -/
  calls : ∀ sizes, (∀ n ∈ sizes, n ≠ 0) →
    HandsOut (stopOf w r.length) (w.take r.length) ((BodyReader.bound r).calls sizes).1
  /-- After any reads, it is known how much is left of the body, and the source has what was not
  handed out. -/
  counts : ∀ sizes, (∀ n ∈ sizes, n ≠ 0) →
    ∃ r', ((BodyReader.bound r).calls sizes).2 = .bound r' ∧ r'.length = r.length ∧
      r'.totalRead = (handed ((BodyReader.bound r).calls sizes).1).length ∧
      r'.totalRead ≤ r'.length ∧ r'.remaining + r'.totalRead = r.length ∧
      r'.source.stream = w.drop r'.totalRead
  /-- Whoever reads until an error is returned gets all of it. -/
  drain : ∀ sizes, ((BodyReader.bound r).drain sizes).data = w.take r.length ∧
    ((BodyReader.bound r).drain sizes).stop = stopOf w r.length ∧
    ((BodyReader.bound r).drain sizes).reader.source.stream = w.drop r.length

/-- A reader has counted what it has handed out of the body. -/
theorem Counts.totalRead_eq (h : Counts w size r) {out : Octets}
    (hout : w.take size = out ++ (w.take size).drop r.totalRead) : r.totalRead = out.length := by
  have hlength := congrArg List.length hout
  have htotal := h.totalRead_le
  rw [List.length_append, List.length_drop] at hlength
  omega

/-- No reader hands out more than the body has. -/
theorem Counts.totalRead_le_length (h : Counts w size r) : r.totalRead ≤ r.length := by
  have htotal := h.totalRead_le
  rw [List.length_take] at htotal
  rw [h.length]
  exact Nat.le_trans htotal (Nat.min_le_left _ _)

/-- **A body of a known length is handed out exactly**, or what there is of it. -/
theorem exact_new (options : ReadOptions) {s : Source} (hs : s.Flows) (size : Nat) :
    Exact s.stream (.new options size s) := by
  have hdelivers := delivers_owes s.stream size
  have howes : Owes s.stream size (.bound (.new options size s)) (s.stream.take size) :=
    ⟨_, rfl, counts_new options hs size, rfl⟩
  refine ⟨fun sizes hsizes ↦ ?_, fun sizes hsizes ↦ ?_, fun sizes ↦ ?_⟩
  · exact (hdelivers.handsOut howes tidy_bound hsizes).1
  · obtain ⟨-, rest, hdata, r', hr', hcounts, rfl⟩ := hdelivers.handsOut howes tidy_bound hsizes
    have hle : r'.totalRead ≤ r'.length := hcounts.totalRead_le_length
    have hremaining : r'.remaining + r'.totalRead = size := by
      rw [remaining, Nat.sub_add_cancel hle, hcounts.length]
    exact ⟨r', hr', hcounts.length, hcounts.totalRead_eq hdata, hle, hremaining, hcounts.stream⟩
  · obtain ⟨hdata, hstop, r', hr', hcounts, hnil⟩ := hdelivers.drain howes sizes
    have hall : min size s.stream.length ≤ r'.totalRead := by
      rw [← List.length_take]
      exact List.drop_eq_nil_iff.1 hnil.symm
    have htotal := hcounts.totalRead_le
    rw [List.length_take] at htotal
    refine ⟨hdata, hstop, ?_⟩
    rw [hr', BodyReader.source, hcounts.stream, Nat.le_antisymm htotal hall,
      ← List.drop_eq_drop_min]
    rfl

end BoundBody

/-! ### Bodies that end with the connection -/

/-- The transport has nothing more to deliver, or its next read brings nothing, whatever it would
bring later. -/
inductive Delivery.Ends : List Delivery → Prop
  | nil : Ends []
  | cons (later : List Delivery) : Ends (.octets [] :: later)

open Delivery (Ends)

variable {s s' t : Source} {more : List Delivery}

/-- A read that brings something takes it from the front of a script, and one that brings nothing
has come to the end. -/
theorem Reception.ofScript_append (max : Nat) {script : List Delivery}
    (h : ∀ d ∈ script, d.flows = true) (hmore : Ends more) :
    (ofScript max (script ++ more)).result = (ofScript max script).result ∧
      ((ofScript max script).result = .ok [] ∨
        ofScript max (script ++ more) =
          { ofScript max script with script := (ofScript max script).script ++ more }) := by
  induction script with
  | nil =>
    cases hmore with
    | nil => exact ⟨rfl, .inl rfl⟩
    | cons later => exact ⟨congrArg Except.ok List.take_nil, .inl rfl⟩
  | cons d rest ih =>
    obtain ⟨hd, hrest⟩ := List.forall_mem_cons.1 h
    cases d with
    | octets data =>
      refine ⟨rfl, .inr ?_⟩
      simp only [List.cons_append, ofScript]
      split <;> rfl
    | failure cause =>
      have hcause : cause.kind = .interrupted := by simpa [Delivery.flows] using hd
      obtain ⟨hresult, hend | hmore⟩ := ih hrest
      · simp only [List.cons_append, ofScript, hcause, if_true]
        exact ⟨hresult, .inl hend⟩
      · simp only [List.cons_append, ofScript, hcause, if_true, hmore]
        exact ⟨trivial, .inr trivial⟩

/-- **What is seen of a source that may go on after its end** is what is seen of it without. -/
theorem Source.supply_extend (hs : s.Flows) (hmore : Ends more) {max : Nat} {supplied : Supply}
    (h : s.supply max = (supplied, t)) :
    ∃ t', (s.extend more).supply max = (supplied, t') ∧
      (supplied = .ended ∨ t' = t.extend more) := by
  by_cases hbuffer : s.buffer = []
  · have hempty : s.buffer.isEmpty = true := by rw [hbuffer]; rfl
    have hempty' : (s.extend more).buffer.isEmpty = true := hempty
    have hscript' : (s.extend more).script = s.script ++ more := rfl
    obtain ⟨hresult, hmore⟩ := Reception.ofScript_append (Nat.max max 1) hs hmore
    simp only [supply, hempty, hempty', if_true, fill_eq, hscript', Reception.octets, hresult]
      at h ⊢
    -- A read of a source that flows does not fail.
    rcases Reception.flows_ofScript (Nat.le_max_right max 1) hs with ⟨b, data, hread, -⟩ |
      ⟨hread, -⟩
    · rw [hread] at h hmore ⊢
      obtain ⟨rfl, rfl⟩ := Prod.mk.inj h
      refine ⟨_, rfl, .inr ?_⟩
      rw [hmore.resolve_left (by simp)]
      rfl
    · rw [hread] at h ⊢
      obtain ⟨rfl, rfl⟩ := Prod.mk.inj h
      exact ⟨_, rfl, .inl rfl⟩
  · rw [supply_of_ne_nil hbuffer] at h
    obtain ⟨rfl, rfl⟩ := Prod.mk.inj h
    exact ⟨s.extend more, supply_of_ne_nil hbuffer, .inr rfl⟩

namespace UntilEofBody

variable {r : UntilEofBody}

/-- A reader that has the rest of a body, or has seen that the body has ended. -/
inductive Has (more : List Delivery) : BodyReader → Octets → Prop
  | reading {r : UntilEofBody} {s : Source} (flows : s.Flows) (source : r.source = s.extend more)
    (finished : r.finished = false) : Has more (.untilEof r) s.stream
  | ended {r : UntilEofBody} (finished : r.finished = true) : Has more (.untilEof r) []

/-- To hand out what is buffered leaves the rest of the stream. -/
theorem reads_of_ready (hs : s.Flows) (hsource : r.source = s.extend more)
    (hopen : r.finished = false) {n : Nat} (hne : s.buffer.take n ≠ []) :
    BodyReader.Reads (Has more) (Rests .eof (Has more)) s.stream
      (.ok (s.buffer.take n), .untilEof (r.advance (min n s.buffer.length))) := by
  have hle : min n s.buffer.length ≤ s.buffer.length := Nat.min_le_right _ _
  have htake : s.buffer.take n = s.stream.take (min n s.buffer.length) := by
    rw [Source.stream, List.take_append_of_le_length hle, ← List.take_eq_take_min]
  have hsplit : s.stream = s.buffer.take n ++ (s.consume (min n s.buffer.length)).stream := by
    rw [Source.stream_consume hle, htake, List.take_append_drop]
  have hadvance : (r.advance (min n s.buffer.length)).source =
      (s.consume (min n s.buffer.length)).extend more := by
    rw [advance, hsource]
    rfl
  rw [hsplit]
  exact .some hne (.reading (Source.flows_consume.2 hs) hadvance hopen)

/-- **A reader delivers all of the stream**, and then knows that it has ended. -/
theorem delivers_has (hmore : Ends more) : Delivers (Has more) (Rests .eof (Has more)) where
  reads := by
    rintro _ _ n hn (@⟨r, s, flows, source, finished⟩ | @⟨r, finished⟩)
    · have hsupplied := Source.supplied_supply flows r.bufferSize
      rcases hsupply : s.supply r.bufferSize with ⟨supplied, t⟩
      obtain ⟨t', hsupply', ht'⟩ := Source.supply_extend flows hmore hsupply
      rw [← source] at hsupply'
      rw [hsupply] at hsupplied
      cases hsupplied with
      | ended _ stream =>
        rw [readSome_untilEof (readSome_of_ended finished hn hsupply'), stream]
        exact .stop ⟨rfl, .ended rfl⟩
      | ready flows buffer stream =>
        obtain rfl : t' = t.extend more := ht'.resolve_left (by simp)
        have hread := readSome_untilEof (readSome_of_supply finished hn hsupply')
        have hne := BodyReader.Tidy.ne_nil tidy_untilEof hn hread
        rw [hread, ← stream]
        exact reads_of_ready (r := { r with source := t.extend more }) flows rfl finished hne
    · rw [readSome_untilEof (readSome_of_finished finished hn)]
      exact .stop ⟨rfl, .ended finished⟩

/-- What reads of a body come to that ends with the connection, when it has the octets `w`: they
hand out all of them, and then return that the body has ended, every time. -/
structure Exact (w : Octets) (r : UntilEofBody) : Prop where
  calls : ∀ sizes, (∀ n ∈ sizes, n ≠ 0) →
    HandsOut .eof w ((BodyReader.untilEof r).calls sizes).1
  drain : ∀ sizes, ((BodyReader.untilEof r).drain sizes).data = w ∧
    ((BodyReader.untilEof r).drain sizes).stop = .eof

/-- **A body that ends with the connection is handed out exactly**, whatever comes after the end. -/
theorem exact_new (options : ReadOptions) (hs : s.Flows) (hmore : Ends more) :
    Exact s.stream (.new options (s.extend more)) := by
  have hhas : Has more (.untilEof (.new options (s.extend more))) s.stream :=
    .reading hs rfl rfl
  refine ⟨fun sizes hsizes ↦ ?_, fun sizes ↦ ?_⟩
  · exact ((delivers_has hmore).handsOut hhas tidy_untilEof hsizes).1
  · obtain ⟨hdata, hstop, -⟩ := (delivers_has hmore).drain hhas sizes
    exact ⟨hdata, hstop⟩

end UntilEofBody

namespace BodyReader

/-- **Bodies without a coding are handed out exactly**, however the transport cuts its octets and
however they are asked for: of a known length, or all that comes until the transport ends, be it for
good or not. -/
theorem exact_of_flows (options : ReadOptions) (hs : s.Flows) :
    (∀ n, BoundBody.Exact s.stream (.new options n s)) ∧
      ∀ more, Ends more → UntilEofBody.Exact s.stream (.new options (s.extend more)) :=
  ⟨BoundBody.exact_new options hs, fun _ hmore ↦ UntilEofBody.exact_new options hs hmore⟩

/-- Some octets are buffered, and the transport brings more, in two fragments, the second of which
is too long for one read. -/
theorem exact_of_fragments :
    Source.Flows ⟨[0x61], [.octets [0x62], .octets [0x63, 0x64, 0x65]], 0⟩ ∧
      (∀ n, BoundBody.Exact [0x61, 0x62, 0x63, 0x64, 0x65]
        (.new ⟨.standard, 2⟩ n ⟨[0x61], [.octets [0x62], .octets [0x63, 0x64, 0x65]], 0⟩)) ∧
      ∀ more, Ends more → UntilEofBody.Exact [0x61, 0x62, 0x63, 0x64, 0x65]
        (.new ⟨.standard, 2⟩
          (Source.extend ⟨[0x61], [.octets [0x62], .octets [0x63, 0x64, 0x65]], 0⟩ more)) := by
  have hs : Source.Flows ⟨[0x61], [.octets [0x62], .octets [0x63, 0x64, 0x65]], 0⟩ := by decide
  exact ⟨hs, exact_of_flows ⟨.standard, 2⟩ hs⟩

end BodyReader

end HttpFraming
