import HttpFraming.Proofs.Grammar.Chunked
import HttpFraming.Proofs.RoundTrip.Request
import HttpFraming.Proofs.Stream.Bound
import HttpFraming.Proofs.Stream.Chunked
import HttpFraming.Proofs.Stream.Progress

/-!
# Requests in a pipeline

A server reads a request and its body, and then the next request from where the body has ended.
Nothing but the messages themselves tells where one ends and the next begins, so that one octet too
many or too few at any place would make something else of all that follows.

`Pipeline.read` is that loop. It comes to an end whatever the transport does, as every request takes
something of the source. `Pipeline.read_of_sends` says that it does not lose its place: of requests
that are written one after the other, each with its body in the framing that it announces, it reads
the same requests and bodies, however they are delivered.

## What it rests on

Each part of a message is settled elsewhere, as a statement about the whole stream of a source and
what is left of it, so that the parts can be put one behind the other:

* a request that is written is parsed as it was (`HttpFraming.Proofs.RoundTrip.Request`), and a head
  that is accepted leaves what follows it (`readHead_of_accepted`);
* a body of a known length leaves what follows it (`BoundBody.readsToEnd_new`), and so does a
  chunked body that is spelled by the grammar (`ChunkedBody.readsToEnd_new`, with the completeness
  of the decoder from `HttpFraming.Proofs.Grammar.Chunked`);
* the framing of a request is not changed by writing `Host` in front (`forRequest_withHostFirst`).

`exists_read_eq_prepend` is one round of the loop, and the theorem is an induction on the messages.
Between the rounds only two things are kept: the source flows, and its stream is what is still to be
read. What is buffered at that moment, be it a part of the next message, is nobody's concern.
-/

namespace HttpFraming

namespace Pipeline

/-- A request with its body. -/
structure Message where
  request : Request
  body : Octets
deriving Repr, DecidableEq

/-- What ends the loop. -/
inductive Stop where
  /-- There is no other request. -/
  | head (cause : ReadError)
  /-- A request does not say where its body ends. -/
  | framing (cause : BodyError)
  /-- A body does not come to its end. -/
  | body (cause : ReadError)

/-- What comes of the loop: the messages, what has ended it, and the source afterwards. -/
structure Reading where
  messages : List Message
  stop : Stop
  source : Source

/-- A message that was read before comes first. -/
def Reading.prepend (m : Message) (later : Reading) : Reading :=
  { later with messages := m :: later.messages }

/-- Reads requests with their bodies until no other can be read. -/
def read (options : ReadOptions) (s : Source) : Reading :=
  match _h : readRequest options s with
  | (.error e, s') => ⟨[], .head e, s'⟩
  | (.ok q, s') =>
    match _hr : BodyReader.forRequest q options s' with
    | .error e => ⟨[], .framing e, s'⟩
    | .ok r =>
      match r.readToEnd.error? with
      | some e => ⟨[], .body e, r.readToEnd.reader.source⟩
      | none => (read options r.readToEnd.reader.source).prepend ⟨q, r.readToEnd.data⟩
termination_by s.total
decreasing_by
  have hhead := total_readHead_lt (by decide) _h
  have hbody := r.total_readToEnd_le
  rw [BodyReader.source_of_forRequest _hr] at hbody
  exact Nat.lt_of_le_of_lt hbody hhead

variable {options : ReadOptions} {s s' : Source}

/-- Where no request can be read, the loop ends. -/
theorem read_of_error {e : ReadError} (h : readRequest options s = (.error e, s')) :
    read options s = ⟨[], .head e, s'⟩ := by
  rw [read]
  split
  · rename_i hread
    rw [h] at hread
    cases hread
    rfl
  · rename_i hread
    rw [h] at hread
    cases hread

/-- A request that is read with its body is followed by the next. -/
theorem read_of_ok {q : Request} {r : BodyReader} (h : readRequest options s = (.ok q, s'))
    (hr : BodyReader.forRequest q options s' = .ok r) (hend : r.readToEnd.error? = none) :
    read options s =
      (read options r.readToEnd.reader.source).prepend ⟨q, r.readToEnd.data⟩ := by
  rw [read]
  split
  · rename_i hread
    rw [h] at hread
    cases hread
  · rename_i hread
    rw [h] at hread
    cases hread
    split
    · rename_i hbody
      rw [hr] at hbody
      cases hbody
    · rename_i hbody
      rw [hr] at hbody
      cases hbody
      simp only [hend]

/-! ### What is sent -/

/-- Some octets carry the body of a request, in the framing that the request announces: as it is, or
as any chunked body that spells it. -/
inductive SendsBody (limits : Limits) (q : Request) (body : Octets) : Octets → Prop
  | raw (size : q.bodySize? = some (.contentLength body.length)) : SendsBody limits q body body
  | chunked {coding : Extension} {t : ChunkedText} {x : Octets}
    (effective : MessageHead.hasTransferEncoding q = true)
    (codings : ExtensionList.parseAll? ((q.headers.getAll? "Transfer-Encoding").getD []) =
      some ⟨[coding]⟩)
    (name : sameName coding.name "chunked" = true) (spells : t.Spells x) (fits : t.Fits limits)
    (data : t.body = body) : SendsBody limits q body x

/-- Some octets are requests one after the other, each with its body. -/
inductive Sends (limits : Limits) : List Message → Octets → Prop
  | nil : Sends limits [] []
  | cons {m : Message} {ms : List Message} {x y : Octets} (writable : m.request.Writable)
    (fits : m.request.Fits limits) (body : SendsBody limits m.request m.body x)
    (rest : Sends limits ms y) :
    Sends limits (m :: ms) (Utf8.encode m.request.toText ++ (x ++ y))

/-- A message as it is received: the `Host` field comes before the others. -/
def Message.received (m : Message) : Message :=
  ⟨m.request.withHostFirst, m.body⟩

/-! ### One message -/

/-- Whether `Host` comes first has nothing to do with how a body is read. -/
theorem forRequest_withHostFirst (q : Request) (options : ReadOptions) (s : Source) :
    BodyReader.forRequest q.withHostFirst options s = BodyReader.forRequest q options s := by
  rw [BodyReader.forRequest, BodyReader.forRequest, q.bodySize?_withHostFirst]
  cases q.bodySize? with
  | none => rfl
  | some size =>
    cases size with
    | contentLength n => rfl
    | untilEof => rfl
    | transferEncoding =>
      simp only [BodyReader.ofFraming, BodyReader.ofTransferEncoding, Request.withHostFirst,
        Headers.getAll?_withHostFirst]

/-- A body that is sent in the framing that a request announces is read to its end. -/
theorem SendsBody.exists_readsToEnd {q : Request} {body x y : Octets}
    (h : SendsBody options.limits q body x) (hs : s.Flows) (hx : s.stream = x ++ y) :
    ∃ r, BodyReader.forRequest q options s = .ok r ∧ r.ReadsToEnd body y := by
  cases h with
  | raw size =>
    refine ⟨.bound (.new options body.length s), ?_, ?_⟩
    · rw [BodyReader.forRequest, size]
      rfl
    · have hlength : body.length ≤ s.stream.length := by simp [hx]
      have hreads := BoundBody.readsToEnd_new options hs hlength
      rw [hx, List.take_left, List.drop_left] at hreads
      exact hreads
  | @chunked coding t x effective codings name spells fits data =>
    refine ⟨.chunked (.new options s), ?_, ?_⟩
    · have hsize : q.bodySize? = some .transferEncoding := if_pos effective
      rw [BodyReader.forRequest, hsize]
      simp only [BodyReader.ofFraming, BodyReader.ofTransferEncoding, codings, name, if_true]
    · obtain ⟨houtcome, hbody⟩ : ((ChunkedDecoder.new options.limits).decode (x ++ y)).outcome =
            (.accepted t.trailers, x.length) ∧
          ((ChunkedDecoder.new options.limits).decode (x ++ y)).body = body :=
        ChunkedDecoder.accepts_iff_spells.2 ⟨t, spells, fits, rfl, data⟩
      rw [← hx] at houtcome hbody
      have hreads := ChunkedBody.readsToEnd_new hs houtcome
      rw [hbody, hx, List.drop_left] at hreads
      exact hreads

/-- A message is read in one round of the loop, and what follows it is read in the next. -/
theorem exists_read_eq_prepend {m : Message} {x y : Octets}
    (hwritable : m.request.Writable) (hfits : m.request.Fits options.limits)
    (hbody : SendsBody options.limits m.request m.body x) (hs : s.Flows)
    (hstream : s.stream = Utf8.encode m.request.toText ++ (x ++ y)) :
    ∃ s', s'.Flows ∧ s'.stream = y ∧ read options s = (read options s').prepend m.received := by
  have haccepted := hwritable.outcome_toText hfits (x ++ y)
  rw [← hstream] at haccepted
  obtain ⟨s₁, hhead, hs₁, hstream₁⟩ := readHead_of_accepted (by decide) hs haccepted
  rw [hstream, List.drop_left] at hstream₁
  obtain ⟨r, hr, hreads⟩ := hbody.exists_readsToEnd hs₁ hstream₁
  rw [← forRequest_withHostFirst] at hr
  refine ⟨r.readToEnd.reader.source, hreads.flows, hreads.stream, ?_⟩
  rw [read_of_ok hhead hr hreads.error?, hreads.data]
  rfl

/-- **A pipeline does not lose its place.** Requests that are written one after the other, each with
its body in the framing that it announces, are read as the same requests with the same bodies, and
then the connection is closed with nothing left. It does not matter how much of them is buffered, in
what fragments the rest is delivered, and how much is asked for at a time. -/
theorem read_of_sends (options : ReadOptions) {s : Source} (hs : s.Flows) {ms : List Message}
    (h : Sends options.limits ms s.stream) :
    (read options s).messages = ms.map Message.received ∧
      (read options s).stop = .head .connectionClosed ∧
        (read options s).source.buffer ++ (read options s).source.unread = [] := by
  generalize hw : s.stream = w at h
  induction h generalizing s with
  | nil =>
    obtain ⟨s', hhead, hstream⟩ := readHead_of_stream_eq_nil (H := Request) (by decide) hs hw
    rw [read_of_error hhead]
    exact ⟨rfl, rfl, hstream⟩
  | cons writable fits body rest ih =>
    obtain ⟨s', hs', hstream, hread⟩ := exists_read_eq_prepend writable fits body hs hw
    obtain ⟨hmessages, hstop, hrest⟩ := ih hs' hstream
    rw [hread]
    exact ⟨congrArg (_ :: ·) hmessages, hstop, hrest⟩

/-- A source of two requests, with two octets as they are and two in a chunk. A part of the first
head is buffered, and the connection is interrupted inside a line end. -/
def twoRequests : Source :=
  ⟨Utf8.encode "PUT / HTTP/1.1\r\nContent-Le",
    [.octets (Utf8.encode "ngth: 2\r"), .failure ⟨.interrupted, ""⟩, .octets (Utf8.encode
      "\n\r\nabPUT / HTTP/1.1\r\nTransfer-Encoding: chunked\r\n\r\n2\ncd\n0\n\n")], 0⟩

/-- Both are read, three octets at a time. -/
theorem read_of_sends_two :
    twoRequests.Flows ∧ (read ⟨.standard, 3⟩ twoRequests).messages =
      [⟨⟨.put, "/", .http11, .ofList [("Content-Length", "2")]⟩, [0x61, 0x62]⟩,
        ⟨⟨.put, "/", .http11, .ofList [("Transfer-Encoding", "chunked")]⟩, [0x63, 0x64]⟩] := by
  have hflows : twoRequests.Flows := by decide
  have hfirst : (⟨.put, "/", .http11, .ofList [("Content-Length", "2")]⟩ : Request).Writable :=
    ⟨⟨"PUT", by decide⟩, by decide, by decide, by decide, by decide, by decide,
      ⟨Headers.Built.empty.insertAll "Content-Length" ["2"], by decide, by decide, by decide⟩⟩
  have hsecond : (⟨.put, "/", .http11, .ofList [("Transfer-Encoding", "chunked")]⟩ :
      Request).Writable :=
    ⟨⟨"PUT", by decide⟩, by decide, by decide, by decide, by decide, by decide,
      ⟨Headers.Built.empty.insertAll "Transfer-Encoding" ["chunked"], by decide, by decide,
        by decide⟩⟩
  have htwo : Radix.hexadecimal.Spells UInt64.size 2 [0x32] :=
    ⟨List.cons_ne_nil _ _, by decide, by decide, by decide⟩
  have hzero : Radix.hexadecimal.Spells UInt64.size 0 [0x30] :=
    ⟨List.cons_ne_nil _ _, by decide, by decide, by decide⟩
  have hsize : SpellsSize 2 [0x32, 0x0A] := .mk htwo .absent .lf
  have hlast : SpellsSize 0 [0x30, 0x0A] := .mk hzero .absent .lf
  have hspells : (⟨[[0x63, 0x64]], []⟩ : ChunkedText).Spells
      [0x32, 0x0A, 0x63, 0x64, 0x0A, 0x30, 0x0A, 0x0A] :=
    .mk (c := ⟨[[0x63, 0x64]], []⟩) (.cons (List.cons_ne_nil _ _) hsize .lf .nil) hlast .nil .lf
  have hcodings : ExtensionList.parseAll? ["chunked"] = some ⟨[⟨"chunked", []⟩]⟩ := by cbv
  have hchunked : SendsBody .standard
      ⟨.put, "/", .http11, .ofList [("Transfer-Encoding", "chunked")]⟩ [0x63, 0x64]
        [0x32, 0x0A, 0x63, 0x64, 0x0A, 0x30, 0x0A, 0x0A] :=
    .chunked (by decide) hcodings (by decide) hspells ⟨by decide, List.forall_mem_nil _⟩ rfl
  have hstream : twoRequests.stream =
      Utf8.encode (Request.toText ⟨.put, "/", .http11, .ofList [("Content-Length", "2")]⟩) ++
        ([0x61, 0x62] ++ (Utf8.encode (Request.toText
          ⟨.put, "/", .http11, .ofList [("Transfer-Encoding", "chunked")]⟩) ++
            ([0x32, 0x0A, 0x63, 0x64, 0x0A, 0x30, 0x0A, 0x0A] ++ []))) := by decide +kernel
  have hsends : Sends .standard
      [⟨⟨.put, "/", .http11, .ofList [("Content-Length", "2")]⟩, [0x61, 0x62]⟩,
        ⟨⟨.put, "/", .http11, .ofList [("Transfer-Encoding", "chunked")]⟩, [0x63, 0x64]⟩]
      twoRequests.stream := by
    rw [hstream]
    exact .cons hfirst ⟨by decide, by decide, by decide⟩ (.raw (by decide))
      (.cons hsecond ⟨by decide, by decide, by decide⟩ hchunked .nil)
  exact ⟨hflows, (read_of_sends ⟨.standard, 3⟩ hflows hsends).1.trans (by decide)⟩

end Pipeline

end HttpFraming
