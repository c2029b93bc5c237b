import HttpFraming.Loop
import HttpFraming.Stream.BodyReader
import HttpFraming.Stream.HeadReader

/-!
# The loops of the readers

`readHead`, `BodyReader.readSome` and `BodyReader.readToEnd` say what comes of reading. Here is how
it comes about: by loops within loops, each of which goes round until there is something to return.

* A read of a transport is repeated after an interruption (`Reception.attempt`).
* A head is read by feeding a parser and filling the buffer in turns (`HeadReader.round`).
* A chunked body is decoded call by call, as long as something is buffered
  (`ChunkedBody.consumeRound`), and the buffer is filled when nothing is (`ChunkedBody.readRound`).
  A window from which nothing is left to hand out is no window here: were a decoder to find one that
  is empty, the octets would be decoded again, and again.
* The rest of a body is copied one read at a time (`BodyReader.copyRound`), where a read that
  returned nothing would be followed by another.

## Why these are defined twice

The functions that are named first are recursive where they can be, and their recursion ends because
of something that had to be proved before they could be defined at all. A statement that reading
ends says nothing about them: they are total. The loops here are cut off after a given number of
rounds, and have no result where the number is not enough. That some number is enough, that it is
bounded by what the source still has, and that the result is then the one of the recursive function,
is what there is to prove of termination.
-/

namespace HttpFraming

open Loop (Step)

/-- Reads once, at most `max` octets, and again after an interruption. The state is the script and
the number of reads so far. -/
def Reception.attempt (max : Nat) :
    List Delivery × Nat → Option (Step (List Delivery × Nat) Reception)
  | ([], reads) => some (.leave ⟨.ok [], [], reads + 1⟩)
  | (.octets data :: rest, reads) =>
    some (.leave ⟨.ok (data.take max),
      if data.length ≤ max then rest else .octets (data.drop max) :: rest, reads + 1⟩)
  | (.failure cause :: rest, reads) =>
    if cause.kind = .interrupted then some (.again (rest, reads + 1))
    else some (.leave ⟨.error cause, rest, reads + 1⟩)

namespace HeadReader

variable {H : Type} [ReadableHead H]

/-- Fills the buffer for a parser that is not done. -/
def refill (bufferSize : Nat) (p : HeadParser H) (s : Source) (received : Bool) :
    Step (HeadParser H × Source × Bool) (Except ReadError H × Source) :=
  match s.fill bufferSize with
  | (.error cause, s') => .leave (.error (.transport cause), s')
  | (.ok 0, s') => .leave (.error (if received then .unexpectedEof else .connectionClosed), s')
  | (.ok (_ + 1), s') => .again (p, s', received)

/-- Feeds a parser with what is buffered, and fills the buffer if it is not done. -/
def round (bufferSize : Nat) : HeadParser H × Source × Bool →
    Option (Step (HeadParser H × Source × Bool) (Except ReadError H × Source))
  | (p, s, received) =>
    if s.buffer.isEmpty then some (refill bufferSize p s received)
    else
      let (p', n) := p.parse s.buffer
      if p'.done then some (.leave (p'.toExcept.mapError .parse, s.consume n))
      else some (refill bufferSize p' (s.consume n) true)

/-- Reads a head in a given number of rounds. -/
def readWithin (rounds : Nat) (options : ReadOptions) (s : Source) :
    Option (Except ReadError H × Source) :=
  Loop.within (round options.bufferSize) rounds (HeadParser.new options.limits, s, false)

end HeadReader

namespace ChunkedBody

/-- Calls the decoder over what is buffered, and goes round again if it has found nothing. -/
def consumeRound (r : ChunkedBody) : Option (Step ChunkedBody ChunkedBody) :=
  if r.source.buffer.isEmpty || r.decoder.done then some (.leave r)
  else
    let d := r.decoder.parse r.source.buffer
    match d.action with
    | .data window =>
      some (.leave { r with
        decoder := d.decoder
        window? := some ⟨d.consumed - window.length, d.consumed⟩ })
    | .none =>
      some (.again { r with source := r.source.consume d.consumed, decoder := d.decoder })
    | .error _ =>
      some (.leave { r with source := r.source.consume d.consumed, decoder := d.decoder })

/-- Decodes what is buffered, up to the first data. -/
def consumeWithin (rounds : Nat) (r : ChunkedBody) : Option ChunkedBody :=
  Loop.within consumeRound rounds r

/-- Hands out what was decoded, or decodes more. There is another round whatever the decoding has
come to. -/
def readRound (rounds n : Nat) (r : ChunkedBody) :
    Option (Step ChunkedBody (Except ReadError Octets × ChunkedBody)) :=
  match r.window?.filter fun w ↦ w.start < w.stop with
  | some w =>
    let (data, r') := r.handOut w n
    some (.leave (.ok data, r'))
  | none =>
    match r.decoder.draft.stage with
    | .failed e => some (.leave (.error (.parse e), r))
    | .complete => some (.leave (.error .eof, r))
    | .reading =>
      match r.source.supply r.bufferSize with
      | (.failed cause, s) => some (.leave (.error (.transport cause), { r with source := s }))
      | (.ended, s) => some (.leave (.error .unexpectedEof, { r with source := s }))
      | (.ready, s) => (consumeWithin rounds { r with source := s }).map .again

/-- Reads at most `n` octets of the body in a given number of rounds. -/
def readSomeWithin (rounds : Nat) (r : ChunkedBody) (n : Nat) :
    Option (Except ReadError Octets × ChunkedBody) :=
  if n = 0 then some (.ok [], r) else Loop.within (readRound rounds n) rounds r

end ChunkedBody

namespace BodyReader

/-- Reads at most `n` octets of a body in a given number of rounds. Where the body is not coded,
there is nothing to repeat. -/
def readSomeWithin (rounds : Nat) (r : BodyReader) (n : Nat) :
    Option (Except ReadError Octets × BodyReader) :=
  match r with
  | bound r => some ((r.readSome n).1, bound (r.readSome n).2)
  | chunked r => (r.readSomeWithin rounds n).map fun read ↦ (read.1, chunked read.2)
  | untilEof r => some ((r.readSome n).1, untilEof (r.readSome n).2)

/-- What comes of copying the rest of a body: all octets of the copy, how many of them came from the
body or why it was left, and the reader afterwards. -/
structure Copied where
  out : Octets
  result : Except ReadError Nat
  reader : BodyReader
deriving Repr

/-- Reads once and puts the octets at the end of the copy. The state is the reader, the copy and the
number of octets that it has put there. -/
def copyRound (rounds : Nat) : BodyReader × Octets × Nat →
    Option (Step (BodyReader × Octets × Nat) Copied)
  | (r, out, total) =>
    match readSomeWithin rounds r copySize with
    | none => none
    | some (.ok data, r') => some (.again (r', out ++ data, total + data.length))
    | some (.error .eof, r') => some (.leave ⟨out, .ok total, r'⟩)
    | some (.error e, r') => some (.leave ⟨out, .error e, r'⟩)

/-- Copies the rest of a body behind some octets, in a given number of rounds. -/
def copyWithin (rounds : Nat) (r : BodyReader) (out : Octets) : Option Copied :=
  Loop.within (copyRound rounds) rounds (r, out, 0)

end BodyReader

end HttpFraming
