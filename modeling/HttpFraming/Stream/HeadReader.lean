import HttpFraming.Stream.Error
import HttpFraming.Stream.Options
import HttpFraming.Wire.HeadParser

/-!
# Reading message heads

A head is read from a source by feeding a parser with what is buffered, and filling the buffer only
when the parser has used all of it. What follows the head stays in the source.

## When the transport is read

A parser that is not done has consumed all it was fed, so that the buffer is empty when it is
filled. A parser that is done is asked for its result at once, and then the transport is left alone,
also where the head ends with the last octet that is buffered. `HeadReader.readWith` terminates
because a fill that brings something shortens what the transport will do; a fill that brings nothing
is the end of the connection.

## How the end is reported

A connection that ends before the first octet of a head has ended as connections do. One that ends
within a head has not. The two errors are told apart by whether anything was received since the
reading began, and octets that were buffered before count as received.
-/

namespace HttpFraming

namespace HeadReader

variable {H : Type} [ReadableHead H]

/-- Feeds a parser with what is buffered. -/
def feedBuffer (p : HeadParser H) (s : Source) : HeadParser H × Source :=
  if s.buffer.isEmpty then (p, s)
  else
    let (p', n) := p.parse s.buffer
    (p', s.consume n)

/-- To parse what is buffered does not touch the transport. -/
theorem script_feedBuffer (p : HeadParser H) (s : Source) :
    (feedBuffer p s).2.script = s.script := by
  unfold feedBuffer Source.consume
  split <;> rfl

/-- Reads until a parser is done. Whether anything has come at all decides how the end of the
connection is reported. -/
def readWith (bufferSize : Nat) (p : HeadParser H) (s : Source) (received : Bool) :
    Except ReadError H × Source :=
  let received := received || !s.buffer.isEmpty
  let fed := feedBuffer p s
  if fed.1.done then (fed.1.toExcept.mapError .parse, fed.2)
  else
    match _h : fed.2.fill bufferSize with
    | (.error cause, s') => (.error (.transport cause), s')
    | (.ok 0, s') => (.error (if received then .unexpectedEof else .connectionClosed), s')
    | (.ok (_ + 1), s') => readWith bufferSize fed.1 s' received
termination_by Delivery.weight s.script
decreasing_by
  have hlt := Source.weight_fill_lt _h
  rw [script_feedBuffer] at hlt
  exact hlt

end HeadReader

/-- Reads a head, within the limits that the options set. -/
def readHead (H : Type) [ReadableHead H] (options : ReadOptions) (s : Source) :
    Except ReadError H × Source :=
  HeadReader.readWith options.bufferSize (HeadParser.new options.limits : HeadParser H) s false

/-- Reads the head of a request. -/
def readRequest (options : ReadOptions) (s : Source) : Except ReadError Request × Source :=
  readHead Request options s

/-- Reads the head of a response. -/
def readResponse (options : ReadOptions) (s : Source) : Except ReadError Response × Source :=
  readHead Response options s

end HttpFraming
