import HttpFraming.Loop
import HttpFraming.Stream.ChunkedBody
import HttpFraming.Stream.ReadAhead
import HttpFraming.Wire.Checked

/-!
# The reader of a chunked body as it is kept

A `ChunkedBody` says what comes of reading. A `WindowReader` is how it is kept: over a buffer that
is itself kept with an offset, with a window that is a range of places in what is buffered, and with
the number of octets to release when all of the window is handed out. There is always a range. It is
no window when it is empty, wherever it lies.

The range was found by one call of the decoder, and is used by reads that come later. So much may
have changed in between that it could lie anywhere. Where it does not lie in what is buffered, there
is no result (`Checked`). The `ChunkedBody` that a window reader is, is `WindowReader.toBody`.

## What could go wrong

* The beginning of the range is computed as a difference, from the number of octets that a call has
  consumed and the number of data found. Were there more data than octets consumed, it would lie
  before the first place.
* The range is cut out of what is buffered in a later read. Had the buffer been filled or consumed
  in between, other octets would be handed out, or none.
* The number of octets to release belongs to the same call. Released twice, it would drop octets
  that nobody has seen.

None of this happens, and the reason is one invariant, which names the call that the range comes
from.
-/

namespace HttpFraming

/-- A reader of a chunked body, as it is kept. -/
structure WindowReader where
  source : ReadAhead
  bufferSize : Nat
  decoder : ChunkedDecoder
  /-- The data found and not handed out yet, as places in what is buffered. -/
  unconsumed : Window
  /-- How many octets to release once all data found is handed out. -/
  lastParsed : Nat
  /-- Why decoding failed. -/
  error? : Option ParseError
deriving Repr, DecidableEq

namespace WindowReader

open Loop (Step)

def new (options : ReadOptions) (b : ReadAhead) : WindowReader :=
  ⟨b, options.bufferSize, .new options.limits, ⟨0, 0⟩, 0, none⟩

/-- There is data to hand out. -/
abbrev Pending (r : WindowReader) : Prop :=
  r.unconsumed.start < r.unconsumed.stop

/-- The reader with so many octets less in its window. -/
def advance (r : WindowReader) (count : Nat) : WindowReader :=
  { r with unconsumed := ⟨r.unconsumed.start + count, r.unconsumed.stop⟩ }

/-- Lets the buffer drop what was decoded. -/
def release (r : WindowReader) : WindowReader :=
  { r with source := r.source.consume r.lastParsed, lastParsed := 0 }

/-- The reader after so many octets are handed out. With the last octet of its window, all that was
decoded is released. -/
def handOut (r : WindowReader) (count : Nat) : WindowReader :=
  if (r.advance count).Pending then r.advance count else (r.advance count).release

/-- Copies at most `n` octets out of the window. -/
def copyOut? (r : WindowReader) (n : Nat) : Checked (Octets × WindowReader) :=
  let count := min n r.unconsumed.length
  let start := r.unconsumed.start
  (Checked.slice? r.source.buffered start (start + count)).map fun data ↦ (data, r.handOut count)

/-- The reader after a call of its decoder that has found data, which begin at `start`. All of the
buffer is kept. -/
def hold (r : WindowReader) (d : ChunkedDecoder.Decoded) (start : Nat) : WindowReader :=
  { r with decoder := d.decoder, unconsumed := ⟨start, d.consumed⟩, lastParsed := d.consumed }

/-- The reader after a call that has found none. What was consumed is released at once. -/
def pass (r : WindowReader) (d : ChunkedDecoder.Decoded) : WindowReader :=
  { r with source := r.source.consume d.consumed, decoder := d.decoder }

/-- Calls the decoder over what is buffered, and goes round again if it has found nothing. -/
def consumeRound (r : WindowReader) : Checked (Step WindowReader WindowReader) :=
  if r.source.buffered.isEmpty || r.decoder.done then some (.leave r)
  else
    let d := r.decoder.parse r.source.buffered
    match d.action with
    | .data window =>
      (Checked.before? d.consumed window.length).map fun start ↦ .leave (r.hold d start)
    | .none => some (.again (r.pass d))
    | .error e => some (.leave { r.pass d with error? := some e })

/-- Decodes what is buffered, up to the first data. -/
def consumeWithin (rounds : Nat) (r : WindowReader) : Checked WindowReader :=
  Loop.within consumeRound rounds r

/-- Hands out what was decoded, or decodes more. There is another round whatever the decoding has
come to. -/
def readRound (rounds n : Nat) (r : WindowReader) :
    Checked (Step WindowReader (Except ReadError Octets × WindowReader)) :=
  if r.Pending then (r.copyOut? n).map fun (data, r') ↦ .leave (.ok data, r')
  else
    match r.error? with
    | some e => some (.leave (.error (.parse e), r))
    | none =>
      if r.decoder.done then some (.leave (.error .eof, r))
      else
        match r.source.supply r.bufferSize with
        | (.failed cause, b) => some (.leave (.error (.transport cause), { r with source := b }))
        | (.ended, b) => some (.leave (.error .unexpectedEof, { r with source := b }))
        | (.ready, b) => (consumeWithin rounds { r with source := b }).map .again

/-- In so many rounds a read is over: each takes something off what the source can still deliver,
but for the one that finds data, and for the last. -/
def rounds (r : WindowReader) : Nat :=
  r.source.toSource.total + 2

/-- Reads at most `n` octets of the body. -/
def readSome? (r : WindowReader) (n : Nat) : Checked (Except ReadError Octets × WindowReader) :=
  if n = 0 then some (.ok [], r) else Loop.within (readRound r.rounds n) r.rounds r

/-! ### What a reader is -/

/-- The `ChunkedBody` that a reader is. -/
def toBody (r : WindowReader) : ChunkedBody :=
  ⟨r.source.toSource, r.bufferSize, r.decoder, if r.Pending then some r.unconsumed else none⟩

end WindowReader

end HttpFraming
