import HttpFraming.FieldValue.ExtensionList
import HttpFraming.Message.Framing
import HttpFraming.Stream.BoundBody
import HttpFraming.Stream.ChunkedBody
import HttpFraming.Stream.UntilEofBody

/-!
# Reading message bodies

The head of a message decides how its body is read. A body reader holds the source while it reads;
the source is taken back when the reading is over, with what follows the body still in it.

## Choosing a reader

There is one reader for each framing, and `BodyReader.ofFraming` chooses. It fails where the head
contradicts itself, and where the body is in a transfer coding that is not `chunked` alone: a coding
that is applied before `chunked` would have to be undone, and one after it would hide the end.

## Reading

`BodyReader.readSome` reads into a destination of some size, and `BodyReader.readRest` reads until
there is an error, of which the end of the body is one. To read nothing touches nothing. A read that
returns something returns at least one octet, or else reading to the end would not come to an end:
what each framing lowers with every such read is its `rank`, a pair of numbers compared one after
the other.
-/

namespace HttpFraming

/-- A reader of a body of any framing. -/
inductive BodyReader where
  | bound (r : BoundBody)
  | chunked (r : ChunkedBody)
  | untilEof (r : UntilEofBody)
deriving Repr, DecidableEq

namespace BodyReader

/-- The source that a reader holds. -/
def source : BodyReader → Source
  | bound r => r.source
  | chunked r => r.source
  | untilEof r => r.source

/-- The trailers of a chunked body. -/
def trailers? : BodyReader → Option Headers
  | chunked r => some r.trailers
  | _ => none

/-! ### Choosing a reader -/

/-- The reader for a body in a transfer coding, which has to be `chunked` and nothing else. -/
def ofTransferEncoding (h : Headers) (options : ReadOptions) (s : Source) :
    Except BodyError BodyReader :=
  match ExtensionList.parseAll? ((h.getAll? "Transfer-Encoding").getD []) with
  | none => .error .badMessage
  | some ⟨[coding]⟩ =>
    if sameName coding.name "chunked" then .ok (chunked (.new options s))
    else .error .unsupportedEncoding
  | some _ => .error .unsupportedEncoding

/-- The reader for a body of some framing. -/
def ofFraming (size : Option BodySize) (h : Headers) (options : ReadOptions) (s : Source) :
    Except BodyError BodyReader :=
  match size with
  | none => .error .badMessage
  | some (.contentLength n) => .ok (bound (.new options n s))
  | some .untilEof => .ok (untilEof (.new options s))
  | some .transferEncoding => ofTransferEncoding h options s

/-- The reader for the body of a request. -/
def forRequest (q : Request) (options : ReadOptions) (s : Source) : Except BodyError BodyReader :=
  ofFraming q.bodySize? q.headers options s

/-- The reader for the body of a response when the request is not known. -/
def forResponse (p : Response) (options : ReadOptions) (s : Source) :
    Except BodyError BodyReader :=
  ofFraming p.bodySize? p.headers options s

/-- The reader for the body of a response to a request. -/
def forResponseTo (p : Response) (q : Request) (options : ReadOptions) (s : Source) :
    Except BodyError BodyReader :=
  ofFraming (p.bodySizeFor? q) p.headers options s

/-! ### Reading -/

/-- Reads at most `n` octets of the body. Asking for none touches nothing. -/
def readSome (r : BodyReader) (n : Nat) : Except ReadError Octets × BodyReader :=
  match r with
  | bound r =>
    let (result, r') := r.readSome n
    (result, bound r')
  | chunked r =>
    let (result, r') := r.readSome n
    (result, chunked r')
  | untilEof r =>
    let (result, r') := r.readSome n
    (result, untilEof r')

/-- Reads at most `n` octets as from a transport, where the end of the body reads as nothing. -/
def read (r : BodyReader) (n : Nat) : Except Failure Octets × BodyReader :=
  match r.readSome n with
  | (.ok data, r') => (.ok data, r')
  | (.error .eof, r') => (.ok [], r')
  | (.error e, r') => (.error e.toFailure, r')

/-- The rank of a reader, which every successful read lowers. -/
def rank : BodyReader → Nat × Nat
  | bound r => (r.source.total, 0)
  | chunked r => r.rank
  | untilEof r => (r.source.total, 0)

/-- Reading something lowers the rank. -/
theorem rank_readSome_lt {r r' : BodyReader} {n : Nat} {data : Octets} (hn : n ≠ 0)
    (h : r.readSome n = (.ok data, r')) :
    Prod.Lex (· < ·) (· < ·) r'.rank r.rank := by
  cases r with
  | bound r =>
    simp only [readSome, Prod.mk.injEq] at h
    obtain ⟨hdata, rfl⟩ := h
    exact .left _ _ (BoundBody.total_readSome_lt hn (Prod.ext hdata rfl))
  | chunked r =>
    simp only [readSome, Prod.mk.injEq] at h
    obtain ⟨hdata, rfl⟩ := h
    exact ChunkedBody.rank_readSome_lt hn (Prod.ext hdata rfl)
  | untilEof r =>
    simp only [readSome, Prod.mk.injEq] at h
    obtain ⟨hdata, rfl⟩ := h
    exact .left _ _ (UntilEofBody.total_readSome_lt hn (Prod.ext hdata rfl))

/-- Whoever got an octet has asked for one. -/
theorem ne_zero_of_readSome {r r' : BodyReader} {n : Nat} {b : UInt8} {data : Octets}
    (h : r.readSome n = (.ok (b :: data), r')) : n ≠ 0 := by
  rintro rfl
  cases r <;>
    simp [readSome, BoundBody.readSome, ChunkedBody.readSome, UntilEofBody.readSome] at h

/-- What comes of reading the rest of a body: the data, what stopped it short of the end, and the
reader afterwards. -/
structure Rest where
  data : Octets
  error? : Option ReadError
  reader : BodyReader

/-- Reads the rest of a body, at most `n` octets at a time. With `n = 0` there is nothing to
read. -/
def readRest (r : BodyReader) (n : Nat) : Rest :=
  match _h : r.readSome n with
  | (.error .eof, r') => ⟨[], none, r'⟩
  | (.error e, r') => ⟨[], some e, r'⟩
  | (.ok [], r') => ⟨[], none, r'⟩
  | (.ok (b :: data), r') =>
    let rest := r'.readRest n
    { rest with data := b :: data ++ rest.data }
termination_by r.rank
decreasing_by
  exact rank_readSome_lt (ne_zero_of_readSome _h) _h

/-- How much is read at a time when the whole body is wanted. -/
def copySize : Nat := 4096

/-- Reads the rest of a body. -/
def readToEnd (r : BodyReader) : Rest :=
  r.readRest copySize

end BodyReader

end HttpFraming
