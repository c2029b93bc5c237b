import HttpFraming.Message.Status
import HttpFraming.Stream.Source
import HttpFraming.Wire.Error

/-!
# What can go wrong in reading

Reading from a source ends in the way that was expected, or because the connection ended, because
the message was refused, or because the transport failed. A body that has ended as it should is one
of these cases (`ReadError.eof`), since whoever reads has to stop there as elsewhere, but not a
failure. It is told apart by `ReadError.isEof`.

Users that know no failures but those of a transport are given these errors in such terms
(`ReadError.toFailure`). A failure of the transport is handed through unchanged. What the message or
the end of the connection is to blame for becomes a failure of a kind of its own, with the words of
the error.

That there is no reader for a body is an error of another type, because it is found out from the
head before anything is read. It names the status with which to answer the message.
-/

namespace HttpFraming

/-- Why a reader has nothing to return. -/
inductive ReadError where
  /-- The body has ended. This is no failure. -/
  | eof
  /-- The connection ended in the middle of a message. -/
  | unexpectedEof
  /-- The connection ended before the first octet of a head. -/
  | connectionClosed
  /-- What came is no valid message. -/
  | parse (cause : ParseError)
  /-- The transport failed. -/
  | transport (cause : Failure)
deriving Repr, DecidableEq

namespace ReadError

/-- Whether a body has ended as it should. -/
def isEof : ReadError → Bool
  | eof => true
  | _ => false

def message : ReadError → String
  | eof => "end of body"
  | unexpectedEof => "connection closed before the end of the message"
  | connectionClosed => "connection closed"
  | parse cause => "parse error: " ++ cause.message
  | transport cause => "I/O error: " ++ cause.message

/-- A read error in the terms of a transport, for users that know no other failures. -/
def toFailure (e : ReadError) : Failure :=
  match e with
  | transport cause => cause
  | parse _ => ⟨.invalidData, e.message⟩
  | eof | unexpectedEof | connectionClosed => ⟨.unexpectedEof, e.message⟩

end ReadError

/-- Why there is no reader for the body of a message. -/
inductive BodyError where
  /-- The headers on framing are malformed or contradict each other. -/
  | badMessage
  /-- The body is in a transfer coding other than `chunked`. -/
  | unsupportedEncoding
deriving Repr, DecidableEq

namespace BodyError

def message : BodyError → String
  | badMessage => "bad message"
  | unsupportedEncoding => "unsupported transfer encoding"

/-- The status to answer with. -/
def responseStatus : BodyError → Status
  | badMessage => .badRequest
  | unsupportedEncoding => .notImplemented

end BodyError

end HttpFraming
