/-!
# What can be wrong with a message

Errors are causes. A cause says which rule was broken, and `message` is the one place where it is
put into words. A function that refuses something returns a cause and never a text, so that what is
proved of errors is proved of causes and does not depend on their wording.

There are three layers. A lexer knows how octets break the grammar (`SyntaxError`); a parser also
knows limits, encodings and calls out of turn (`ParseError`); and readers know transports. Each
layer has the errors of the one below as a case. The broad classification, `ParseError.kind`, is a
function of the cause, and so is the question whether a limit was hit.
-/

namespace HttpFraming

/-- How octets break the grammar of messages. -/
inductive SyntaxError where
  /-- The method is no token, or is too long. -/
  | invalidMethod
  /-- The request target holds a blank or a control. -/
  | invalidTarget
  /-- The protocol name of the start line is not there. -/
  | invalidConstant
  | invalidVersion
  /-- The status code is not three digits. -/
  | invalidStatus
  /-- The reason phrase holds a control. -/
  | invalidReason
  /-- A header name holds something else than token characters, or no colon follows it. -/
  | invalidFieldName
  /-- A header value holds a control. -/
  | invalidFieldValue
  | lfExpected
  | crExpected
  /-- A header line begins with a blank. -/
  | obsoleteLineFolding
  /-- The size of a chunk is no hexadecimal number. -/
  | invalidChunkSize
  /-- The size of a chunk does not fit in 64 bits. -/
  | chunkSizeOverflow
  /-- Something follows the end. -/
  | closed
  /-- Whoever was told what was read refused to go on. -/
  | aborted
deriving Repr, DecidableEq

namespace SyntaxError

def message : SyntaxError → String
  | invalidMethod => "invalid HTTP method"
  | invalidTarget => "invalid request target"
  | invalidConstant => "invalid constant string"
  | invalidVersion => "invalid HTTP version"
  | invalidStatus => "invalid status code"
  | invalidReason => "invalid reason phrase"
  | invalidFieldName => "invalid header name"
  | invalidFieldValue => "invalid header value"
  | lfExpected => "LF expected"
  | crExpected => "CR expected"
  | obsoleteLineFolding => "obsolete line folding is not accepted"
  | invalidChunkSize => "invalid chunk size"
  | chunkSizeOverflow => "chunk size overflow"
  | closed => "data after end of message"
  | aborted => "aborted by callback"

end SyntaxError

/-- The parts of a message that have to be text. -/
inductive TextPart where
  | requestTarget
  | reasonPhrase
  | headerName
  | headerValue
deriving Repr, DecidableEq

namespace TextPart

def name : TextPart → String
  | requestTarget => "request target"
  | reasonPhrase => "reason phrase"
  | headerName => "header name"
  | headerValue => "header value"

end TextPart

/-- Why a head or a chunked body was refused. -/
inductive ParseError where
  /-- The octets break the grammar. -/
  | malformed (cause : SyntaxError)
  /-- A part that has to be text is not valid UTF-8. -/
  | notUtf8 (part : TextPart)
  /-- One header, name and value together, is longer than allowed. -/
  | headerTooLong
  /-- There are more header values than allowed. -/
  | tooManyHeaders
  | targetTooLong
  | reasonTooLong
  /-- The parser was given input after its end, or asked for a head before it. -/
  | wrongState
deriving Repr, DecidableEq

namespace ParseError

/-- A broad classification of errors. -/
inductive Kind where
  /-- The input does not follow the grammar. -/
  | malformed
  /-- The input follows the grammar and goes beyond a limit. -/
  | limitExceeded
  /-- The parser was used in the wrong state. -/
  | wrongState
deriving Repr, DecidableEq

def kind : ParseError → Kind
  | malformed _ => .malformed
  | notUtf8 _ => .malformed
  | headerTooLong => .limitExceeded
  | tooManyHeaders => .limitExceeded
  | targetTooLong => .limitExceeded
  | reasonTooLong => .limitExceeded
  | wrongState => .wrongState

/-- Whether a limit was hit. -/
def isLimitExceeded (e : ParseError) : Bool :=
  e.kind == .limitExceeded

def message : ParseError → String
  | malformed cause => "malformed message: " ++ cause.message
  | notUtf8 part => part.name ++ " is not valid UTF-8"
  | headerTooLong => "header too long"
  | tooManyHeaders => "too many headers"
  | targetTooLong => "request target too long"
  | reasonTooLong => "reason phrase too long"
  | wrongState => "parser already finished"

end ParseError

end HttpFraming
