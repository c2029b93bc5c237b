import HttpFraming.Message.Framing

/-!
# Assembling responses

A builder collects what a response is to say about its body and its connection, and writes the
headers that say so. Nothing is written that the version implies on its own.

## What is asked, and what is added

Two things are asked of a builder and can be asked anew: how the body is framed, and what becomes of
the connection. The later request replaces the earlier. Header values that are added are another
matter, they are all kept in their order and written as they are. When the response is built, what
is asked for is written into the headers that were added (`announceBody`, `announceConnection`): a
length and a connection option take the place of what their field had, and a coding is added to its
field. Where a caller adds one of these fields by hand and asks for something that another field
says, both come to stand in the response; what it then says is worked out beside the theory of
framing, with the exact condition under which it says what was asked for.

## Answering a request

`Request.prepareResponse` begins a response that treats the connection as the request does. A
request whose connection options are no list, or whose version is below 1.0, has no response of this
kind, and the error names the status to answer with instead.
-/

namespace HttpFraming

/-- A response in the making. -/
structure ResponseBuilder where
  version : Version
  headers : Headers
  bodySize? : Option BodySize
  connectionStatus? : Option ConnectionStatus
deriving Repr, DecidableEq

namespace ResponseBuilder

/-- A response of version 1.1 about which nothing is asked. -/
def new : ResponseBuilder := ⟨.http11, .empty, none, none⟩

instance : Inhabited ResponseBuilder := ⟨new⟩

def withVersion (b : ResponseBuilder) (version : Version) : ResponseBuilder :=
  { b with version := version }

/-- Adds a header value. -/
def addHeader (b : ResponseBuilder) (name value : String) : ResponseBuilder :=
  { b with headers := b.headers.insert name value }

/-- Asks for a connection that persists. -/
def keepAlive (b : ResponseBuilder) : ResponseBuilder :=
  { b with connectionStatus? := some .keepAlive }

/-- Asks for a connection that is closed. -/
def close (b : ResponseBuilder) : ResponseBuilder :=
  { b with connectionStatus? := some .close }

/-- Asks for a body of a known length. -/
def contentLength (b : ResponseBuilder) (n : Nat) : ResponseBuilder :=
  { b with bodySize? := some (.contentLength n) }

/-- Asks for a body in chunks. -/
def chunked (b : ResponseBuilder) : ResponseBuilder :=
  { b with bodySize? := some .transferEncoding }

/-- Writes what is asked about the body. -/
def announceBody (b : ResponseBuilder) (h : Headers) : Headers :=
  match b.bodySize? with
  | some (.contentLength n) => h.replace "Content-Length" [Decimal.print n]
  | some .transferEncoding => h.insert "Transfer-Encoding" "chunked"
  | some .untilEof | none => h

/-- Writes what is asked about the connection, unless the version implies it. -/
def announceConnection (b : ResponseBuilder) (h : Headers) : Headers :=
  match b.connectionStatus? with
  | some .close =>
    if Version.http11 ≤ b.version then h.replace "Connection" ["close"] else h
  | some .keepAlive =>
    if b.version ≤ Version.http10 then h.replace "Connection" ["keep-alive"] else h
  | none => h

/-- The response with a code and a reason. -/
def build (b : ResponseBuilder) (code : Nat) (reason : String) : Response :=
  ⟨code, reason, b.version, b.announceConnection (b.announceBody b.headers)⟩

/-- The response with a status and its standard reason, which is empty for a code that has none. -/
def buildStatus (b : ResponseBuilder) (s : Status) : Response :=
  b.build s.code (s.reason?.getD "")

end ResponseBuilder

/-- Why a request cannot be answered in the usual way. -/
inductive PrepareError where
  /-- The connection options are malformed. -/
  | badMessage
  /-- The version is below 1.0. -/
  | unsupportedVersion
deriving Repr, DecidableEq

namespace PrepareError

def message : PrepareError → String
  | badMessage => "bad message"
  | unsupportedVersion => "unsupported protocol version"

/-- The status to answer with. -/
def responseStatus : PrepareError → Status
  | badMessage => .badRequest
  | unsupportedVersion => .httpVersionNotSupported

end PrepareError

/-- Begins the response to a request, which treats the connection as the request does. -/
def Request.prepareResponse (q : Request) : Except PrepareError ResponseBuilder :=
  if q.version.major < 1 then .error .unsupportedVersion
  else
    match MessageHead.connectionStatus? q with
    | some .keepAlive => .ok ResponseBuilder.new.keepAlive
    | some .close => .ok ResponseBuilder.new.close
    | none => .error .badMessage

end HttpFraming
