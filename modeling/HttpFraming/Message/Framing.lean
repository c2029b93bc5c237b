import HttpFraming.FieldValue.TokenList
import HttpFraming.Message.Head

/-!
# Message framing

Where the body of a message ends, and whether the connection outlives the message, is decided by the
head alone, after sections 3.3.3 and 6 of RFC 7230. Headers that contradict themselves decide
nothing: then there is no answer, and the message is to be refused.

## What is asked in which order

* A transfer coding comes first, if the version allows for one, and whatever a length says beside
  it.
* Then comes a length that is declared. `DeclaredLength` tells apart a length, no length, and
  headers from which no length follows: more than one value, or one that is no number below the
  bound.
* Where neither is there, requests and responses differ, so the answer is a parameter, `fallback`.

A response may have no body whatever its headers say, because of its code, or because of the request
that it answers. That is asked before anything else.

## Connections

The options of a connection are a token list, and a message whose options are none has no connection
status. Closing is asked for and wins; persisting is the rule from version 1.1 on and has to be
asked for in version 1.0.
-/

namespace HttpFraming

/-- How the end of a body is found. -/
inductive BodySize where
  /-- The body is so many octets long. -/
  | contentLength (n : Nat)
  /-- The body is in a transfer coding, which marks its own end. -/
  | transferEncoding
  /-- The body ends with the connection. -/
  | untilEof
deriving Repr, DecidableEq

/-- Whether the connection can carry another message. -/
inductive ConnectionStatus where
  | keepAlive
  | close
deriving Repr, DecidableEq

/-- What a head declares about the length of its body. -/
inductive DeclaredLength where
  | absent
  | length (n : Nat)
  /-- More than one value, or a value that is no number below `DeclaredLength.bound`. -/
  | malformed
deriving Repr, DecidableEq

namespace DeclaredLength

/-- Lengths fit in 64 bits. -/
def bound : Nat := UInt64.size

/-- The length that `Content-Length` declares. -/
def ofHeaders (h : Headers) : DeclaredLength :=
  match h.getAll? "Content-Length" with
  | none => absent
  | some [value] =>
    match Decimal.readBelow? bound value.toList with
    | some n => length n
    | none => malformed
  | some _ => malformed

end DeclaredLength

namespace MessageHead

variable {α : Type} [MessageHead α]

/-- Whether a transfer coding applies. Before version 1.1 there is none, whatever the headers
say. -/
def hasTransferEncoding (m : α) : Bool :=
  decide (Version.http11 ≤ version m) &&
    match (headers m).getAll? "Transfer-Encoding" with
    | some values => !values.isEmpty
    | none => false

/-- The framing of a message that may have a body. A transfer coding comes before any declared
length; where neither is given, `fallback` applies. -/
def framing (m : α) (fallback : BodySize) : Option BodySize :=
  if hasTransferEncoding m then some .transferEncoding
  else
    match DeclaredLength.ofHeaders (headers m) with
    | .absent => some fallback
    | .length n => some (.contentLength n)
    | .malformed => none

/-- The connection options of a message, or nothing when they are not a token list. A message that
gives none has the empty list. -/
def connectionOptions? (m : α) : Option TokenList :=
  match (headers m).getAll? "Connection" with
  | none => some ⟨[]⟩
  | some values => TokenList.parseAll? values

/-- Whether the connection persists after a message. Asking to close always closes; else it persists
from version 1.1 on, and in version 1.0 when the message asks for it. -/
def connectionStatus? (m : α) : Option ConnectionStatus :=
  (connectionOptions? m).map fun options ↦
    if options.contains "close" then .close
    else if Version.http11 ≤ version m ∨
        (version m = Version.http10 ∧ options.contains "keep-alive" = true) then .keepAlive
    else .close

end MessageHead

/-- The framing of a request body. Without any declaration a request has no body. -/
def Request.bodySize? (q : Request) : Option BodySize :=
  MessageHead.framing q (.contentLength 0)

/-- The framing of a response body when the request is not known. Without any declaration the body
ends with the connection. -/
def Response.bodySize? (p : Response) : Option BodySize :=
  if p.status.hasNoBody then some (.contentLength 0)
  else MessageHead.framing p .untilEof

/-- The framing of a response body, given the request that it answers. Responses to `HEAD`, and
successful responses to `CONNECT`, have no body whatever their headers say. -/
def Response.bodySizeFor? (p : Response) (q : Request) : Option BodySize :=
  if p.status.hasNoBody || q.method == .head then some (.contentLength 0)
  else if q.method == .connect && p.status.isSuccess then some (.contentLength 0)
  else MessageHead.framing p .untilEof

end HttpFraming
