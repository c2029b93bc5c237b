import HttpFraming.Message.Headers
import HttpFraming.Message.Method
import HttpFraming.Message.Status
import HttpFraming.Message.Version

/-!
# Message heads

A head is a start line and header fields. Requests and responses differ in the start line; what they
have in common, the version and the fields, is the class `MessageHead`. Whatever is decided by these
two alone, framing and persistence above all, is defined and proved once for both.

A head is kept as it was received: the target is a text and no URL, the reason is a text that
nothing depends on, and the code is a number. It is written with its `Host` field first, since that
is where recipients look for it, and with its other fields in their order. That a head that is
written is read back has therefore to say what happens to the order of its fields, and no more than
that.
-/

namespace HttpFraming

/-- What every message head has. -/
class MessageHead (α : Type) where
  version : α → Version
  headers : α → Headers

/-- The head of a request. The target is kept as it was received. -/
structure Request where
  method : Method
  target : String
  version : Version
  headers : Headers
deriving Repr, DecidableEq

/-- The head of a response. The reason may be empty. -/
structure Response where
  code : Nat
  reason : String
  version : Version
  headers : Headers
deriving Repr, DecidableEq

instance : MessageHead Request where
  version := Request.version
  headers := Request.headers

instance : MessageHead Response where
  version := Response.version
  headers := Response.headers

/-- The request line, the header fields and the empty line. -/
def Request.toText (q : Request) : String :=
  q.method.name ++ " " ++ q.target ++ " " ++ q.version.toText ++ "\r\n" ++
    q.headers.toText ++ "\r\n"

/-- The status of a response. -/
def Response.status (p : Response) : Status :=
  ⟨p.code⟩

/-- The status line, the header fields and the empty line. The code has three digits or more. -/
def Response.toText (p : Response) : String :=
  p.version.toText ++ " " ++ Decimal.printPadded 3 p.code ++ " " ++ p.reason ++ "\r\n" ++
    p.headers.toText ++ "\r\n"

end HttpFraming
