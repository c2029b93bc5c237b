import HttpFraming.Text.Decimal

/-!
# Status codes

A status code is a number; the registered ones have a standard reason phrase. A code that is not
registered is as good as any other. It has no standard reason, and belongs to the class that its
first digit says, for which only ranges are asked: nothing here limits a code to three digits.

The registry is a list in the order of the codes, and is read with `reason?`. Nothing depends on a
reason but the text of a response.
-/

namespace HttpFraming

/-- The code of a response. -/
structure Status where
  code : Nat
deriving Repr, DecidableEq

namespace Status

/-- The registered codes with their reason phrases, by code. -/
def registry : List (Nat × String) :=
  [(100, "Continue"),
   (101, "Switching Protocols"),
   (102, "Processing"),
   (200, "OK"),
   (201, "Created"),
   (202, "Accepted"),
   (203, "Non-Authoritative Information"),
   (204, "No Content"),
   (205, "Reset Content"),
   (206, "Partial Content"),
   (207, "Multi-Status"),
   (208, "Already Reported"),
   (226, "IM Used"),
   (300, "Multiple Choices"),
   (301, "Moved Permanently"),
   (302, "Found"),
   (303, "See Other"),
   (304, "Not Modified"),
   (305, "Use Proxy"),
   (307, "Temporary Redirect"),
   (308, "Permanent Redirect"),
   (400, "Bad Request"),
   (401, "Unauthorized"),
   (402, "Payment Required"),
   (403, "Forbidden"),
   (404, "Not Found"),
   (405, "Method Not Allowed"),
   (406, "Not Acceptable"),
   (407, "Proxy Authentication Required"),
   (408, "Request Timeout"),
   (409, "Conflict"),
   (410, "Gone"),
   (411, "Length Required"),
   (412, "Precondition Failed"),
   (413, "Payload Too Large"),
   (414, "URI Too Long"),
   (415, "Unsupported Media Type"),
   (416, "Range Not Satisfiable"),
   (417, "Expectation Failed"),
   (421, "Misdirected Request"),
   (422, "Unprocessable Entity"),
   (423, "Locked"),
   (424, "Failed Dependency"),
   (426, "Upgrade Required"),
   (428, "Precondition Required"),
   (429, "Too Many Requests"),
   (431, "Request Header Fields Too Large"),
   (451, "Unavailable For Legal Reasons"),
   (500, "Internal Server Error"),
   (501, "Not Implemented"),
   (502, "Bad Gateway"),
   (503, "Service Unavailable"),
   (504, "Gateway Timeout"),
   (505, "HTTP Version Not Supported"),
   (506, "Variant Also Negotiates"),
   (507, "Insufficient Storage"),
   (508, "Loop Detected"),
   (510, "Not Extended"),
   (511, "Network Authentication Required")]

def badRequest : Status := ⟨400⟩

def notImplemented : Status := ⟨501⟩

def httpVersionNotSupported : Status := ⟨505⟩

/-- The standard reason phrase of a registered code. -/
def reason? (s : Status) : Option String :=
  registry.lookup s.code

/-- Whether a code announces a further response: 100 to 199. -/
def isInformational (s : Status) : Bool :=
  100 ≤ s.code && s.code < 200

/-- Whether a code reports success: 200 to 299. -/
def isSuccess (s : Status) : Bool :=
  200 ≤ s.code && s.code < 300

/-- Whether responses with a code never have a body. -/
def hasNoBody (s : Status) : Bool :=
  s.isInformational || s.code == 204 || s.code == 304

/-- The code in three digits or more, with the reason phrase of a registered one. -/
def toText (s : Status) : String :=
  match s.reason? with
  | some phrase => Decimal.printPadded 3 s.code ++ " " ++ phrase
  | none => Decimal.printPadded 3 s.code

end Status

end HttpFraming
