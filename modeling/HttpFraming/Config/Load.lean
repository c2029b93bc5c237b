import HttpFraming.Config.Json
import HttpFraming.Message.Version
import HttpFraming.Stream.Options
import HttpFraming.Url.Basic

/-!
# Options and data from JSON

What may be left out of a document takes its standard value. Of the options everything may be left
out; of a version nothing; of a URL all but the path.

A record is given as an object or as an array, as `record?` reads them. Each type names its fields
in their order once, and says of each whether it may be missing and what it has to be. Numbers have
the bounds of the places that they are loaded for: sizes and counts fit in 64 bits, the numbers of a
version in 32, and a port in 16. Nothing else is checked, so that a URL that is loaded has the parts
that the document gives, whether or not a URL with such parts could be written and read back.
-/

namespace HttpFraming

/-- Sizes and counts fit in 64 bits. -/
def sizeBound : Nat := UInt64.size

namespace Limits

/-- Limits from a value. -/
def ofJson? (value : Json) : Option Limits := do
  let fields ← value.record?
    ["max_url_size", "max_reason_size", "max_header_size", "max_headers_number"] true
  match fields with
  | [target, reason, header, headerCount] =>
    let size := fun fallback ↦ Json.withDefault? fallback (Json.naturalBelow? sizeBound)
    some {
      target := ← size standard.target target
      reason := ← size standard.reason reason
      header := ← size standard.header header
      headerCount := ← size standard.headerCount headerCount }
  | _ => none

/-- Limits from a document. -/
def load? (document : String) : Option Limits :=
  (Json.parse? document).bind ofJson?

end Limits

namespace ReadOptions

/-- Options from a value. -/
def ofJson? (value : Json) : Option ReadOptions := do
  match ← value.record? ["parsing", "read_buffer_size"] true with
  | [parsing, bufferSize] =>
    some {
      limits := ← Json.withDefault? standard.limits Limits.ofJson? parsing
      bufferSize :=
        ← Json.withDefault? standard.bufferSize (Json.naturalBelow? sizeBound) bufferSize }
  | _ => none

/-- Options from a document. -/
def load? (document : String) : Option ReadOptions :=
  (Json.parse? document).bind ofJson?

end ReadOptions

namespace Version

/-- A version from a value. -/
def ofJson? (value : Json) : Option Version := do
  match ← value.record? ["major", "minor"] false with
  | [some major, some minor] =>
    some ⟨← Json.naturalBelow? bound major, ← Json.naturalBelow? bound minor⟩
  | _ => none

/-- A version from a document. -/
def load? (document : String) : Option Version :=
  (Json.parse? document).bind ofJson?

end Version

namespace Url

/-- A URL from a value. -/
def ofJson? (value : Json) : Option Url := do
  let fields ← value.record?
    ["scheme", "userinfo", "host", "port", "path", "query", "fragment"] false
  match fields with
  | [scheme, userinfo, host, port, some path, query, fragment] =>
    some {
      scheme := ← Json.optional? Json.string? scheme
      userinfo := ← Json.optional? Json.string? userinfo
      host := ← Json.optional? Json.string? host
      port := ← Json.optional? (Json.naturalBelow? portBound) port
      path := ← Json.string? path
      query := ← Json.optional? Json.string? query
      fragment := ← Json.optional? Json.string? fragment }
  | _ => none

/-- A URL from a document. -/
def load? (document : String) : Option Url :=
  (Json.parse? document).bind ofJson?

end Url

end HttpFraming
