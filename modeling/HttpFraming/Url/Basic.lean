import HttpFraming.Text.Cut
import HttpFraming.Text.Decimal
import HttpFraming.Text.CaseFold

/-!
# URLs

A URL in its components, after RFC 3986, and both ways between components and text. A component that
is absent is not the same as one that is empty, so that recomposition can be exact: what
`Url.parse?` takes apart, `Url.toText` puts together again, but for ports written in a long way.

Reading is stricter than the general syntax for the schemes `http` and `https`, which need a host
and allow no user information.

## The order in which a text is taken apart

A scheme is divided off first, if a colon comes before any slash, question mark and number sign, and
then an authority, if two slashes follow. Of what is left, the fragment and then the query are
divided off at the first of their marks. The rest is the path, and nothing more is asked of it. The
authority is divided into user information, host and port. Each of these steps is a function of its
own, with its own conditions, and each is inverted by itself where the reading of URLs is
characterised.

## What is not checked

Path, query and fragment may be made of any characters but blanks and controls. In particular, a
percent sign need not begin an escape. What becomes of such a text when it is normalized is a
question of its own.
-/

namespace HttpFraming

open CharClass

/-- A URL in its components. The host is without the brackets of an IP literal; the path is always
there, possibly empty. -/
structure Url where
  scheme : Option String
  userinfo : Option String
  host : Option String
  port : Option Nat
  path : String
  query : Option String
  fragment : Option String
deriving Repr, DecidableEq

namespace Url

instance : Inhabited Url := ⟨⟨none, none, none, none, "", none, none⟩⟩

/-! ### Recomposition -/

/-- A host as it is written: one with a colon in it stands in brackets. -/
def hostText (host : String) : String :=
  if host.toList.contains ':' then "[" ++ host ++ "]" else host

/-- What stands between the scheme and the path. -/
def authorityText (u : Url) : String :=
  if u.userinfo.isNone && u.host.isNone && u.port.isNone then ""
  else
    "//" ++ (u.userinfo.elim "" fun i ↦ i ++ "@") ++ u.host.elim "" hostText ++
      u.port.elim "" fun n ↦ ":" ++ Decimal.print n

/-- A URL as text. -/
def toText (u : Url) : String :=
  (u.scheme.elim "" fun s ↦ s ++ ":") ++ u.authorityText ++ u.path ++
    (u.query.elim "" fun q ↦ "?" ++ q) ++ u.fragment.elim "" fun f ↦ "#" ++ f

/-! ### Decomposition -/

/-- Whether a text is a scheme: a letter, and then scheme characters. -/
def isScheme : List Char → Bool
  | [] => false
  | c :: cs => isAlpha c.toNat && cs.all fun d ↦ isSchemeChar d.toNat

/-- Whether a scheme is `http` or `https`, in whatever case. -/
def isHttp (scheme : Option String) : Bool :=
  match scheme with
  | none => false
  | some s => sameName s "http" || sameName s "https"

/-- Ports fit in 16 bits. -/
def portBound : Nat := UInt16.size

/-- Reads what follows the colon after a host: nothing, or a number. -/
def readPort? : List Char → Option (Option Nat)
  | [] => some none
  | digits => (Decimal.readBelow? portBound digits).map some

/-- Reads a host in brackets, given what follows the opening one, and a port. -/
def readLiteral? (s : List Char) : Option (String × Option Nat) :=
  match cut? (· == ']') s with
  | none => none
  | some (host, _, rest) =>
    if host.contains ':' && host.all (fun c ↦ isLiteralChar c.toNat) then
      match rest with
      | [] => some (String.ofList host, none)
      | ':' :: digits => (readPort? digits).map (String.ofList host, ·)
      | _ => none
    else none

/-- Reads a host name and a port, which the first colon divides. -/
def readName? (s : List Char) : Option (String × Option Nat) :=
  let (host, digits) := match cut? (· == ':') s with
    | some (host, _, digits) => (host, digits)
    | none => (s, [])
  if host.all fun c ↦ isHostChar c.toNat then (readPort? digits).map (String.ofList host, ·)
  else none

/-- Reads a host and a port. -/
def readHostPort? : List Char → Option (String × Option Nat)
  | '[' :: rest => readLiteral? rest
  | s => readName? s

/-- Divides off the scheme, if the first of `:`, `/`, `?` and `#` is a colon; fails if what stands
before that colon is no scheme. -/
def splitScheme? (s : List Char) : Option (Option String × List Char) :=
  match cut? (fun c ↦ c == ':' || c == '/' || c == '?' || c == '#') s with
  | some (scheme, ':', rest) =>
    if isScheme scheme then some (some (String.ofList scheme), rest) else none
  | _ => some (none, s)

/-- Whether a character ends the authority. -/
def endsAuthority (c : Char) : Bool :=
  c == '/' || c == '?' || c == '#'

/-- An authority in its parts. -/
structure Authority where
  userinfo : Option String
  host : String
  port : Option Nat
deriving Repr, DecidableEq

/-- Reads an authority for a scheme. -/
def readAuthority? (scheme : Option String) (s : List Char) : Option Authority :=
  match cut? (· == '@') s with
  | some (userinfo, _, hostPort) =>
    if isHttp scheme || hostPort.contains '@' then none
    else (readHostPort? hostPort).map fun (host, port) ↦ ⟨some (String.ofList userinfo), host, port⟩
  | none =>
    match readHostPort? s with
    | none => none
    | some (host, port) =>
      if host.isEmpty && isHttp scheme then none else some ⟨none, host, port⟩

/-- Divides off the authority, if two slashes begin it. The schemes `http` and `https` need one. -/
def splitAuthority? (scheme : Option String) (s : List Char) :
    Option (Option Authority × List Char) :=
  match s with
  | '/' :: '/' :: rest =>
    (readAuthority? scheme (rest.takeWhile (!endsAuthority ·))).map fun a ↦
      (some a, rest.dropWhile (!endsAuthority ·))
  | _ => if isHttp scheme then none else some (none, s)

/-- Divides off what follows the first character `mark`. -/
def splitAt (mark : Char) (s : List Char) : List Char × Option String :=
  match cut? (· == mark) s with
  | some (before, _, after) => (before, some (String.ofList after))
  | none => (s, none)

/-- Reads a URL from its characters. -/
def ofChars? (s : List Char) : Option Url :=
  if s.isEmpty || !s.all fun c ↦ isTargetChar c.toNat then none
  else
    match splitScheme? s with
    | none => none
    | some (scheme, afterScheme) =>
      match splitAuthority? scheme afterScheme with
      | none => none
      | some (authority, afterAuthority) =>
        let (beforeFragment, fragment) := splitAt '#' afterAuthority
        let (path, query) := splitAt '?' beforeFragment
        some {
          scheme := scheme
          userinfo := authority.bind Authority.userinfo
          host := authority.map Authority.host
          port := authority.bind Authority.port
          path := String.ofList path
          query := query
          fragment := fragment }

/-- Reads a URL, absolute or relative. Blanks and controls are nowhere allowed, and the empty text
is no URL. -/
def parse? (s : String) : Option Url :=
  ofChars? s.toList

end Url

end HttpFraming
