import HttpFraming.Url.Basic
import HttpFraming.Url.Percent

/-!
# Normal forms of URLs

URLs that are written differently may name the same thing. The normal form removes the differences
of case, of escaping and of dot segments, and, where that is asked for, those that only `http` and
`https` allow to remove.

## Dot segments

A path is read from left to right, and its segments, each with the slash in front of it, are kept on
a stack. A segment `.` vanishes; a segment `..` takes the top of the stack with it. The slash that
follows a removed segment stays in the input, where it begins the next segment.

## Part by part

Scheme and host are brought to lower case, path and query have their escapes brought to normal form,
and then dot segments leave the path. What stands in front of the path is not looked at, and neither
are the other parts where one is changed. So the normal form is given part by part, and there is one
equation for each part at the end of this module. Everything that is proved of normal forms uses
those equations, and not the definition.

With the rules of `http` and `https`, a port that is the default one of the scheme is dropped, and
an empty path becomes a slash. These rules come after the others, since they ask for the scheme in
lower case and for the path without dot segments.
-/

namespace HttpFraming

namespace Path

/-- Reads the rest of a path onto a stack of segments, the latest first. -/
def segments (stack : List (List Char)) : List Char → List (List Char)
  | [] => stack
  | '.' :: '/' :: rest => segments stack rest
  | '.' :: '.' :: '/' :: rest => segments stack rest
  | '/' :: '.' :: '/' :: rest => segments stack ('/' :: rest)
  | ['/', '.'] => ['/'] :: stack
  | '/' :: '.' :: '.' :: '/' :: rest => segments stack.tail ('/' :: rest)
  | ['/', '.', '.'] => ['/'] :: stack.tail
  | ['.'] => stack
  | ['.', '.'] => stack
  | c :: rest => segments ((c :: rest.takeWhile (· != '/')) :: stack) (rest.dropWhile (· != '/'))
termination_by s => s.length
decreasing_by
  all_goals simp only [List.length_cons]
  · omega
  · omega
  · omega
  · omega
  · have := length_dropWhile_le (· != '/') rest
    omega

/-- A path without dot segments, in characters. -/
def removeDots (s : List Char) : List Char :=
  (segments [] s).reverse.flatten

/-- A path without dot segments. -/
def normalize (path : String) : String :=
  String.ofList (removeDots path.toList)

/-- The normal form of the path of a URL, in characters. -/
def normalChars (http : Bool) (s : List Char) : List Char :=
  if http && (removeDots (Percent.normalizeChars s)).isEmpty then ['/']
  else removeDots (Percent.normalizeChars s)

end Path

namespace Url

/-- The port that a scheme in lower case has when none is given. -/
def defaultPort? (scheme : Option String) : Option Nat :=
  match scheme with
  | some "http" => some 80
  | some "https" => some 443
  | _ => none

/-- The normal form under the rules that hold for every scheme. -/
def normalizeGeneral (u : Url) : Url :=
  { u with
    scheme := u.scheme.map lowerCase
    host := u.host.map lowerCase
    path := Path.normalize (Percent.normalize u.path)
    query := u.query.map Percent.normalize }

/-- Drops a port that is the default for `http` or `https`, and gives an empty path its slash. -/
def normalizeHttp (u : Url) : Url :=
  { u with
    port := if u.port = defaultPort? u.scheme then none else u.port
    path := if u.path.isEmpty then "/" else u.path }

/-- The normal form of a URL, with or without the rules of `http` and `https`. -/
def normalize (u : Url) (http : Bool) : Url :=
  if http then u.normalizeGeneral.normalizeHttp else u.normalizeGeneral

section
variable (u : Url) (http : Bool)

@[simp] theorem scheme_normalize : (u.normalize http).scheme = u.scheme.map lowerCase := by
  cases http <;> rfl

@[simp] theorem userinfo_normalize : (u.normalize http).userinfo = u.userinfo := by
  cases http <;> rfl

@[simp] theorem host_normalize : (u.normalize http).host = u.host.map lowerCase := by
  cases http <;> rfl

/-- The port is dropped where the rules ask for it, and stays elsewhere. -/
@[simp] theorem port_normalize : (u.normalize http).port =
    if http = true ∧ u.port = defaultPort? (u.scheme.map lowerCase) then none else u.port := by
  by_cases hport : u.port = defaultPort? (u.scheme.map lowerCase) <;> cases http <;>
    simp [normalize, normalizeGeneral, normalizeHttp, hport]

/-- The path has its escapes and its dot segments brought to normal form, and is not left empty
where the rules ask for a slash. -/
@[simp] theorem toList_path_normalize :
    (u.normalize http).path.toList = Path.normalChars http u.path.toList := by
  cases http
  · simp [normalize, normalizeGeneral, Path.normalize, Percent.normalize, Path.normalChars]
  · have hempty (t : List Char) : (String.ofList t).isEmpty = t.isEmpty := by
      cases t <;> simp [String.isEmpty_iff]
    simp only [normalize, normalizeGeneral, normalizeHttp, Path.normalize, Percent.normalize,
      Path.normalChars, String.toList_ofList, hempty, if_true, Bool.true_and]
    split <;> simp

@[simp] theorem query_normalize : (u.normalize http).query = u.query.map Percent.normalize := by
  cases http <;> rfl

/-- The fragment stays as it is. -/
@[simp] theorem fragment_normalize : (u.normalize http).fragment = u.fragment := by
  cases http <;> rfl

end

end Url

end HttpFraming
