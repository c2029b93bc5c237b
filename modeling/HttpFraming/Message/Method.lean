import HttpFraming.Text.CharClass

/-!
# Request methods

A method is a token, and case matters. Nine methods are known by name; every other token is an
extension method, which keeps its name.

So the known methods and the extension methods overlap as types do, but not as methods read from a
text: a text that names a known method is read as that method, and is never an extension. What holds
in any case is that the text is the name (`Method.name_of_parse?`), and two methods that are read
are the same exactly where their texts are.
-/

namespace HttpFraming

/-- A request method. -/
inductive Method where
  | get
  | head
  | post
  | put
  | delete
  | connect
  | options
  | trace
  | patch
  /-- Any other token, such as `PROPFIND`. -/
  | extension (name : String)
deriving Repr, DecidableEq

namespace Method

/-- A method not named otherwise is `GET`. -/
instance : Inhabited Method := ⟨get⟩

/-- The token that names a method. -/
def name : Method → String
  | get => "GET"
  | head => "HEAD"
  | post => "POST"
  | put => "PUT"
  | delete => "DELETE"
  | connect => "CONNECT"
  | options => "OPTIONS"
  | trace => "TRACE"
  | patch => "PATCH"
  | extension n => n

/-- Whether a method is none of the nine known ones. -/
def isExtension : Method → Bool
  | extension _ => true
  | _ => false

/-- The known methods. -/
def known : List Method :=
  [get, head, post, put, delete, connect, options, trace, patch]

/-- Whether a text is a token: not empty, and made of `tchar` only. -/
def isToken (s : String) : Bool :=
  !s.toList.isEmpty && s.toList.all fun c ↦ CharClass.isTchar c.toNat

/-- Reads a method from a whole text. -/
def parse? (s : String) : Option Method :=
  match known.find? (·.name == s) with
  | some m => some m
  | none => if isToken s then some (extension s) else none

/-- A text that is no method. -/
structure Invalid where
  text : String
deriving Repr, DecidableEq

/-- What is said about a text that is no method. -/
def Invalid.message (e : Invalid) : String :=
  "invalid HTTP method: " ++ e.text

/-- Reads a method from a whole text, and says which text it was when it is none. -/
def parse (s : String) : Except Invalid Method :=
  match parse? s with
  | some m => .ok m
  | none => .error ⟨s⟩

/-- The method that is read is named by the text it was read from. -/
theorem name_of_parse? {s : String} {m : Method} (h : parse? s = some m) : m.name = s := by
  unfold parse? at h
  split at h
  · rename_i k hk
    cases h
    simpa using List.find?_some hk
  · split at h
    · cases h; rfl
    · simp at h

end Method

end HttpFraming
