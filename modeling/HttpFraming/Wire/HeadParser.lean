import HttpFraming.Message.Head
import HttpFraming.Wire.FieldCollector
import HttpFraming.Wire.Lexer

/-!
# Parsing message heads

A head parser is fed the octets of a connection, in whatever pieces they come, until it has a whole
head or an error. It consumes the head and no octet more. `HeadParser.parse` takes one piece, and
`HeadParser.parsePieces` a list of them.

Requests and responses are read alike. What differs is which part a lexer has to read, and how a
head is put together from the raw start line; that is the class `ReadableHead`, and there is one
parser for both.

## What is collected

The lexer reports the parts of a head in pieces, and a draft collects them within the limits:
method, target and reason as octets, and the header lines in a `FieldCollector`. A limit is checked
before a piece is kept. When the lexer has come to the end of the headers, the head is put together
from the draft, and only there it turns out whether method, target and reason are text.

## The last line feed

The lexer stops in front of the line feed that ends the head, at which the head is put together. The
parser itself consumes the line feed, in the same call, so that nobody ever sees a parser in the
stage `awaitingLf`.

## After the end

A parser that is done has a head or an error. A call on such a parser consumes nothing and leaves
the error of a call out of turn, also where there was a head, which is then gone.
-/

namespace HttpFraming

/-- The octets of a start line. A part that the line does not have stays empty. -/
structure RawStartLine where
  method : Octets
  target : Octets
  reason : Octets
deriving Repr, DecidableEq

/-- A head that can be read from octets. -/
class ReadableHead (H : Type) where
  /-- What the lexer has to read. -/
  part : MessagePart
  /-- Puts a head together, but for its headers. -/
  assemble : RawStartLine → StartLine → Except ParseError (Headers → H)

/-- A request is named by a method and a target, both of which have to be text. -/
instance : ReadableHead Request where
  part := .request
  assemble raw line :=
    match (Utf8.decode? raw.method).bind Method.parse? with
    | none => .error (.malformed .invalidMethod)
    | some method =>
      match Utf8.decode? raw.target with
      | none => .error (.notUtf8 .requestTarget)
      | some target => .ok fun headers ↦ ⟨method, target, line.version, headers⟩

/-- A response is named by a status code and a reason, which has to be text. -/
instance : ReadableHead Response where
  part := .response
  assemble raw line :=
    match Utf8.decode? raw.reason with
    | none => .error (.notUtf8 .reasonPhrase)
    | some reason => .ok fun headers ↦ ⟨line.status, reason, line.version, headers⟩

/-- How far a head is read. -/
inductive Stage (H : Type) where
  | reading
  /-- All is read but the last line feed. -/
  | awaitingLf (head : H)
  | complete (head : H)
  | failed (cause : ParseError)
deriving Repr, DecidableEq

/-- A head in the making: what the lexer has reported so far. -/
structure HeadDraft (H : Type) where
  limits : Limits
  raw : RawStartLine
  fields : FieldCollector
  stage : Stage H
deriving Repr, DecidableEq

namespace HeadDraft

variable {H : Type} [ReadableHead H]

def new (limits : Limits) : HeadDraft H :=
  ⟨limits, ⟨[], [], []⟩, .empty, .reading⟩

/-- Takes a piece of a part, within the limits. -/
def collect (d : HeadDraft H) (span : Span) (piece : Octets) : Except ParseError (HeadDraft H) :=
  match span with
  | .method => .ok { d with raw := { d.raw with method := d.raw.method ++ piece } }
  | .target =>
    if d.limits.target < d.raw.target.length + piece.length then .error .targetTooLong
    else .ok { d with raw := { d.raw with target := d.raw.target ++ piece } }
  | .reason =>
    if d.limits.reason < d.raw.reason.length + piece.length then .error .reasonTooLong
    else .ok { d with raw := { d.raw with reason := d.raw.reason ++ piece } }
  | .fieldName => (d.fields.addName d.limits piece).map fun fields ↦ { d with fields := fields }
  | .fieldValue => (d.fields.addValue d.limits piece).map fun fields ↦ { d with fields := fields }
  | .chunkData => .ok d

/-- The head of which a draft has all parts. -/
def assemble (d : HeadDraft H) (line : StartLine) : Except ParseError H :=
  match ReadableHead.assemble d.raw line with
  | .error e => .error e
  | .ok withHeaders => d.fields.finish.map withHeaders

/-- Takes what the lexer reports. Whatever goes wrong stops the lexer. -/
def handle (d : HeadDraft H) : Event → HeadDraft H × Flow
  | .piece span piece =>
    match d.collect span piece with
    | .ok d' => (d', .proceed)
    | .error e => ({ d with stage := .failed e }, .abort)
  | .headEnd line =>
    match d.assemble line with
    | .ok head => ({ d with stage := .awaitingLf head }, .pause)
    | .error e => ({ d with stage := .failed e }, .abort)
  | .bodyEnd => (d, .proceed)

end HeadDraft

/-- A parser of heads of one kind. -/
structure HeadParser (H : Type) [ReadableHead H] where
  lexer : Lexer (ReadableHead.part H)
  draft : HeadDraft H

/-- A parser of request heads. -/
abbrev RequestParser := HeadParser Request

/-- A parser of response heads. -/
abbrev ResponseParser := HeadParser Response

namespace HeadParser

variable {H : Type} [ReadableHead H]

/-- A parser that has read nothing. -/
def new (limits : Limits) : HeadParser H :=
  ⟨.new _, .new limits⟩

def limits (p : HeadParser H) : Limits :=
  p.draft.limits

def stage (p : HeadParser H) : Stage H :=
  p.draft.stage

def withStage (p : HeadParser H) (stage : Stage H) : HeadParser H :=
  { p with draft := { p.draft with stage := stage } }

/-- Whether the head is complete or parsing has failed. -/
def done (p : HeadParser H) : Bool :=
  match p.stage with
  | .complete _ | .failed _ => true
  | .reading | .awaitingLf _ => false

/-- Why parsing failed. -/
def error? (p : HeadParser H) : Option ParseError :=
  match p.stage with
  | .failed e => some e
  | _ => none

/-- The head, once it is complete. -/
def head? (p : HeadParser H) : Option H :=
  match p.stage with
  | .complete head => some head
  | _ => none

/-- The head, or why there is none. -/
def toExcept (p : HeadParser H) : Except ParseError H :=
  match p.stage with
  | .complete head => .ok head
  | .failed e => .error e
  | .reading | .awaitingLf _ => .error .wrongState

/-- Consumes the line feed that ends a head of which `n` octets of `data` are consumed already. -/
def takeLf (p : HeadParser H) (head : H) (data : Octets) (n : Nat) : HeadParser H × Nat :=
  match data.drop n with
  | [] => (p, n)
  | b :: _ =>
    if b = 0x0A then (p.withStage (.complete head), n + 1)
    else (p.withStage (.failed (.malformed .lfExpected)), n)

/-- Feeds some octets and returns how many of them belong to the head. -/
def parse (p : HeadParser H) (data : Octets) : HeadParser H × Nat :=
  match p.stage with
  | .complete _ | .failed _ => (p.withStage (.failed .wrongState), 0)
  | .awaitingLf head => p.takeLf head data 0
  | .reading =>
    let fed := p.lexer.feed HeadDraft.handle p.draft data
    let p' : HeadParser H := ⟨fed.lexer, fed.state⟩
    match fed.state.stage, fed.lexer.error? with
    | .failed _, _ => (p', fed.consumed)
    | _, some e => (p'.withStage (.failed (.malformed e)), fed.consumed)
    | .awaitingLf head, none => p'.takeLf head data fed.consumed
    | _, none => (p', fed.consumed)

/-! ### How much is consumed -/

/-- The line feed is one of the octets that are fed. -/
theorem consumed_takeLf_le (p : HeadParser H) (head : H) {data : Octets} {n : Nat}
    (h : n ≤ data.length) : (p.takeLf head data n).2 ≤ data.length := by
  unfold takeLf
  split
  · exact h
  · rename_i b rest hdrop
    have hlength := congrArg List.length hdrop
    rw [List.length_drop, List.length_cons] at hlength
    split
    · show n + 1 ≤ data.length
      omega
    · exact h

/-- No more is consumed than is fed. -/
theorem consumed_parse_le (p : HeadParser H) (data : Octets) :
    (p.parse data).2 ≤ data.length := by
  have hfed := Lexer.consumed_feed_le HeadDraft.handle p.lexer p.draft data
  unfold parse
  split
  · exact Nat.zero_le _
  · exact Nat.zero_le _
  · exact p.consumed_takeLf_le _ (Nat.zero_le _)
  · simp only
    split
    · exact hfed
    · exact hfed
    · exact consumed_takeLf_le _ _ hfed
    · exact hfed

/-! ### Pieces -/

/-- What comes of feeding an input in pieces: the parser afterwards, how many octets were consumed,
and in how many calls. -/
structure Progress (H : Type) [ReadableHead H] where
  parser : HeadParser H
  consumed : Nat
  calls : Nat

/-- Feeds one piece after the other, and none once the parser is done. -/
def parsePieces (p : HeadParser H) : List Octets → Progress H
  | [] => ⟨p, 0, 0⟩
  | piece :: rest =>
    let (p', n) := p.parse piece
    if p'.done then ⟨p', n, 1⟩
    else
      let later := p'.parsePieces rest
      ⟨later.parser, n + later.consumed, later.calls + 1⟩

end HeadParser

end HttpFraming
