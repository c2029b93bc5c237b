import HttpFraming.Loop
import HttpFraming.Wire.Checked
import HttpFraming.Wire.Lexer

/-!
# The lexer as it is kept

A `Lexer` says which octets make a message, in numbers without bound and with the octets of the open
part in a list. A `Scanner` is how it is kept: in numbers of fixed width, of which each is there in
all places, and without a copy of any octet. Of the open part it is known where in the input it
begins, its mark, and the part is cut out of the input when it is reported. The data of a chunk are
not gone through at all.

Nothing of this may go wrong: no number may leave its width, and no place may lie outside of the
input. Where one would, there is no result (`Checked`). The lexer that a scanner is, is
`Scanner.toLexer`.

## Where a scanner is unlike a lexer

* A scanner has one field for each number, and a place says which of them count. A phase has its
  numbers inside, so that two scanners may be one lexer.
* A scanner takes the data of a chunk as far as the input goes in one round, where a lexer takes as
  many steps as there are octets.
* A lexer keeps the open octets, and a scanner the place where they begin. At the end of an input
  the open part is reported up to there, and in the next input it begins at the first octet.

So a round of a scanner is one step of the lexer or many, and the proof that the two agree has to
treat the data of a chunk apart.
-/

namespace HttpFraming

open CharClass

/-- Where in a message the next octet stands. Unlike a `Phase`, it has no numbers but those that
count a few octets. -/
inductive Place where
  | requestStart
  | method
  | targetStart
  | target
  | responseStart
  | protocol (matched : BitVec 8)
  | majorStart
  | major
  | minorStart
  | minor
  | statusStart
  | status (digits : BitVec 8)
  | reasonStart
  | reason
  | startLineLf
  | fieldStart
  | fieldName
  | valueStart
  | fieldValue
  | fieldLf
  | headLf
  | headDone
  | sizeStart
  | size
  | sizeExtension
  | sizeLf
  | chunkData
  | dataEnd
  | dataLf
  | bodyDone
  | dead
deriving Repr, DecidableEq

/-- The part that is open in a place. The data of a chunk never stays open. -/
def Place.span? : Place → Option Span
  | method => some .method
  | target => some .target
  | reason => some .reason
  | fieldName => some .fieldName
  | fieldValue => some .fieldValue
  | _ => none

/-- A lexer of one kind of message part, as it is kept. -/
structure Scanner (part : MessagePart) where
  place : Place
  /-- Why it failed. -/
  error? : Option SyntaxError
  /-- Whether it waits to be resumed. -/
  paused : Bool
  major : BitVec 32
  minor : BitVec 32
  status : BitVec 16
  /-- How many octets of a method were read. -/
  methodLength : BitVec 64
  /-- The size of a chunk as far as it was read, and then how much of its data is still to come. -/
  remaining : BitVec 64
  /-- Whether the last chunk was read. -/
  trailing : Bool
deriving Repr, DecidableEq

namespace Scanner

variable {part : MessagePart}

/-- The place in which a part begins. -/
def startPlace : MessagePart → Place
  | .request => .requestStart
  | .response => .responseStart
  | .chunkedBody => .sizeStart

/-- A scanner that has read nothing. -/
def new (part : MessagePart) : Scanner part :=
  ⟨startPlace part, none, false, 0, 0, 0, 0, 0, false⟩

def enter (t : Scanner part) (place : Place) : Scanner part :=
  { t with place := place }

def fail (t : Scanner part) (e : SyntaxError) : Scanner part :=
  { t with place := .dead, error? := some e }

def pause (t : Scanner part) : Scanner part :=
  { t with paused := true }

/-- Lets a paused scanner go on. -/
def resume (t : Scanner part) : Scanner part :=
  { t with paused := false }

/-- A scanner after a handler has asked for something. -/
def obey (t : Scanner part) : Flow → Scanner part
  | .proceed => t
  | .pause => t.pause
  | .abort => t.fail .aborted

/-- What the start line says, once it is read. -/
def startLine (t : Scanner part) : StartLine :=
  ⟨⟨t.major.toNat, t.minor.toNat⟩, t.status.toNat⟩

/-! ### One octet -/

/-- What an octet makes a scanner do. -/
inductive Action (part : MessagePart) where
  /-- The octet belongs to the open part, or there is none. -/
  | pass (t : Scanner part)
  /-- A part begins with the octet. -/
  | mark (t : Scanner part)
  /-- The octet follows the open part. -/
  | close (span : Span) (t : Scanner part)
  /-- The octet follows a part that has no octets. -/
  | closeEmpty (span : Span) (t : Scanner part)
  /-- The octet is the first of what there is of the data of a chunk. -/
  | takeData
  /-- The octet is the line feed that ends a head or a chunked body. -/
  | endHeaders
  | reject (t : Scanner part) (cause : SyntaxError)

/-- The value of a decimal digit, or that the octet is none. -/
def digit? (b : UInt8) : Checked (Option (BitVec 32)) :=
  if isDigit b.toNat then
    (Checked.sub? b.toBitVec 0x30).map fun d ↦ some (d.setWidth 32)
  else some none

/-- What is done with a digit, and what with another octet. -/
def onDigit {α : Type} (b : UInt8) (digit : BitVec 32 → Checked α) (other : Checked α) :
    Checked α :=
  (digit? b).bind fun
    | some d => digit d
    | none => other

/-- A number with a digit more. -/
def append? {w : Nat} (base n d : BitVec w) : Checked (BitVec w) :=
  (Checked.mul? n base).bind fun m ↦ Checked.add? m d

/-- A number of a version with a digit more, unless it becomes too large. -/
def onVersionDigit {α : Type} (n d : BitVec 32) (fits : BitVec 32 → α) (large : α) : Checked α :=
  (append? 10 n d).map fun n' ↦ if n'.toNat ≤ Lexer.maxVersionNumber then fits n' else large

/-- The scanner after the size line of a chunk. A chunk of size zero is the last one, and the
trailer follows. -/
def afterSize (t : Scanner part) : Scanner part :=
  if t.remaining = 0 then { t with trailing := true, place := .fieldStart }
  else t.enter .chunkData

/-- What an octet makes a scanner do. -/
def act (t : Scanner part) (b : UInt8) : Checked (Action part) :=
  let c := b.toNat
  match t.place with
  | .requestStart =>
    if c = 0x0D ∨ c = 0x0A then some (.pass t)
    else if isTchar c then some (.mark { t with methodLength := 1, place := .method })
    else some (.reject t .invalidMethod)
  | .method =>
    if c = 0x20 then some (.close .method (t.enter .targetStart))
    else if isTchar c then
      (Checked.add? t.methodLength 1).map fun n ↦
        if Lexer.maxMethodLength < n.toNat then .reject { t with methodLength := n } .invalidMethod
        else .pass { t with methodLength := n }
    else some (.reject t .invalidMethod)
  | .targetStart =>
    if isTargetChar c then some (.mark (t.enter .target)) else some (.reject t .invalidTarget)
  | .target =>
    if c = 0x20 then some (.close .target (t.enter (.protocol 0)))
    else if c = 0x0D then
      some (.close .target { t with place := .startLineLf, major := 0, minor := 9 })
    else if c = 0x0A then
      some (.close .target { t with place := .fieldStart, major := 0, minor := 9 })
    else if isTargetChar c then some (.pass t)
    else some (.reject t .invalidTarget)
  | .responseStart =>
    if c = 0x0D ∨ c = 0x0A then some (.pass t)
    else if c = 0x48 then some (.pass (t.enter (.protocol 1)))
    else some (.reject t .invalidConstant)
  | .protocol matched =>
    Lexer.protocolName[matched.toNat]?.bind fun expected ↦
      if b ≠ expected then some (.reject t .invalidConstant)
      else if matched.toNat + 1 = Lexer.protocolName.length then some (.pass (t.enter .majorStart))
      else (Checked.add? matched 1).map fun n ↦ .pass (t.enter (.protocol n))
  | .majorStart =>
    onDigit b (fun d ↦ some (.pass { t with place := .major, major := d }))
      (some (.reject t .invalidVersion))
  | .major =>
    if c = 0x2E then some (.pass (t.enter .minorStart))
    else
      onDigit b
        (fun d ↦ onVersionDigit t.major d (fun n ↦ .pass { t with major := n })
          (.reject t .invalidVersion))
        (some (.reject t .invalidVersion))
  | .minorStart =>
    onDigit b (fun d ↦ some (.pass { t with place := .minor, minor := d }))
      (some (.reject t .invalidVersion))
  | .minor =>
    onDigit b
      (fun d ↦ onVersionDigit t.minor d (fun n ↦ .pass { t with minor := n })
        (.reject t .invalidVersion))
      (match part with
        | .request =>
          if c = 0x0D then some (.pass (t.enter .startLineLf))
          else if c = 0x0A then some (.pass (t.enter .fieldStart))
          else some (.reject t .invalidVersion)
        | .response =>
          if c = 0x20 then some (.pass (t.enter .statusStart))
          else some (.reject t .invalidVersion)
        | .chunkedBody => some (.reject t .invalidVersion))
  | .statusStart =>
    onDigit b (fun d ↦ some (.pass { t with place := .status 1, status := d.setWidth 16 }))
      (some (.reject t .invalidStatus))
  | .status digits =>
    onDigit b
      (fun d ↦
        if digits = 3 then some (.reject t .invalidStatus)
        else
          (append? 10 t.status (d.setWidth 16)).bind fun n ↦
            (Checked.add? digits 1).map fun k ↦ .pass { t with place := .status k, status := n })
      (if digits ≠ 3 then some (.reject t .invalidStatus)
        else if c = 0x20 then some (.pass (t.enter .reasonStart))
        else if c = 0x0D then some (.pass (t.enter .startLineLf))
        else if c = 0x0A then some (.pass (t.enter .fieldStart))
        else some (.reject t .invalidStatus))
  | .reasonStart =>
    if c = 0x0D then some (.pass (t.enter .startLineLf))
    else if c = 0x0A then some (.pass (t.enter .fieldStart))
    else if isFieldValueChar c then some (.mark (t.enter .reason))
    else some (.reject t .invalidReason)
  | .reason =>
    if c = 0x0D then some (.close .reason (t.enter .startLineLf))
    else if c = 0x0A then some (.close .reason (t.enter .fieldStart))
    else if isFieldValueChar c then some (.pass t)
    else some (.reject t .invalidReason)
  | .startLineLf =>
    if c = 0x0A then some (.pass (t.enter .fieldStart)) else some (.reject t .lfExpected)
  | .fieldStart =>
    if c = 0x0D then some (.pass (t.enter .headLf))
    else if c = 0x0A then some .endHeaders
    else if isWhitespace c then some (.reject t .obsoleteLineFolding)
    else if isTchar c then some (.mark (t.enter .fieldName))
    else some (.reject t .invalidFieldName)
  | .fieldName =>
    if isTchar c then some (.pass t)
    else if c = 0x3A then some (.close .fieldName (t.enter .valueStart))
    else some (.reject t .invalidFieldName)
  | .valueStart =>
    if isWhitespace c then some (.pass t)
    else if c = 0x0D then some (.closeEmpty .fieldValue (t.enter .fieldLf))
    else if c = 0x0A then some (.closeEmpty .fieldValue (t.enter .fieldStart))
    else if isFieldValueChar c then some (.mark (t.enter .fieldValue))
    else some (.reject t .invalidFieldValue)
  | .fieldValue =>
    if c = 0x0D then some (.close .fieldValue (t.enter .fieldLf))
    else if c = 0x0A then some (.close .fieldValue (t.enter .fieldStart))
    else if isFieldValueChar c then some (.pass t)
    else some (.reject t .invalidFieldValue)
  | .fieldLf =>
    if c = 0x0A then some (.pass (t.enter .fieldStart)) else some (.reject t .lfExpected)
  | .headLf =>
    if c = 0x0A then some .endHeaders else some (.reject t .lfExpected)
  | .sizeStart =>
    match Hexadecimal.value? c with
    | some d => some (.pass { t with place := .size, remaining := BitVec.ofNat 64 d })
    | none => some (.reject t .invalidChunkSize)
  | .size =>
    match Hexadecimal.value? c with
    | some d =>
      -- Here the check is part of the grammar, and a size that does not fit is refused.
      match append? 16 t.remaining (BitVec.ofNat 64 d) with
      | some n => some (.pass { t with remaining := n })
      | none => some (.reject t .chunkSizeOverflow)
    | none =>
      if c = 0x3B ∨ isWhitespace c then some (.pass (t.enter .sizeExtension))
      else if c = 0x0D then some (.pass (t.enter .sizeLf))
      else if c = 0x0A then some (.pass t.afterSize)
      else some (.reject t .invalidChunkSize)
  | .sizeExtension =>
    if c = 0x0D then some (.pass (t.enter .sizeLf))
    else if c = 0x0A then some (.pass t.afterSize)
    else if isFieldValueChar c then some (.pass t)
    else some (.reject t .invalidChunkSize)
  | .sizeLf =>
    if c = 0x0A then some (.pass t.afterSize) else some (.reject t .lfExpected)
  | .chunkData => some .takeData
  | .dataEnd =>
    if c = 0x0D then some (.pass (t.enter .dataLf))
    else if c = 0x0A then some (.pass (t.enter .sizeStart))
    else some (.reject t .crExpected)
  | .dataLf =>
    if c = 0x0A then some (.pass (t.enter .sizeStart)) else some (.reject t .lfExpected)
  | .headDone | .bodyDone | .dead => some (.reject t .closed)

/-! ### Whole pieces of input -/

variable {σ : Type}

/-- What comes of giving a scanner some input: the scanner and the handler's state afterwards, and
how many octets were consumed. -/
structure Scanned (part : MessagePart) (σ : Type) where
  scanner : Scanner part
  state : σ
  consumed : Nat

/-- What a scan stands at between two octets. -/
structure Scan (part : MessagePart) (σ : Type) where
  scanner : Scanner part
  state : σ
  /-- Where in the input the open part begins. -/
  mark : Option Nat
  /-- How many octets of the input are behind. -/
  place : Nat

open Loop (Step)

/-- Goes on as the handler answers, with `stop` octets of the input behind. -/
def answered (t : Scanner part) (mark : Option Nat) (stop : Nat) :
    σ × Flow → Step (Scan part σ) (Scanned part σ)
  | (s, .proceed) => .again ⟨t, s, mark, stop⟩
  | (s, flow) => .leave ⟨t.obey flow, s, stop⟩

/-- The lesser of two numbers. -/
def lesser {w : Nat} (a b : BitVec w) : BitVec w :=
  if a ≤ b then a else b

/-- A scanner after some of the data of a chunk, with so much of it still to come. -/
def afterData (t : Scanner part) (remaining : BitVec 64) : Scanner part :=
  { t with remaining := remaining, place := if remaining = 0 then .dataEnd else .chunkData }

/-- Reports as much of the data of a chunk as the input has. -/
def takeData (handle : σ → Event → σ × Flow) (data : Octets) (c : Scan part σ) :
    Checked (Step (Scan part σ) (Scanned part σ)) :=
  (Checked.before? data.length c.place).bind fun left ↦
    (Checked.ofNat? 64 left).bind fun available ↦
      let length := lesser c.scanner.remaining available
      (Checked.sub? c.scanner.remaining length).bind fun remaining ↦
        (Checked.slice? data c.place (c.place + length.toNat)).map fun octets ↦
          answered (c.scanner.afterData remaining) c.mark (c.place + length.toNat)
            (handle c.state (.piece .chunkData octets))

/-- Stops at the line feed that ends a head, which is left for the caller to consume. -/
def atHeadEnd (handle : σ → Event → σ × Flow) (c : Scan part σ) : Scanned part σ :=
  match handle c.state (.headEnd c.scanner.startLine) with
  | (s, .abort) => ⟨(c.scanner.enter .headDone).fail .aborted, s, c.place⟩
  | (s, _) => ⟨(c.scanner.enter .headDone).pause, s, c.place⟩

/-- Stops behind the line feed that ends a chunked body. -/
def atBodyEnd (handle : σ → Event → σ × Flow) (c : Scan part σ) : Scanned part σ :=
  ⟨(c.scanner.enter .bodyDone).obey (handle c.state .bodyEnd).2, (handle c.state .bodyEnd).1,
    c.place + 1⟩

/-- Stops at the line feed that ends the headers, or the trailer of a chunked body. -/
def endHeaders (handle : σ → Event → σ × Flow) (c : Scan part σ) : Scanned part σ :=
  if c.scanner.trailing = true ∨ part = .chunkedBody then atBodyEnd handle c
  else atHeadEnd handle c

/-- Does what an octet makes a scanner do. -/
def perform (handle : σ → Event → σ × Flow) (data : Octets) (c : Scan part σ) :
    Action part → Checked (Step (Scan part σ) (Scanned part σ))
  | .pass t => some (.again { c with scanner := t, place := c.place + 1 })
  | .mark t => some (.again { c with scanner := t, mark := some c.place, place := c.place + 1 })
  | .close span t =>
    (Checked.slice? data (c.mark.getD 0) c.place).map fun octets ↦
      answered t none (c.place + 1) (handle c.state (.piece span octets))
  | .closeEmpty span t =>
    some (answered t c.mark (c.place + 1) (handle c.state (.piece span [])))
  | .takeData => takeData handle data c
  | .endHeaders => some (.leave (endHeaders handle c))
  | .reject t cause => some (.leave ⟨t.fail cause, c.state, c.place⟩)

/-- Reports what the input has of the open part. -/
def suspend (handle : σ → Event → σ × Flow) (data : Octets) (c : Scan part σ) :
    Checked (Scanned part σ) :=
  match c.mark, c.scanner.place.span? with
  | some start, some span =>
    if start < data.length then
      (Checked.slice? data start data.length).map fun octets ↦
        ⟨c.scanner.obey (handle c.state (.piece span octets)).2,
          (handle c.state (.piece span octets)).1, data.length⟩
    else some ⟨c.scanner, c.state, data.length⟩
  | _, _ => some ⟨c.scanner, c.state, data.length⟩

/-- Goes on by an octet, or by the data of a chunk. -/
def round (handle : σ → Event → σ × Flow) (data : Octets) (c : Scan part σ) :
    Checked (Step (Scan part σ) (Scanned part σ)) :=
  match data[c.place]? with
  | none => (suspend handle data c).map .leave
  | some b => (c.scanner.act b).bind (perform handle data c)

/-- What a scan begins with. A part that is open begins with the input, as far as it is reported. -/
def begin (t : Scanner part) (s : σ) : Scan part σ :=
  ⟨t, s, t.place.span?.map fun _ ↦ 0, 0⟩

/-- Gives a scanner some input. A scanner that has failed or is paused consumes nothing. Each round
but the last takes an octet at least. -/
def execute? (handle : σ → Event → σ × Flow) (t : Scanner part) (s : σ) (data : Octets) :
    Checked (Scanned part σ) :=
  if t.error?.isSome || t.paused || data.isEmpty then some ⟨t, s, 0⟩
  else Loop.within (round handle data) (data.length + 1) (t.begin s)

/-! ### What a scanner is -/

/-- The phase in which a scanner is. -/
def phase (t : Scanner part) : Phase :=
  match t.place with
  | .requestStart => .requestStart
  | .method => .method t.methodLength.toNat
  | .targetStart => .targetStart
  | .target => .target
  | .responseStart => .responseStart
  | .protocol matched => .protocol matched.toNat
  | .majorStart => .majorStart
  | .major => .major
  | .minorStart => .minorStart
  | .minor => .minor
  | .statusStart => .statusStart
  | .status digits => .status digits.toNat
  | .reasonStart => .reasonStart
  | .reason => .reason
  | .startLineLf => .startLineLf
  | .fieldStart => .fieldStart
  | .fieldName => .fieldName
  | .valueStart => .valueStart
  | .fieldValue => .fieldValue
  | .fieldLf => .fieldLf
  | .headLf => .headLf
  | .headDone => .headDone
  | .sizeStart => .sizeStart
  | .size => .size t.remaining.toNat
  | .sizeExtension => .sizeExtension t.remaining.toNat
  | .sizeLf => .sizeLf t.remaining.toNat
  | .chunkData => .chunkData t.remaining.toNat
  | .dataEnd => .dataEnd
  | .dataLf => .dataLf
  | .bodyDone => .bodyDone
  | .dead => .failed (t.error?.getD .closed)

/-- The lexer that a scanner is. -/
def toLexer (t : Scanner part) : Lexer part :=
  ⟨t.phase, ⟨t.major.toNat, t.minor.toNat⟩, t.status.toNat, t.paused⟩

/-- What comes of the lexer. -/
def Scanned.toFed (r : Scanned part σ) : Lexer.Fed part σ :=
  ⟨r.scanner.toLexer, r.state, r.consumed⟩

end Scanner

end HttpFraming
