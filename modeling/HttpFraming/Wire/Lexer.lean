import HttpFraming.Message.Version
import HttpFraming.Text.CharClass
import HttpFraming.Text.Hexadecimal
import HttpFraming.Text.Utf8
import HttpFraming.Wire.Error

/-!
# The lexical structure of messages

A lexer finds the boundaries of the parts of a message: of the start line, of header names and
values, and of the data in chunks. It keeps no part. Whoever feeds it is told each part as it
passes, in as many pieces as the input comes in.

## One octet, one step

`Lexer.step` is the whole grammar. It takes one octet to a next phase and an effect, or rejects it.
Effects say how the octet relates to the part that is being reported: it extends the part, follows
it, or has nothing to do with it. `Lexer.run` then is plain recursion over the input, which collects
the octets of the open part and hands them over where the part, or the input, ends.

So a statement about pieces of input is a statement about `run` and `++`, and a statement about what
is accepted is one about `step`.

## Where it stops

A head ends at a line feed, which the lexer does not consume: it pauses in front of it. A chunked
body ends with its last line feed, which is consumed. An octet that is rejected is not consumed
either. A handler can ask for a pause, after which the lexer goes on where it stopped, or abort it.
-/

namespace HttpFraming

open CharClass

/-- What a lexer reads. -/
inductive MessagePart where
  | request
  | response
  | chunkedBody
deriving Repr, DecidableEq

/-- The parts that are reported in pieces. -/
inductive Span where
  | method
  | target
  | reason
  | fieldName
  | fieldValue
  | chunkData
deriving Repr, DecidableEq

/-- Where in a message the next octet stands. -/
inductive Phase where
  /-- Before a request, where line ends are skipped. -/
  | requestStart
  /-- In a method, after so many octets of it. -/
  | method (length : Nat)
  | targetStart
  | target
  /-- Before a response, where line ends are skipped. -/
  | responseStart
  /-- In the protocol name, after so many octets of it. -/
  | protocol (matched : Nat)
  | majorStart
  | major
  | minorStart
  | minor
  | statusStart
  /-- In the status code, after so many digits. -/
  | status (digits : Nat)
  | reasonStart
  | reason
  /-- Before the line feed that ends the start line. -/
  | startLineLf
  | fieldStart
  | fieldName
  | valueStart
  | fieldValue
  /-- Before the line feed that ends a header line. -/
  | fieldLf
  /-- Before the line feed that ends the headers. -/
  | headLf
  | headDone
  | sizeStart
  /-- In the size of a chunk, of which the digits so far denote `n`. -/
  | size (n : Nat)
  /-- In what follows the size of a chunk of size `n` on its line. -/
  | sizeExtension (n : Nat)
  /-- Before the line feed that ends the size line of a chunk of size `n`. -/
  | sizeLf (n : Nat)
  /-- In the data of a chunk, before so many octets of it. -/
  | chunkData (remaining : Nat)
  /-- Before the line end after the data of a chunk. -/
  | dataEnd
  /-- Before the line feed after the data of a chunk. -/
  | dataLf
  | bodyDone
  | failed (cause : SyntaxError)
deriving Repr, DecidableEq

/-- The part that an octet in a phase may extend. -/
def Phase.span? : Phase → Option Span
  | method _ => some .method
  | target => some .target
  | reason => some .reason
  | fieldName => some .fieldName
  | fieldValue => some .fieldValue
  | chunkData _ => some .chunkData
  | _ => none

/-- A lexer of one kind of message part. -/
structure Lexer (part : MessagePart) where
  phase : Phase
  /-- The version read so far. -/
  version : Version
  /-- The status code read so far. -/
  status : Nat
  /-- Whether it waits to be resumed. -/
  paused : Bool
deriving Repr, DecidableEq

/-- What an octet does to the part that is being reported. -/
inductive Effect where
  /-- The octet belongs to no part. -/
  | skip
  /-- The octet belongs to the open part. -/
  | extend
  /-- The octet belongs to the open part and is its last. -/
  | complete (span : Span)
  /-- The octet follows the open part, which it ends. -/
  | close (span : Span)
  /-- The octet is the line feed that ends a head. -/
  | endHead
  /-- The octet is the line feed that ends a chunked body. -/
  | endBody
deriving Repr, DecidableEq

/-- What a start line says in numbers. -/
structure StartLine where
  version : Version
  status : Nat
deriving Repr, DecidableEq

/-- What a handler is told. -/
inductive Event where
  /-- Some octets of a part. -/
  | piece (span : Span) (octets : Octets)
  /-- The head is complete but for its last line feed. -/
  | headEnd (line : StartLine)
  /-- The body is complete. -/
  | bodyEnd
deriving Repr, DecidableEq

/-- What a handler asks for. -/
inductive Flow where
  | proceed
  | pause
  | abort
deriving Repr, DecidableEq

namespace Lexer

/-- The longest method in octets. -/
def maxMethodLength : Nat := 32

/-- The largest number in a version. -/
def maxVersionNumber : Nat := 999

/-- Sizes of chunks are below this bound. -/
def chunkSizeBound : Nat := UInt64.size

/-- The protocol name with the slash after it: `HTTP/`. -/
def protocolName : Octets := [0x48, 0x54, 0x54, 0x50, 0x2F]

variable {part : MessagePart}

/-- The phase in which a part begins. -/
def startPhase : MessagePart → Phase
  | .request => .requestStart
  | .response => .responseStart
  | .chunkedBody => .sizeStart

/-- A lexer that has read nothing. -/
def new (part : MessagePart) : Lexer part :=
  ⟨startPhase part, ⟨0, 0⟩, 0, false⟩

/-- Why a lexer failed. -/
def error? (l : Lexer part) : Option SyntaxError :=
  match l.phase with
  | .failed e => some e
  | _ => none

def fail (l : Lexer part) (e : SyntaxError) : Lexer part :=
  { l with phase := .failed e }

def pause (l : Lexer part) : Lexer part :=
  { l with paused := true }

/-- Lets a paused lexer go on. -/
def resume (l : Lexer part) : Lexer part :=
  { l with paused := false }

/-- What the start line says, once it is read. -/
def startLine (l : Lexer part) : StartLine :=
  ⟨l.version, l.status⟩

/-! ### One step -/

/-- A step that only changes the phase. -/
def enter (l : Lexer part) (phase : Phase) (effect : Effect) :
    Except SyntaxError (Lexer part × Effect) :=
  .ok ({ l with phase := phase }, effect)

/-- The phase after the size line of a chunk. A chunk of size zero is the last one, and the trailer
follows. -/
def afterSize (n : Nat) : Phase :=
  if n = 0 then .fieldStart else .chunkData n

/-- The step at the line feed that ends the headers. -/
def endHeaders (l : Lexer part) : Except SyntaxError (Lexer part × Effect) :=
  match part with
  | .chunkedBody => l.enter .bodyDone .endBody
  | _ => l.enter .headDone .endHead

/-- A further digit of a number that may not exceed `maxVersionNumber`. -/
def versionDigit? (n c : Nat) : Option Nat :=
  if isDigit c then
    if 10 * n + (c - 0x30) ≤ maxVersionNumber then some (10 * n + (c - 0x30)) else none
  else none

/-- The step of one octet: the lexer after it and its effect, or why it is rejected. -/
def step (l : Lexer part) (b : UInt8) : Except SyntaxError (Lexer part × Effect) :=
  let c := b.toNat
  match l.phase with
  | .requestStart =>
    if c = 0x0D ∨ c = 0x0A then .ok (l, .skip)
    else if isTchar c then l.enter (.method 1) .extend
    else .error .invalidMethod
  | .method n =>
    if c = 0x20 then l.enter .targetStart (.close .method)
    else if isTchar c ∧ n < maxMethodLength then l.enter (.method (n + 1)) .extend
    else .error .invalidMethod
  | .targetStart =>
    if isTargetChar c then l.enter .target .extend else .error .invalidTarget
  | .target =>
    -- A line that ends after the target names no version, as in the first days of the protocol.
    if c = 0x20 then l.enter (.protocol 0) (.close .target)
    else if c = 0x0D then
      .ok ({ l with phase := .startLineLf, version := .http09 }, .close .target)
    else if c = 0x0A then
      .ok ({ l with phase := .fieldStart, version := .http09 }, .close .target)
    else if isTargetChar c then .ok (l, .extend)
    else .error .invalidTarget
  | .responseStart =>
    if c = 0x0D ∨ c = 0x0A then .ok (l, .skip)
    else if c = 0x48 then l.enter (.protocol 1) .skip
    else .error .invalidConstant
  | .protocol matched =>
    if protocolName[matched]? = some b then
      l.enter (if matched + 1 = protocolName.length then .majorStart else .protocol (matched + 1))
        .skip
    else .error .invalidConstant
  | .majorStart =>
    if isDigit c then
      .ok ({ l with phase := .major, version := ⟨c - 0x30, l.version.minor⟩ }, .skip)
    else .error .invalidVersion
  | .major =>
    if c = 0x2E then l.enter .minorStart .skip
    else
      match versionDigit? l.version.major c with
      | some n => .ok ({ l with version := ⟨n, l.version.minor⟩ }, .skip)
      | none => .error .invalidVersion
  | .minorStart =>
    if isDigit c then
      .ok ({ l with phase := .minor, version := ⟨l.version.major, c - 0x30⟩ }, .skip)
    else .error .invalidVersion
  | .minor =>
    match versionDigit? l.version.minor c with
    | some n => .ok ({ l with version := ⟨l.version.major, n⟩ }, .skip)
    | none =>
      -- In a request the version ends the line, and in a response the status follows it.
      match part with
      | .request =>
        if c = 0x0D then l.enter .startLineLf .skip
        else if c = 0x0A then l.enter .fieldStart .skip
        else .error .invalidVersion
      | .response => if c = 0x20 then l.enter .statusStart .skip else .error .invalidVersion
      | .chunkedBody => .error .invalidVersion
  | .statusStart =>
    if isDigit c then .ok ({ l with phase := .status 1, status := c - 0x30 }, .skip)
    else .error .invalidStatus
  | .status digits =>
    if digits < 3 then
      if isDigit c then
        .ok ({ l with phase := .status (digits + 1), status := 10 * l.status + (c - 0x30) }, .skip)
      else .error .invalidStatus
    else if c = 0x20 then l.enter .reasonStart .skip
    else if c = 0x0D then l.enter .startLineLf .skip
    else if c = 0x0A then l.enter .fieldStart .skip
    else .error .invalidStatus
  | .reasonStart =>
    if c = 0x0D then l.enter .startLineLf .skip
    else if c = 0x0A then l.enter .fieldStart .skip
    else if isFieldValueChar c then l.enter .reason .extend
    else .error .invalidReason
  | .reason =>
    if c = 0x0D then l.enter .startLineLf (.close .reason)
    else if c = 0x0A then l.enter .fieldStart (.close .reason)
    else if isFieldValueChar c then .ok (l, .extend)
    else .error .invalidReason
  | .startLineLf =>
    if c = 0x0A then l.enter .fieldStart .skip else .error .lfExpected
  | .fieldStart =>
    if c = 0x0D then l.enter .headLf .skip
    else if c = 0x0A then l.endHeaders
    -- A line that begins with a blank would go on with the value of the line before.
    else if isWhitespace c then .error .obsoleteLineFolding
    else if isTchar c then l.enter .fieldName .extend
    else .error .invalidFieldName
  | .fieldName =>
    if isTchar c then .ok (l, .extend)
    else if c = 0x3A then l.enter .valueStart (.close .fieldName)
    else .error .invalidFieldName
  | .valueStart =>
    if isWhitespace c then .ok (l, .skip)
    else if c = 0x0D then l.enter .fieldLf (.close .fieldValue)
    else if c = 0x0A then l.enter .fieldStart (.close .fieldValue)
    else if isFieldValueChar c then l.enter .fieldValue .extend
    else .error .invalidFieldValue
  | .fieldValue =>
    if c = 0x0D then l.enter .fieldLf (.close .fieldValue)
    else if c = 0x0A then l.enter .fieldStart (.close .fieldValue)
    else if isFieldValueChar c then .ok (l, .extend)
    else .error .invalidFieldValue
  | .fieldLf =>
    if c = 0x0A then l.enter .fieldStart .skip else .error .lfExpected
  | .headLf =>
    if c = 0x0A then l.endHeaders else .error .lfExpected
  | .sizeStart =>
    match Hexadecimal.value? c with
    | some d => l.enter (.size d) .skip
    | none => .error .invalidChunkSize
  | .size n =>
    match Hexadecimal.value? c with
    | some d =>
      if 16 * n + d < chunkSizeBound then l.enter (.size (16 * n + d)) .skip
      else .error .chunkSizeOverflow
    | none =>
      if c = 0x3B ∨ isWhitespace c then l.enter (.sizeExtension n) .skip
      else if c = 0x0D then l.enter (.sizeLf n) .skip
      else if c = 0x0A then l.enter (afterSize n) .skip
      else .error .invalidChunkSize
  | .sizeExtension n =>
    if c = 0x0D then l.enter (.sizeLf n) .skip
    else if c = 0x0A then l.enter (afterSize n) .skip
    else if isFieldValueChar c then .ok (l, .skip)
    else .error .invalidChunkSize
  | .sizeLf n =>
    if c = 0x0A then l.enter (afterSize n) .skip else .error .lfExpected
  | .chunkData remaining =>
    if remaining ≤ 1 then l.enter .dataEnd (.complete .chunkData)
    else l.enter (.chunkData (remaining - 1)) .extend
  | .dataEnd =>
    if c = 0x0D then l.enter .dataLf .skip
    else if c = 0x0A then l.enter .sizeStart .skip
    else .error .crExpected
  | .dataLf =>
    if c = 0x0A then l.enter .sizeStart .skip else .error .lfExpected
  | .headDone | .bodyDone | .failed _ => .error .closed

/-! ### Whole pieces of input -/

/-- A lexer after a handler has asked for something. -/
def obey (l : Lexer part) : Flow → Lexer part
  | .proceed => l
  | .pause => l.pause
  | .abort => l.fail .aborted

/-- What comes of feeding a lexer: the lexer and the handler's state afterwards, and how many octets
were consumed. -/
structure Fed (part : MessagePart) (σ : Type) where
  lexer : Lexer part
  state : σ
  consumed : Nat

variable {σ : Type}

/-- Runs over some input. The octets of the open part that this input has brought so far are in
`opened`, the latest first; `n` octets are consumed already. -/
def run (handle : σ → Event → σ × Flow) (l : Lexer part) (s : σ) (opened : Octets) (n : Nat) :
    Octets → Fed part σ
  | [] =>
    match l.phase.span?, opened with
    -- The octets do not outlive the input, so a part that goes on is reported as far as it came.
    | some span, _ :: _ =>
      let (s', flow) := handle s (.piece span opened.reverse)
      ⟨l.obey flow, s', n⟩
    | _, _ => ⟨l, s, n⟩
  | b :: rest =>
    match l.step b with
    | .error e => ⟨l.fail e, s, n⟩
    | .ok (l', .skip) => run handle l' s [] (n + 1) rest
    | .ok (l', .extend) => run handle l' s (b :: opened) (n + 1) rest
    | .ok (l', .complete span) =>
      match handle s (.piece span (b :: opened).reverse) with
      | (s', .proceed) => run handle l' s' [] (n + 1) rest
      | (s', flow) => ⟨l'.obey flow, s', n + 1⟩
    | .ok (l', .close span) =>
      match handle s (.piece span opened.reverse) with
      | (s', .proceed) => run handle l' s' [] (n + 1) rest
      | (s', flow) => ⟨l'.obey flow, s', n + 1⟩
    -- The line feed that ends a head is left for the caller to consume.
    | .ok (l', .endHead) =>
      match handle s (.headEnd l'.startLine) with
      | (s', .abort) => ⟨l'.fail .aborted, s', n⟩
      | (s', _) => ⟨l'.pause, s', n⟩
    | .ok (l', .endBody) =>
      let (s', flow) := handle s .bodyEnd
      ⟨l'.obey flow, s', n + 1⟩

/-- Feeds some input. A lexer that has failed or is paused consumes nothing. -/
def feed (handle : σ → Event → σ × Flow) (l : Lexer part) (s : σ) (data : Octets) : Fed part σ :=
  if l.error?.isSome || l.paused then ⟨l, s, 0⟩ else run handle l s [] 0 data

/-! ### How much is consumed -/

/-- What is consumed already stays consumed. -/
theorem le_consumed_run (handle : σ → Event → σ × Flow) (l : Lexer part) (s : σ)
    (opened : Octets) (n : Nat) (data : Octets) :
    n ≤ (run handle l s opened n data).consumed := by
  fun_induction run handle l s opened n data with
  | case1 | case2 | case3 | case10 | case11 => exact Nat.le_refl _
  -- The run goes on behind the octet, or it ends there.
  | case4 _ _ _ _ _ _ _ _ ih | case5 _ _ _ _ _ _ _ _ ih => exact Nat.le_of_succ_le ih
  | case6 _ _ _ _ _ _ _ _ _ _ _ ih | case8 _ _ _ _ _ _ _ _ _ _ _ ih =>
    exact Nat.le_of_succ_le ih
  | case7 | case9 | case12 => exact Nat.le_succ _

/-- A run consumes octets of its input only. -/
theorem consumed_run_le (handle : σ → Event → σ × Flow) (l : Lexer part) (s : σ)
    (opened : Octets) (n : Nat) (data : Octets) :
    (run handle l s opened n data).consumed ≤ n + data.length := by
  fun_induction run handle l s opened n data with
  | case1 | case2 | case3 | case10 | case11 => exact Nat.le_add_right _ _
  | case4 _ _ _ _ _ _ _ _ ih | case5 _ _ _ _ _ _ _ _ ih =>
    exact Nat.le_trans ih (Nat.le_of_eq (Nat.succ_add_eq_add_succ _ _))
  | case6 _ _ _ _ _ _ _ _ _ _ _ ih | case8 _ _ _ _ _ _ _ _ _ _ _ ih =>
    exact Nat.le_trans ih (Nat.le_of_eq (Nat.succ_add_eq_add_succ _ _))
  | case7 | case9 | case12 => exact Nat.add_le_add_left (Nat.le_add_left 1 _) _

/-- No more is consumed than is fed. -/
theorem consumed_feed_le (handle : σ → Event → σ × Flow) (l : Lexer part) (s : σ)
    (data : Octets) :
    (feed handle l s data).consumed ≤ data.length := by
  unfold feed
  split
  · exact Nat.zero_le _
  · have := consumed_run_le handle l s [] 0 data
    omega

/-- No head ends inside a chunked body. -/
theorem step_ne_endHead {l l' : Lexer .chunkedBody} {b : UInt8} :
    l.step b ≠ .ok (l', .endHead) := by
  intro h
  cases hp : l.phase <;> simp only [step, hp] at h <;> grind [enter, endHeaders]

end Lexer

end HttpFraming
