import HttpFraming.Proofs.Grammar.Request
import HttpFraming.Proofs.Grammar.Response

/-!
# Nothing is spelled in two ways

Some octets spell at most one request and at most one response (`RequestText.Spells.unique`,
`ResponseText.Spells.unique`), so that one may speak of the target, the reason and the lines that
are in them.

The grammar is about a great many ways to cut the octets into parts. A lexer finds one. If its
handler writes down what it is told, then what it has written in the end shows the parts of whatever
the octets spell, and a run has one end only.

## Why not by the grammar

To compare two spellings part by part, one would have to say for every part where it must end: which
octet cannot belong to it, or how long it is, and that this does not depend on the spelling. A lexer
has been shown to read the language (`Lexer.ends_request`, `Lexer.ends_response`), for any handler,
and a lexer is a function. The handler `writeDown` is made for this proof and occurs nowhere else.

Two things are left to show about what it writes. Lines can be told apart in it (`toldOfLines_inj`),
and an empty reason, of which nothing is written, cannot be taken for the name of a line that
follows (`toldOfReason_append_inj`).
-/

namespace HttpFraming

namespace Lexer

variable {part : MessagePart} {σ : Type} {handle : σ → Event → σ × Flow} {l : Lexer part}
  {s s₁ s₂ : σ} {opened x : Octets} {line₁ line₂ : StartLine}

/-- Over the same octets, a run comes to one end only. -/
theorem Ends.unique (h₁ : Ends handle l s opened x s₁ line₁)
    (h₂ : Ends handle l s opened x s₂ line₂) : s₁ = s₂ ∧ line₁ = line₂ := by
  obtain ⟨c₁, hc₁, -, rfl, rfl⟩ := h₁
  obtain ⟨c₂, hc₂, -, rfl, rfl⟩ := h₂
  obtain rfl : c₁ = c₂ := Option.some.inj (hc₁.symm.trans hc₂)
  exact ⟨rfl, rfl⟩

/-! ### A handler that writes down what it is told -/

/-- Writes a piece behind the others, and always wants to go on. -/
def writeDown (told : List (Span × Octets)) : Event → List (Span × Octets) × Flow
  | .piece span piece => (told ++ [(span, piece)], .proceed)
  | .headEnd _ | .bodyEnd => (told, .proceed)

/-- What is written down of some lines. -/
def toldOfLines (lines : List RawLine) : List (Span × Octets) :=
  lines.flatMap fun l ↦ [(.fieldName, l.name), (.fieldValue, l.value)]

/-- What is written down of a reason, of which a handler is not told if it is empty. -/
def toldOfReason (reason : Octets) : List (Span × Octets) :=
  if reason.isEmpty then [] else [(.reason, reason)]

variable {told : List (Span × Octets)}

/-- Of header lines, names and values are written down. -/
theorem tellLines?_writeDown (lines : List RawLine) :
    tellLines? writeDown told lines = some (told ++ toldOfLines lines) := by
  induction lines generalizing told with
  | nil => simp [tellLines?, toldOfLines]
  | cons l lines ih =>
    have hline : tellLine? writeDown told l =
        some (told ++ [(.fieldName, l.name), (.fieldValue, l.value)]) := by
      simp [tellLine?, told?, writeDown]
    have hlines : tellLines? writeDown told (l :: lines) =
        (tellLine? writeDown told l).bind fun t ↦ tellLines? writeDown t lines := rfl
    rw [hlines, hline, Option.bind_some, ih, toldOfLines, toldOfLines, List.flatMap_cons,
      List.append_assoc]

/-- Of a request, its method, its target and its lines are written down. -/
theorem tellRequest?_writeDown (q : RawRequest) :
    tellRequest? writeDown [] q =
      some ([(.method, q.method), (.target, q.target)] ++ toldOfLines q.lines) :=
  tellLines?_writeDown q.lines

/-- Of a response, its reason and its lines are written down. -/
theorem tellResponse?_writeDown (p : RawResponse) :
    tellResponse? writeDown [] p = some (toldOfReason p.reason ++ toldOfLines p.lines) := by
  have hreason : tellReason? writeDown [] p.reason = some (toldOfReason p.reason) := by
    rw [tellReason?, toldOfReason]
    split <;> rfl
  rw [tellResponse?, hreason, Option.bind_some, tellLines?_writeDown]

/-- What is written down of lines shows the lines. -/
theorem toldOfLines_inj {lines lines' : List RawLine}
    (h : toldOfLines lines = toldOfLines lines') : lines = lines' := by
  induction lines generalizing lines' with
  | nil =>
    cases lines' with
    | nil => rfl
    | cons => cases h
  | cons l lines ih =>
    cases lines' with
    | nil => cases h
    | cons l' lines' =>
      simp only [toldOfLines, List.flatMap_cons, List.cons_append, List.nil_append,
        List.cons.injEq, Prod.mk.injEq, true_and] at h
      obtain ⟨hname, hvalue, hlines⟩ := h
      have hl : l = l' := congr (congrArg RawLine.mk hname) hvalue
      rw [hl, ih hlines]

/-- A reason and the lines after it can be told from one another. -/
theorem toldOfReason_append_inj {reason reason' : Octets} {lines lines' : List RawLine}
    (h : toldOfReason reason ++ toldOfLines lines =
      toldOfReason reason' ++ toldOfLines lines') : reason = reason' ∧ lines = lines' := by
  have hne (b : UInt8) (reason : Octets) (lines lines' : List RawLine) :
      toldOfLines lines ≠ toldOfReason (b :: reason) ++ toldOfLines lines' := by
    cases lines <;> intro h <;> cases h
  cases reason with
  | nil =>
    cases reason' with
    | nil => exact ⟨rfl, toldOfLines_inj h⟩
    | cons b reason' => exact absurd h (hne b reason' lines lines')
  | cons b reason =>
    cases reason' with
    | nil => exact absurd h.symm (hne b reason lines' lines)
    | cons b' reason' =>
      obtain ⟨hreason, hlines⟩ := List.cons.inj h
      exact ⟨(Prod.mk.inj hreason).2, toldOfLines_inj hlines⟩

end Lexer

/-! ### Heads -/

/-- Some octets spell one request at most. -/
theorem RawRequest.Spells.unique {q q' : RawRequest} {x : Octets} (h : q.Spells x)
    (h' : q'.Spells x) : q = q' := by
  obtain ⟨z, rfl⟩ := h.exists_append_lf
  have hends {q : RawRequest} (hq : q.Spells (z ++ [0x0A])) :
      Lexer.Ends Lexer.writeDown ((Lexer.new .request).inPhase .requestStart) [] [] z
        ([(.method, q.method), (.target, q.target)] ++ Lexer.toldOfLines q.lines) ⟨q.version, 0⟩ :=
    Lexer.ends_request.2 ⟨q, hq, Lexer.tellRequest?_writeDown q, rfl⟩
  -- Both are what one run has written down, and the version is what its lexer has read.
  obtain ⟨htold, hline⟩ := (hends h).unique (hends h')
  obtain ⟨method, target, version, lines⟩ := q
  obtain ⟨method', target', version', lines'⟩ := q'
  obtain ⟨hmethod, hrest⟩ := List.cons.inj htold
  obtain ⟨htarget, hlines⟩ := List.cons.inj hrest
  obtain rfl : method = method' := (Prod.mk.inj hmethod).2
  obtain rfl : target = target' := (Prod.mk.inj htarget).2
  obtain rfl : version = version' := (StartLine.mk.inj hline).1
  obtain rfl : lines = lines' := Lexer.toldOfLines_inj hlines
  rfl

/-- Some octets spell one response at most. -/
theorem RawResponse.Spells.unique {p p' : RawResponse} {x : Octets} (h : p.Spells x)
    (h' : p'.Spells x) : p = p' := by
  obtain ⟨z, rfl⟩ := h.exists_append_lf
  have hends {p : RawResponse} (hp : p.Spells (z ++ [0x0A])) :
      Lexer.Ends Lexer.writeDown ((Lexer.new .response).inPhase .responseStart) [] [] z
        (Lexer.toldOfReason p.reason ++ Lexer.toldOfLines p.lines) ⟨p.version, p.status⟩ :=
    Lexer.ends_response.2 ⟨p, hp, Lexer.tellResponse?_writeDown p, rfl⟩
  obtain ⟨htold, hline⟩ := (hends h).unique (hends h')
  obtain ⟨version, status, reason, lines⟩ := p
  obtain ⟨version', status', reason', lines'⟩ := p'
  obtain ⟨rfl, rfl⟩ := Lexer.toldOfReason_append_inj htold
  obtain ⟨rfl, rfl⟩ := StartLine.mk.inj hline
  rfl

theorem FieldLine.map_raw_inj {lines lines' : List FieldLine}
    (h : lines.map FieldLine.raw = lines'.map FieldLine.raw) : lines = lines' :=
  List.map_injective_iff.2 (fun _ _ ↦ FieldLine.raw_inj) h

/-- **A request is spelled in its own way.** -/
theorem RequestText.Spells.unique {r r' : RequestText} {x : Octets} (h : r.Spells x)
    (h' : r'.Spells x) : r = r' := by
  have hraw : r.raw = r'.raw := RawRequest.Spells.unique h h'
  obtain ⟨method, target, version, lines⟩ := r
  obtain ⟨method', target', version', lines'⟩ := r'
  obtain ⟨hmethod, htarget, hversion, hlines⟩ := RawRequest.mk.inj hraw
  obtain rfl : method = method' := Utf8.encode_inj hmethod
  obtain rfl : target = target' := Utf8.encode_inj htarget
  obtain rfl : version = version' := hversion
  obtain rfl : lines = lines' := FieldLine.map_raw_inj hlines
  rfl

/-- **A response is spelled in its own way.** -/
theorem ResponseText.Spells.unique {r r' : ResponseText} {x : Octets} (h : r.Spells x)
    (h' : r'.Spells x) : r = r' := by
  have hraw : r.raw = r'.raw := RawResponse.Spells.unique h h'
  obtain ⟨version, status, reason, lines⟩ := r
  obtain ⟨version', status', reason', lines'⟩ := r'
  obtain ⟨hversion, hstatus, hreason, hlines⟩ := RawResponse.mk.inj hraw
  obtain rfl : version = version' := hversion
  obtain rfl : status = status' := hstatus
  obtain rfl : reason = reason' := Utf8.encode_inj hreason
  obtain rfl : lines = lines' := FieldLine.map_raw_inj hlines
  rfl

end HttpFraming
