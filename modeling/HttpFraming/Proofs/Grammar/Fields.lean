import HttpFraming.Proofs.Fragmentation.FieldCollector
import HttpFraming.Proofs.Grammar.HeaderLines
import HttpFraming.Proofs.Message.Headers

/-!
# What is collected of header lines

A collector that is told whole lines ends with the headers that the lines are about, provided that
all lines are text and within the limits, and with an error otherwise:
`FieldCollector.finish_addLines`. Who passes header lines on to a collector does so too
(`FieldCollector.Wraps`).

## The line in progress

A collector stores a line when the next one begins, or at the end. So between two lines it always
holds one that may still turn out not to be text, and the number of lines is checked before that one
is stored. The induction over the lines is therefore about a collector that can be flushed to given
headers, not about the headers that it has: `c.flush = .ok (stored h)`.

A line that is no text is noticed one line late. That it is noticed, whatever comes after it, is
`FieldCollector.not_finish_addLines`.

## Who passes lines on

A draft of a head and a gathering of a body both keep a collector next to other things. `Wraps` says
that a handler does with a piece of a line what its collector does, and `Wraps.tellLines?` that it
is then the same to tell it all lines. With this, both languages are settled by
`FieldCollector.finish_addLines_empty`.
-/

namespace HttpFraming

/-- Limits that an input of so many octets cannot exceed. -/
structure Limits.Exceed (limits : Limits) (n : Nat) : Prop where
  target : n < limits.target
  reason : n < limits.reason
  header : n < limits.header
  headerCount : n < limits.headerCount

namespace FieldCollector

/-- Takes a whole line. -/
def addLine (limits : Limits) (c : FieldCollector) (l : RawLine) :
    Except ParseError FieldCollector :=
  c.addName limits l.name >>= fun c' ↦ c'.addValue limits l.value

/-- Takes some lines. -/
def addLines (limits : Limits) (c : FieldCollector) (lines : List RawLine) :
    Except ParseError FieldCollector :=
  lines.foldlM (addLine limits) c

/-- A collector that has stored all lines. -/
def stored (h : Headers) : FieldCollector :=
  ⟨[], [], false, h⟩

/-- A collector with a line in progress. -/
def holding (h : Headers) (l : RawLine) : FieldCollector :=
  ⟨l.name, l.value, true, h⟩

variable {limits : Limits} {c c' : FieldCollector} {h h' : Headers} {l : RawLine}
  {lines : List RawLine}

/-- A line that is text is stored as the field it is about, and no other line is stored. -/
theorem flush_holding (h : Headers) (l : RawLine) :
    (∃ e, (holding h l).flush = .error e ∧ ∀ f : FieldLine, f.raw ≠ l) ∨
      ∃ f : FieldLine, f.raw = l ∧
        (holding h l).flush = .ok (stored (h.insert f.field.1 f.field.2)) := by
  obtain ⟨name, value⟩ := l
  rcases hname : Utf8.decode? name with - | n
  · refine .inl ⟨.notUtf8 .headerName, ?_, ?_⟩
    · simp only [flush, store, holding, hname, if_true]
    · rintro ⟨n, v⟩ hf
      obtain rfl : Utf8.encode n = name := congrArg RawLine.name hf
      rw [Utf8.decode?_encode] at hname
      cases hname
  obtain rfl : Utf8.encode n = name := Utf8.decode?_eq_some_iff.1 hname
  rcases hvalue : Utf8.decode? (trimEnd value) with - | t
  · refine .inl ⟨.notUtf8 .headerValue, ?_, ?_⟩
    · simp only [flush, store, holding, hname, hvalue, if_true]
    · rintro ⟨n', v⟩ hf
      obtain rfl : Utf8.encode v = value := congrArg RawLine.value hf
      rw [trimEnd_encode, Utf8.decode?_encode] at hvalue
      cases hvalue
  · obtain ⟨v, rfl, rfl⟩ := decode?_trimEnd_eq_some_iff.1 hvalue
    refine .inr ⟨⟨n, v⟩, rfl, ?_⟩
    simp only [flush, store, holding, hname, hvalue, if_true]
    rfl

/-- A name is taken if the lines are not too many and it is not too long. -/
theorem addName_of_flush (hc : c.flush = .ok (stored h)) (name : Octets) :
    c.addName limits name =
      if limits.headerCount ≤ h.size then .error .tooManyHeaders
      else if limits.header < name.length then .error .headerTooLong
      else .ok ⟨name, [], false, h⟩ := by
  simp only [addName, hc, stored, List.length_nil, Nat.zero_add, List.nil_append]

/-- A line is taken if the lines are not too many and it is not too long. -/
theorem addLine_of_flush (hc : c.flush = .ok (stored h)) (l : RawLine) :
    c.addLine limits l = .ok c' ↔
      h.size < limits.headerCount ∧ l.size ≤ limits.header ∧ c' = holding h l := by
  rw [addLine, addName_of_flush hc, RawLine.size]
  by_cases hcount : limits.headerCount ≤ h.size
  · rw [if_pos hcount]
    exact iff_of_false (fun heq ↦ by cases heq) fun hlt ↦ Nat.not_lt.2 hcount hlt.1
  by_cases hname : limits.header < l.name.length
  · rw [if_neg hcount, if_pos hname]
    refine iff_of_false (fun heq ↦ by cases heq) fun hle ↦ ?_
    omega
  rw [if_neg hcount, if_neg hname]
  have hadd : addValue limits ⟨l.name, [], false, h⟩ l.value =
      if limits.header < l.name.length + l.value.length then .error .headerTooLong
      else .ok (holding h l) := by
    simp only [addValue, holding, List.length_nil, Nat.add_zero, List.nil_append]
  show addValue limits ⟨l.name, [], false, h⟩ l.value = .ok c' ↔ _
  rw [hadd]
  by_cases hvalue : limits.header < l.name.length + l.value.length
  · rw [if_pos hvalue]
    refine iff_of_false (fun heq ↦ by cases heq) fun hle ↦ ?_
    omega
  · rw [if_neg hvalue]
    refine ⟨fun heq ↦ ⟨Nat.not_le.1 hcount, Nat.not_lt.1 hvalue, ?_⟩, fun heq ↦ ?_⟩
    · exact (Except.ok.inj heq).symm
    · exact congrArg Except.ok heq.2.2.symm

/-- Behind a line that is no text, none is taken. -/
theorem addLine_of_flush_error {e : ParseError} (hc : c.flush = .error e) (l : RawLine) :
    c.addLine limits l = .error e := by
  rw [addLine, addName, hc]
  rfl

/-- A line in progress that is no text is never stored, whatever comes after it. -/
theorem not_finish_addLines {e : ParseError} (hc : c.flush = .error e) :
    ¬ ∃ c', c.addLines limits lines = .ok c' ∧ c'.finish = .ok h := by
  rintro ⟨c', hlines, hfinish⟩
  cases lines with
  | nil =>
    obtain rfl : c = c' := Except.ok.inj hlines
    rw [finish, hc] at hfinish
    cases hfinish
  | cons l lines =>
    rw [addLines, List.foldlM_cons, addLine_of_flush_error hc] at hlines
    cases hlines

/-- Lines are taken if the first one is, and then the others. -/
theorem addLines_cons (hc : c.flush = .ok (stored h)) (l : RawLine) (lines : List RawLine) :
    c.addLines limits (l :: lines) = .ok c' ↔
      h.size < limits.headerCount ∧ l.size ≤ limits.header ∧
        (holding h l).addLines limits lines = .ok c' := by
  rw [addLines, List.foldlM_cons, bind_eq_ok_iff]
  simp only [addLine_of_flush hc]
  constructor
  · rintro ⟨_, ⟨hlt, hle, rfl⟩, hlines⟩
    exact ⟨hlt, hle, hlines⟩
  · rintro ⟨hlt, hle, hlines⟩
    exact ⟨_, ⟨hlt, hle, rfl⟩, hlines⟩

/-- **What is collected of some lines** is what they are about, if they are text and keep within the
limits, and nothing otherwise. -/
theorem finish_addLines (hc : c.flush = .ok (stored h)) (hcount : h.size ≤ limits.headerCount) :
    (∃ c', c.addLines limits lines = .ok c' ∧ c'.finish = .ok h') ↔
      ∃ fs : List FieldLine, fs.map FieldLine.raw = lines ∧
        h.size + lines.length ≤ limits.headerCount ∧ (∀ l ∈ lines, l.size ≤ limits.header) ∧
          h' = h.insertList (fs.map FieldLine.field) := by
  induction lines generalizing c h with
  | nil =>
    have hfinish : c.finish = .ok h := by rw [finish, hc]; rfl
    constructor
    · rintro ⟨c', hc', hh'⟩
      obtain rfl : c = c' := Except.ok.inj hc'
      exact ⟨[], rfl, hcount, List.forall_mem_nil _, Except.ok.inj (hh'.symm.trans hfinish)⟩
    · rintro ⟨fs, hfs, -, -, rfl⟩
      obtain rfl : fs = [] := List.map_eq_nil_iff.1 hfs
      exact ⟨c, rfl, hfinish⟩
  | cons l lines ih =>
    simp only [addLines_cons hc]
    -- A line is not stored before the next one begins, so the induction is on what is in progress.
    rcases flush_holding h l with ⟨e, herror, htext⟩ | ⟨f, rfl, hflush⟩
    · refine iff_of_false ?_ ?_
      · rintro ⟨c', ⟨-, -, hlines⟩, hfinish⟩
        exact not_finish_addLines herror ⟨c', hlines, hfinish⟩
      · rintro ⟨fs, hfs, -⟩
        cases fs with
        | nil => cases hfs
        | cons f fs => exact htext f (List.cons.inj hfs).1
    · have hinsert : (h.insert f.field.1 f.field.2).size = h.size + 1 := rfl
      constructor
      · rintro ⟨c', ⟨hlt, hle, hlines⟩, hfinish⟩
        obtain ⟨fs, rfl, hcount', hsizes, rfl⟩ := (ih hflush hlt).1 ⟨c', hlines, hfinish⟩
        refine ⟨f :: fs, rfl, ?_, List.forall_mem_cons.2 ⟨hle, hsizes⟩, rfl⟩
        rw [List.length_cons]
        omega
      · rintro ⟨fs, hfs, hcount', hsizes, rfl⟩
        obtain ⟨hle, hsizes'⟩ := List.forall_mem_cons.1 hsizes
        rw [List.length_cons] at hcount'
        cases fs with
        | nil => cases hfs
        | cons f' fs =>
          obtain ⟨hf, rfl⟩ := List.cons.inj hfs
          obtain rfl : f' = f := FieldLine.raw_inj hf
          have hlt : h.size < limits.headerCount := by omega
          obtain ⟨c', hlines, hfinish⟩ := (ih hflush hlt).2 ⟨fs, rfl, by omega, hsizes', rfl⟩
          exact ⟨c', ⟨hlt, hle, hlines⟩, hfinish⟩

/-- What a collector holds that began with nothing. -/
theorem finish_addLines_empty :
    (∃ c, empty.addLines limits lines = .ok c ∧ c.finish = .ok h) ↔
      ∃ fs : List FieldLine, fs.map FieldLine.raw = lines ∧ lines.length ≤ limits.headerCount ∧
        (∀ l ∈ lines, l.size ≤ limits.header) ∧ h = .ofList (fs.map FieldLine.field) := by
  have hlength : Headers.empty.size + lines.length = lines.length := Nat.zero_add _
  have hcount : Headers.empty.size ≤ limits.headerCount := Nat.zero_le _
  rw [finish_addLines (h := .empty) rfl hcount, hlength]
  rfl

/-! ### Handlers that collect header lines -/

/-- A handler passes header lines on to a collector, around which `wrap` puts the rest of its
state. -/
structure Wraps {σ : Type} (limits : Limits) (handle : σ → Event → σ × Flow)
    (wrap : FieldCollector → σ) : Prop where
  name : ∀ c piece s, Lexer.told? handle (wrap c) .fieldName piece = some s ↔
    ∃ c', c.addName limits piece = .ok c' ∧ wrap c' = s
  value : ∀ c piece s, Lexer.told? handle (wrap c) .fieldValue piece = some s ↔
    ∃ c', c.addValue limits piece = .ok c' ∧ wrap c' = s

namespace Wraps

variable {σ : Type} {handle : σ → Event → σ × Flow} {wrap : FieldCollector → σ}

/-- What a handler is told of a line, its collector takes. -/
theorem tellLine? (W : Wraps limits handle wrap) (c : FieldCollector) (l : RawLine) (s : σ) :
    Lexer.tellLine? handle (wrap c) l = some s ↔
      ∃ c', c.addLine limits l = .ok c' ∧ wrap c' = s := by
  rw [Lexer.tellLine?, Option.bind_eq_some_iff]
  simp only [addLine, bind_eq_ok_iff, W.name]
  constructor
  · rintro ⟨_, ⟨c₁, hname, rfl⟩, hvalue⟩
    obtain ⟨c₂, hvalue', rfl⟩ := (W.value _ _ _).1 hvalue
    exact ⟨c₂, ⟨c₁, hname, hvalue'⟩, rfl⟩
  · rintro ⟨c₂, ⟨c₁, hname, hvalue⟩, rfl⟩
    exact ⟨_, ⟨c₁, hname, rfl⟩, (W.value _ _ _).2 ⟨c₂, hvalue, rfl⟩⟩

/-- What a handler is told of some lines, its collector takes. -/
theorem tellLines? (W : Wraps limits handle wrap) (c : FieldCollector) (lines : List RawLine)
    (s : σ) :
    Lexer.tellLines? handle (wrap c) lines = some s ↔
      ∃ c', c.addLines limits lines = .ok c' ∧ wrap c' = s := by
  induction lines generalizing c with
  | nil => simp [Lexer.tellLines?, addLines, pure, Except.pure]
  | cons l lines ih =>
    rw [Lexer.tellLines?, addLines, List.foldlM_cons, List.foldlM_cons]
    simp only [bind_eq_ok_iff, Option.bind_eq_bind, Option.bind_eq_some_iff, W.tellLine?]
    constructor
    · rintro ⟨_, ⟨c₁, hline, rfl⟩, hlines⟩
      obtain ⟨c₂, hlines', rfl⟩ := (ih c₁).1 hlines
      exact ⟨c₂, ⟨c₁, hline, hlines'⟩, rfl⟩
    · rintro ⟨c₂, ⟨c₁, hline, hlines⟩, rfl⟩
      exact ⟨_, ⟨c₁, hline, rfl⟩, (ih c₁).2 ⟨c₂, hlines, rfl⟩⟩

end Wraps

end FieldCollector

end HttpFraming
