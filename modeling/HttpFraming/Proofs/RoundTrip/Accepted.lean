import HttpFraming.Proofs.RoundTrip.Request
import HttpFraming.Proofs.RoundTrip.Response

/-!
# A head that is read can be written

A gateway reads a head and writes it again. What it writes is not what it has read: line ends,
blanks around values, zeros in front of numbers and the casing of repeated names are lost. The head
stays the same, because all that a parser can make of its input is in the domain on which writing is
inverse to reading, and within the limits under which it was read (`RequestText.Spells.writable`,
`RequestText.Fits.fits_request` and their counterparts for responses).

So a head is written and read back as often as one likes. After the first time, when `Host` has come
to its place, the text does not change any more (`HeadParser.reads_toText_of_head?`).

## The limits

It is not evident that the text of a head keeps within the limits of its input. Blanks at the end of
a value count while they are read and are not written. But where a name occurs in two casings, all
its values are written under the first one, and a line may come to have another name than it had.
The two are equally long (`length_encode_of_sameName`), since names are compared by the case of
ASCII letters only.

## What is read is writable

For each part there is a lemma from the grammar to what a writer asks: versions have numbers below
1000, a code has three digits, a value that was read and trimmed begins and ends with no blank, a
method is a token. `Headers.writable_ofList` then says of headers what is known of their lines, with
the law for properties that do not mind the case of a name.
-/

namespace HttpFraming

open CharClass

/-! ### Header lines -/

/-- Names that differ in case only are spelled in as many octets. -/
theorem length_encode_of_sameName {a b : String} (h : sameName a b = true) :
    (Utf8.encode a).length = (Utf8.encode b).length := by
  have hfold (cs : List Char) : ((cs.map Char.toLower).flatMap String.utf8EncodeChar).length =
      (cs.flatMap String.utf8EncodeChar).length := by
    induction cs with
    | nil => rfl
    | cons c cs ih =>
      rw [List.map_cons, List.flatMap_cons, List.flatMap_cons, List.length_append,
        List.length_append, Utf8.length_encodeChar_toLower, ih]
  rw [Utf8.encode, Utf8.encode, ← hfold, ← hfold b.toList]
  exact congrArg (fun cs ↦ (cs.flatMap String.utf8EncodeChar).length) (sameName_iff.1 h)

/-- A value without the blanks at its end is one that a line can carry, if it was read from a line.
-/
theorem isFieldValue_trimBlanks {v : String} (honly : Only isFieldValueChar (Utf8.encode v))
    (hhead : ∀ b ∈ (Utf8.encode v).head?, isWhitespace b.toNat = false) :
    IsFieldValue (trimBlanks v) := by
  obtain ⟨blanks, hsplit, -⟩ := exists_eq_trimEnd_append (Utf8.encode v)
  rw [trimEnd_encode] at hsplit
  refine ⟨?_, ?_, ?_⟩
  · rw [hsplit] at honly
    exact (only_append.1 honly).1
  · intro b hb
    refine hhead b ?_
    rw [hsplit, List.head?_append, Option.mem_def.1 hb]
    rfl
  · intro b hb
    rw [← trimEnd_encode, FieldCollector.trimEnd, List.getLast?_reverse] at hb
    have hdrop := List.head?_dropWhile_not (fun b : UInt8 ↦ isWhitespace b.toNat)
      (Utf8.encode v).reverse
    rw [Option.mem_def.1 hb] at hdrop
    simpa using hdrop

/-- A value does not become longer when blanks are cut off. -/
theorem length_trimBlanks_le (v : String) :
    (Utf8.encode (trimBlanks v)).length ≤ (Utf8.encode v).length := by
  obtain ⟨blanks, hsplit, -⟩ := exists_eq_trimEnd_append (Utf8.encode v)
  rw [trimEnd_encode] at hsplit
  rw [hsplit, List.length_append]
  exact Nat.le_add_right _ _

/-- Each of some lines that are spelled is spelled. -/
theorem RawLine.SpellAll.exists_spells {lines : List RawLine} {x : Octets}
    (h : SpellAll lines x) : ∀ l ∈ lines, ∃ y, l.Spells y := by
  induction h with
  | nil => exact List.forall_mem_nil _
  | cons hline _ ih => exact List.forall_mem_cons.2 ⟨⟨_, hline⟩, ih⟩

/-- The field that a line is about can be written as a line. -/
theorem FieldLine.writable_of_spells {l : FieldLine} {x : Octets} (h : l.raw.Spells x) :
    (ofPair l.field).Writable := by
  cases h with
  | mk hne hname _ hvalue hhead _ =>
    exact ⟨Utf8.encode_eq_nil_iff.not.1 hne, hname, isFieldValue_trimBlanks hvalue hhead⟩

namespace Headers

variable {fields : List (String × String)} {limits : Limits} {h : Headers}

/-- Headers can be written if the lines can of which they were made. -/
theorem writable_ofList (hfields : ∀ f ∈ fields, (FieldLine.ofPair f).Writable) :
    (ofList fields).Writable := by
  have hall := forall_fields_insertList (h := .empty)
    (N := fun name ↦ name ≠ "" ∧ Only isTchar (Utf8.encode name)) (V := fun _ v ↦ IsFieldValue v)
    (fun _ _ _ _ hv ↦ hv) (List.forall_mem_nil _)
    fun f hf ↦ ⟨⟨(hfields f hf).name_ne, (hfields f hf).name⟩, (hfields f hf).value⟩
  exact ⟨Built.empty.insertList fields, fun f hf ↦ (hall f hf).1.1, fun f hf ↦ (hall f hf).1.2,
    fun f hf ↦ (hall f hf).2⟩

/-- Headers keep within the limits within which the lines did of which they were made. A field may
have another name than a line of it, but one that is as long. -/
theorem fits_ofList (hcount : fields.length ≤ limits.headerCount)
    (hsize : ∀ f ∈ fields, (Utf8.encode f.1).length + (Utf8.encode f.2).length ≤ limits.header) :
    (ofList fields).Fits limits := by
  -- A value is counted with the name of its field, which is the name that came first.
  have hall := forall_fields_insertList (h := .empty) (N := fun _ ↦ True)
    (V := fun name v ↦ (Utf8.encode name).length + (Utf8.encode v).length ≤ limits.header)
    (fun a b v hab hv ↦ length_encode_of_sameName hab ▸ hv) (List.forall_mem_nil _)
    fun f hf ↦ ⟨trivial, hsize f hf⟩
  refine ⟨?_, fun f hf ↦ (hall f hf).2⟩
  have hlength : (ofList fields).size = empty.size + fields.length := size_insertList empty fields
  rw [hlength]
  exact (Nat.zero_add fields.length).symm ▸ hcount

/-- The headers of lines that were read can be written, within the same limits. -/
theorem writable_of_spellAll {lines : List FieldLine} {x : Octets}
    (hlines : RawLine.SpellAll (lines.map FieldLine.raw) x) :
    (ofList (lines.map FieldLine.field)).Writable := by
  refine writable_ofList fun f hf ↦ ?_
  obtain ⟨l, hl, rfl⟩ := List.mem_map.1 hf
  obtain ⟨y, hy⟩ := hlines.exists_spells l.raw (List.mem_map_of_mem hl)
  exact FieldLine.writable_of_spells hy

/-- The headers of lines that were read keep within the same limits. -/
theorem fits_of_size_le {lines : List FieldLine}
    (hcount : (lines.map FieldLine.raw).length ≤ limits.headerCount)
    (hsize : ∀ l ∈ lines.map FieldLine.raw, l.size ≤ limits.header) :
    (ofList (lines.map FieldLine.field)).Fits limits := by
  refine fits_ofList (by simpa using hcount) fun f hf ↦ ?_
  obtain ⟨l, hl, rfl⟩ := List.mem_map.1 hf
  have hle := length_trimBlanks_le l.value
  exact Nat.le_trans (Nat.add_le_add_left hle _) (hsize l.raw (List.mem_map_of_mem hl))

end Headers

/-! ### Start lines -/

/-- The numbers of a version that is spelled are below a thousand. -/
theorem SpellsVersion.le {v : Version} {x : Octets} (h : SpellsVersion v x) :
    v.major ≤ 999 ∧ v.minor ≤ 999 := by
  cases h with
  | mk hmajor hminor =>
    exact ⟨Nat.le_of_lt_succ hmajor.lt_bound, Nat.le_of_lt_succ hminor.lt_bound⟩

/-- So are those of a version in a request line, or of the one that is meant without it. -/
theorem SpellsRequestVersion.le {v : Version} {x : Octets} (h : SpellsRequestVersion v x) :
    v.major ≤ 999 ∧ v.minor ≤ 999 := by
  cases h with
  | absent => decide
  | given hversion => exact hversion.le

/-- Three digits denote a number below a thousand. -/
theorem SpellsStatus.le {n : Nat} {digits : Octets} (h : SpellsStatus n digits) : n ≤ 999 := by
  obtain ⟨a, b, c, rfl⟩ := List.length_eq_three.1 h.length
  have hdigits := h.only
  have hvalue := h.value
  simp only [only_cons, isDigit, Bool.and_eq_true, decide_eq_true_eq] at hdigits
  simp only [Radix.value, Radix.decimal, List.foldl_cons, List.foldl_nil] at hvalue
  omega

/-- A reason that is spelled is made of octets of a field value. -/
theorem SpellsReason.only {reason x : Octets} (h : SpellsReason reason x) :
    Only isFieldValueChar reason := by
  cases h with
  | absent => exact only_nil
  | given honly => exact honly

/-- A request that was read can be written. -/
theorem RequestText.Spells.writable {r : RequestText} {x : Octets} {q : Request} (h : r.Spells x)
    (hq : r.request? = some q) : q.Writable := by
  obtain ⟨m, hm, rfl⟩ := Option.map_eq_some_iff.1 hq
  have hname := Method.name_of_parse? hm
  cases h with
  | mk _ _ _ hle hne htarget hversion _ hfields _ =>
    exact ⟨⟨r.method, hm⟩, hname.symm ▸ hle, Utf8.encode_eq_nil_iff.not.1 hne, htarget,
      hversion.le.1, hversion.le.2, Headers.writable_of_spellAll hfields⟩

/-- It keeps within the limits within which it was read. -/
theorem RequestText.Fits.fits_request {r : RequestText} {limits : Limits} {q : Request}
    (h : r.Fits limits) (hq : r.request? = some q) : q.Fits limits := by
  obtain ⟨m, -, rfl⟩ := Option.map_eq_some_iff.1 hq
  exact ⟨h.target, Headers.fits_of_size_le h.count h.size⟩

/-- A response that was read can be written. -/
theorem ResponseText.Spells.writable {r : ResponseText} {x : Octets} (h : r.Spells x) :
    r.response.Writable := by
  cases h with
  | mk _ hversion hstatus hreason _ hfields _ =>
    exact ⟨hstatus.le, hreason.only, hversion.le.1, hversion.le.2,
      Headers.writable_of_spellAll hfields⟩

/-- It keeps within the limits within which it was read. -/
theorem ResponseText.Fits.fits_response {r : ResponseText} {limits : Limits}
    (h : r.Fits limits) : r.response.Fits limits :=
  ⟨h.reason, Headers.fits_of_size_le h.count h.size⟩

/-! ### Heads that are written again -/

namespace HeadParser

/-- A text is read as a head: a parser takes all of it. -/
def Reads {H : Type} [ReadableHead H] (limits : Limits) (text : String) (head : H) : Prop :=
  Accepts limits (Utf8.encode text) head (Utf8.encode text).length

/-- A text of which a parser accepts all is read. -/
theorem reads_of_outcome {H : Type} [ReadableHead H] {limits : Limits} {text : String} {head : H}
    (h : (new limits : HeadParser H).outcome (Utf8.encode text ++ []) =
      (.accepted head, (Utf8.encode text).length)) : Reads limits text head := by
  rw [List.append_nil] at h
  exact accepts_iff_outcome.2 h

/-- **To write a head that was accepted does not change the message.** However it came in, its text
is read as the same head within the same limits, but for the `Host` field, which comes first. So
body and connection are treated as they were, and what was read again is written as the same text.
-/
theorem reads_toText_of_head? (limits : Limits) (pieces : List Octets) :
    (∀ q : Request, ((new limits : RequestParser).parsePieces pieces).parser.head? = some q →
      Reads limits q.toText q.withHostFirst ∧ q.withHostFirst.bodySize? = q.bodySize? ∧
        MessageHead.connectionStatus? q.withHostFirst = MessageHead.connectionStatus? q ∧
          q.withHostFirst.toText = q.toText) ∧
    ∀ p : Response, ((new limits : ResponseParser).parsePieces pieces).parser.head? = some p →
      Reads limits p.toText p.withHostFirst ∧ p.withHostFirst.bodySize? = p.bodySize? ∧
        MessageHead.connectionStatus? p.withHostFirst = MessageHead.connectionStatus? p ∧
          p.withHostFirst.toText = p.toText := by
  constructor
  · intro q hq
    obtain ⟨x, y, -, houtcome⟩ :=
      (head?_parsePieces_eq_some_iff (live_new limits) (by decide)).1 hq
    obtain ⟨r, hspells, hfits, hrequest⟩ := RequestParser.accepts_iff_spells.1 houtcome
    have hwritable := hspells.writable hrequest
    exact ⟨reads_of_outcome (hwritable.outcome_toText (hfits.fits_request hrequest) []),
      q.bodySize?_withHostFirst, q.connectionStatus?_withHostFirst, q.toText_withHostFirst⟩
  · intro p hp
    obtain ⟨x, y, -, houtcome⟩ :=
      (head?_parsePieces_eq_some_iff (live_new limits) (by decide)).1 hp
    obtain ⟨r, hspells, hfits, rfl⟩ := ResponseParser.accepts_iff_spells.1 houtcome
    exact ⟨reads_of_outcome (hspells.writable.outcome_toText hfits.fits_response []),
      r.response.bodySize?_withHostFirst, r.response.connectionStatus?_withHostFirst,
      r.response.toText_withHostFirst⟩

/-- A request without a version, with a name in two casings and a blank behind a value, and a
response without a reason, whose version and code have zeros in front. Both come in pieces. -/
theorem reads_toText_of_head?_two :
    (((new .standard : RequestParser).parsePieces [[0x47, 0x20], [], [0x2F, 0x0A, 0x41, 0x3A, 0x62],
          [0x20, 0x0A, 0x61, 0x3A, 0x63, 0x0A, 0x0A, 0x58]]).parser.head? =
        some ⟨.extension "G", "/", .http09, .ofList [("A", "b"), ("a", "c")]⟩ ∧
      Reads .standard "G / HTTP/0.9\r\nA: b\r\nA: c\r\n\r\n"
        (⟨.extension "G", "/", .http09, .ofList [("A", "b"), ("A", "c")]⟩ : Request)) ∧
    ((new .standard : ResponseParser).parsePieces [[0x48, 0x54, 0x54, 0x50, 0x2F, 0x30, 0x31],
          [0x2E, 0x31, 0x20, 0x30, 0x30, 0x37, 0x0A, 0x0D], [0x0A]]).parser.head? =
        some ⟨7, "", .http11, .empty⟩ ∧
      Reads .standard "HTTP/1.1 007 \r\n\r\n" (⟨7, "", .http11, .empty⟩ : Response) := by
  have hline : (⟨"A", "b "⟩ : FieldLine).raw.Spells [0x41, 0x3A, 0x62, 0x20, 0x0A] :=
    .mk (l := ⟨[0x41], [0x62, 0x20]⟩) (by decide) (by decide) only_nil (by decide)
      (by rintro b ⟨⟩; rfl) .lf
  have hline' : (⟨"a", "c"⟩ : FieldLine).raw.Spells [0x61, 0x3A, 0x63, 0x0A] :=
    .mk (l := ⟨[0x61], [0x63]⟩) (by decide) (by decide) only_nil (by decide)
      (by rintro b ⟨⟩; rfl) .lf
  have hrequest : (⟨"G", "/", .http09, [⟨"A", "b "⟩, ⟨"a", "c"⟩]⟩ : RequestText).Spells
      [0x47, 0x20, 0x2F, 0x0A, 0x41, 0x3A, 0x62, 0x20, 0x0A, 0x61, 0x3A, 0x63, 0x0A, 0x0A] :=
    .mk (q := ⟨[0x47], [0x2F], .http09, _⟩) only_nil (by decide) (by decide) (by decide)
      (by decide) (by decide) .absent .lf (.cons hline (.cons hline' .nil)) .lf
  have haccepts : ((new .standard : RequestParser).parsePieces [[0x47, 0x20], [],
      [0x2F, 0x0A, 0x41, 0x3A, 0x62],
      [0x20, 0x0A, 0x61, 0x3A, 0x63, 0x0A, 0x0A, 0x58]]).parser.head? =
        some ⟨.extension "G", "/", .http09, .ofList [("A", "b"), ("a", "c")]⟩ :=
    (head?_parsePieces_eq_some_iff (live_new _) (by decide)).2 ⟨_, [0x58], rfl,
      RequestParser.accepts_iff_spells.2 ⟨_, hrequest, ⟨by decide, by decide, by decide⟩, rfl⟩⟩
  have hone : Radix.decimal.Spells 1000 1 [0x31] :=
    ⟨List.cons_ne_nil _ _, by decide, by decide, by decide⟩
  have hone' : Radix.decimal.Spells 1000 1 [0x30, 0x31] :=
    ⟨List.cons_ne_nil _ _, by decide, by decide, by decide⟩
  have hstatus : SpellsStatus 7 [0x30, 0x30, 0x37] := ⟨rfl, by decide, by decide⟩
  have hresponse : (⟨.http11, 7, "", []⟩ : ResponseText).Spells
      [0x48, 0x54, 0x54, 0x50, 0x2F, 0x30, 0x31, 0x2E, 0x31, 0x20, 0x30, 0x30, 0x37, 0x0A, 0x0D,
        0x0A] :=
    .mk (p := ⟨.http11, 7, [], []⟩) only_nil (.mk (v := .http11) hone' hone) hstatus .absent .lf
      .nil .crlf
  have haccepts' : ((new .standard : ResponseParser).parsePieces
      [[0x48, 0x54, 0x54, 0x50, 0x2F, 0x30, 0x31], [0x2E, 0x31, 0x20, 0x30, 0x30, 0x37, 0x0A, 0x0D],
        [0x0A]]).parser.head? = some ⟨7, "", .http11, .empty⟩ :=
    (head?_parsePieces_eq_some_iff (live_new _) (by decide)).2 ⟨_, [], rfl,
      ResponseParser.accepts_iff_spells.2 ⟨_, hresponse, ⟨by decide, by decide, by decide⟩, rfl⟩⟩
  have htext : (⟨.extension "G", "/", .http09, .ofList [("A", "b"), ("a", "c")]⟩ : Request).toText =
      "G / HTTP/0.9\r\nA: b\r\nA: c\r\n\r\n" := by decide +kernel
  have htext' : (⟨7, "", .http11, .empty⟩ : Response).toText = "HTTP/1.1 007 \r\n\r\n" := by
    decide +kernel
  obtain ⟨hreads, -⟩ := (reads_toText_of_head? .standard _).1 _ haccepts
  obtain ⟨hreads', -⟩ := (reads_toText_of_head? .standard _).2 _ haccepts'
  exact ⟨⟨haccepts, htext ▸ hreads⟩, haccepts', htext' ▸ hreads'⟩

end HeadParser

end HttpFraming
