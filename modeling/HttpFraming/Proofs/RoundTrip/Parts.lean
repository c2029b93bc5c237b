import HttpFraming.Message.Version
import HttpFraming.Proofs.Grammar.Decimal
import HttpFraming.Proofs.Grammar.Line
import HttpFraming.Proofs.Grammar.Version
import HttpFraming.Proofs.Message.Headers

/-!
# The parts of a head as they are written

What is written of a version and of headers spells them, in the sense of the grammar that parsers
are held against. For headers that needs names that are tokens and values that a line can carry
(`Headers.Writable`): a blank at the end of a value, say, would be taken for one at the end of the
line.

## Writing in terms of the grammar

A text is never parsed here. It is shown to be in the language, and that a parser reads the language
is known. So the two directions of a round trip meet in `SpellsVersion` and `RawLine.SpellAll`, and
this module is the only one that looks at the text of a line.

## What is written of headers

Lines are written from the fields, with those of `Host` first, and each value has a line. The lines
are about the headers from which they come (`Headers.Writable.ofList_field`) because the headers are
built: a field of each name, none of them empty. Of headers that are not, some lines would be missed
or put together.

`Headers.Writable` speaks of fields and their values and not of lines, so that it can be checked on
headers as they are.
-/

namespace HttpFraming

open CharClass

/-! ### Versions -/

/-- A version that is written spells itself. -/
theorem spellsVersion_toText {v : Version} (hmajor : v.major ≤ 999) (hminor : v.minor ≤ 999) :
    SpellsVersion v (Utf8.encode v.toText) := by
  have hname : Utf8.encode "HTTP/" = Lexer.protocolName := by decide
  have hdot : Utf8.encode "." = [0x2E] := by decide
  have htext : Utf8.encode v.toText = Lexer.protocolName ++
      (Utf8.encode (Decimal.print v.major) ++ 0x2E :: Utf8.encode (Decimal.print v.minor)) := by
    simp [Version.toText, hname, hdot]
  rw [htext]
  exact .mk (Radix.spells_print (Nat.lt_succ_of_le hmajor))
    (Radix.spells_print (Nat.lt_succ_of_le hminor))

/-! ### Header lines -/

/-- A text that a header line can carry as its value: no control but the tab, and no blank at either
end. -/
structure IsFieldValue (v : String) : Prop where
  only : Only isFieldValueChar (Utf8.encode v)
  head : ∀ b ∈ (Utf8.encode v).head?, isWhitespace b.toNat = false
  last : ∀ b ∈ (Utf8.encode v).getLast?, isWhitespace b.toNat = false

/-- Whether a line can carry a text can be computed. -/
theorem isFieldValue_iff {v : String} : IsFieldValue v ↔ Only isFieldValueChar (Utf8.encode v) ∧
    (Utf8.encode v).head?.all (fun b ↦ !isWhitespace b.toNat) = true ∧
      (Utf8.encode v).getLast?.all (fun b ↦ !isWhitespace b.toNat) = true := by
  simp only [Option.all_eq_true, Bool.not_eq_true']
  exact ⟨fun h ↦ ⟨h.only, h.head, h.last⟩, fun h ↦ ⟨h.1, h.2.1, h.2.2⟩⟩

instance (v : String) : Decidable (IsFieldValue v) :=
  decidable_of_iff _ isFieldValue_iff.symm

/-- Nothing is cut off a text that a line can carry. -/
theorem trimBlanks_of_isFieldValue {v : String} (h : IsFieldValue v) : trimBlanks v = v := by
  apply Utf8.encode_inj
  rw [← trimEnd_encode, FieldCollector.trimEnd]
  have hlast := h.last
  rw [← List.head?_reverse] at hlast
  cases hreverse : (Utf8.encode v).reverse with
  | nil => rw [List.reverse_eq_nil_iff.1 hreverse]; rfl
  | cons b rest =>
    have hb : isWhitespace b.toNat = false := hlast b (by rw [hreverse]; rfl)
    rw [List.dropWhile_cons_of_neg (by simp [hb]), ← hreverse, List.reverse_reverse]

namespace FieldLine

/-- A line of a name and a value. -/
def ofPair (l : String × String) : FieldLine :=
  ⟨l.1, l.2⟩

/-- A line that can be written: a token and a text that a line can carry. -/
structure Writable (l : FieldLine) : Prop where
  name_ne : l.name ≠ ""
  name : Only isTchar (Utf8.encode l.name)
  value : IsFieldValue l.value

/-- A line that is written spells itself. -/
theorem spells_lineText {l : String × String} (h : (ofPair l).Writable) :
    (ofPair l).raw.Spells (Utf8.encode (Headers.lineText l)) := by
  have hcolon : Utf8.encode ": " = [0x3A, 0x20] := by decide
  have hend : Utf8.encode "\r\n" = [0x0D, 0x0A] := by decide
  have htext : Utf8.encode (Headers.lineText l) =
      Utf8.encode l.1 ++ 0x3A :: ([0x20] ++ (Utf8.encode l.2 ++ [0x0D, 0x0A])) := by
    simp [Headers.lineText, hcolon, hend]
  have hname : Utf8.encode l.1 ≠ [] := Utf8.encode_eq_nil_iff.not.2 h.name_ne
  rw [htext]
  exact .mk hname h.name (by decide) h.value.only h.value.head .crlf

/-- Lines that are written one after another spell themselves. -/
theorem spellAll_lineText {lines : List (String × String)} (h : ∀ l ∈ lines, (ofPair l).Writable) :
    RawLine.SpellAll ((lines.map ofPair).map raw)
      (Utf8.encode (String.join (lines.map Headers.lineText))) := by
  induction lines with
  | nil => exact .nil
  | cons l lines ih =>
    obtain ⟨hl, hlines⟩ := List.forall_mem_cons.1 h
    rw [List.map_cons (f := Headers.lineText), String.join_cons, Utf8.encode_append]
    exact .cons (spells_lineText hl) (ih hlines)

end FieldLine

namespace Headers

variable {h : Headers} {limits : Limits}

/-- Headers that can be written and read back. -/
structure Writable (h : Headers) : Prop where
  built : h.Built
  name_ne : ∀ f ∈ h.fields, f.name ≠ ""
  name : ∀ f ∈ h.fields, Only isTchar (Utf8.encode f.name)
  value : ∀ f ∈ h.fields, ∀ v ∈ f.values, IsFieldValue v

/-- Headers keep within some limits. -/
structure Fits (h : Headers) (limits : Limits) : Prop where
  count : h.size ≤ limits.headerCount
  size : ∀ f ∈ h.fields, ∀ v ∈ f.values,
    (Utf8.encode f.name).length + (Utf8.encode v).length ≤ limits.header

/-- The header lines in the order in which they are written. -/
def writtenLines (h : Headers) : List FieldLine :=
  h.lines.map FieldLine.ofPair

theorem exists_of_mem_lines {l : String × String} (hl : l ∈ h.lines) :
    ∃ f ∈ h.fields, l.1 = f.name ∧ l.2 ∈ f.values := by
  obtain ⟨f, hf, hl⟩ := List.mem_flatMap.1 hl
  obtain ⟨v, hv, rfl⟩ := List.mem_map.1 hl
  exact ⟨f, h.perm_hostFirst.mem_iff.1 hf, rfl, hv⟩

/-- The lines of writable headers can be written. -/
theorem Writable.line (hh : h.Writable) : ∀ l ∈ h.lines, (FieldLine.ofPair l).Writable := by
  rintro ⟨name, value⟩ hl
  obtain ⟨f, hf, rfl, hv⟩ := exists_of_mem_lines hl
  exact ⟨hh.name_ne f hf, hh.name f hf, hh.value f hf value hv⟩

/-- What is written of headers spells their lines. -/
theorem Writable.spellAll (hh : h.Writable) :
    RawLine.SpellAll (h.writtenLines.map FieldLine.raw) (Utf8.encode h.toText) :=
  FieldLine.spellAll_lineText hh.line

/-- What is written of headers is about them. -/
theorem Writable.ofList_field (hh : h.Writable) :
    ofList (h.writtenLines.map FieldLine.field) = h.withHostFirst := by
  have hlines : h.writtenLines.map FieldLine.field = h.lines := by
    have hfield : ∀ l ∈ h.lines, (FieldLine.ofPair l).field = l := fun l hl ↦
      Prod.ext rfl (trimBlanks_of_isFieldValue (hh.line l hl).value)
    rw [writtenLines, List.map_map]
    exact (List.map_congr_left hfield).trans (List.map_id h.lines)
  rw [hlines]
  exact hh.built.regular.insertList_lines

theorem Writable.length_writtenLines (hh : h.Writable) : h.writtenLines.length = h.size := by
  rw [writtenLines, List.length_map, hh.built.regular.length_lines]

/-- The lines that are written keep within the limits that the headers keep within. -/
theorem Fits.count_le (hh : h.Fits limits) (hwritable : h.Writable) :
    (h.writtenLines.map FieldLine.raw).length ≤ limits.headerCount := by
  rw [List.length_map, hwritable.length_writtenLines]
  exact hh.count

/-- The lines that are written are no longer than the limit. -/
theorem Fits.size_le (hh : h.Fits limits) :
    ∀ l ∈ h.writtenLines.map FieldLine.raw, l.size ≤ limits.header := by
  intro l hl
  simp only [writtenLines, List.map_map, List.mem_map] at hl
  obtain ⟨⟨name, value⟩, hl, rfl⟩ := hl
  obtain ⟨f, hf, rfl, hv⟩ := exists_of_mem_lines hl
  exact hh.size f hf value hv

end Headers

end HttpFraming
