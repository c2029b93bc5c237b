import HttpFraming.Proofs.Text.Ascii
import HttpFraming.Wire.FieldCollector

/-!
# Header lines as they are written

The grammar of header lines, without a lexer: which octets spell a line, and which spell a list of
lines. A `RawLine` is made of octets and a `FieldLine` of text. The value of a line reaches up to
the end of the line, and the blanks at its end are no part of the field.

## Two kinds of lines

A lexer knows octets and takes no notice of how they are to be decoded, so its language is one of
raw lines. That the name and the value are text is asked when a line is stored. A `FieldLine` is
what a raw line says in this case, and `FieldLine.raw_inj` that it says one thing only.

## Blanks

The blanks in front of a value are skipped by the lexer and belong to no part. Those at its end are
reported with the value, count for the limits (`RawLine.size`), and are cut off when the line is
stored. So they are part of a `RawLine` and not of the field (`FieldLine.field`).

They are cut off the octets before these are decoded. `trimEnd_encode` says that it does not matter:
read from its end, a text in UTF-8 shows a blank only where a blank was written, since the last
octet of any longer character is beyond ASCII. The induction is over the characters, from the end.
-/

namespace HttpFraming

open CharClass

/-- The end of a line: a line feed, before which a carriage return may stand. -/
inductive LineEnd : Octets → Prop
  | lf : LineEnd [0x0A]
  | crlf : LineEnd [0x0D, 0x0A]

/-- A line ends in a line feed. -/
theorem LineEnd.exists_append_lf {eol : Octets} (h : LineEnd eol) :
    ∃ tail, eol = tail ++ [0x0A] := by
  cases h with
  | lf => exact ⟨[], rfl⟩
  | crlf => exact ⟨[0x0D], rfl⟩

/-- In front of the line feed there is nothing, or a carriage return. -/
theorem lineEnd_append_lf {tail : Octets} :
    LineEnd (tail ++ [0x0A]) ↔ tail = [] ∨ tail = [0x0D] := by
  constructor
  · intro h
    generalize hx : tail ++ [0x0A] = x at h
    cases h with
    | lf => exact .inl ((List.append_left_inj [0x0A]).1 (hx : tail ++ [0x0A] = [] ++ [0x0A]))
    | crlf => exact .inr ((List.append_left_inj [0x0A]).1 (hx : tail ++ [0x0A] = [0x0D] ++ [0x0A]))
  · rintro (rfl | rfl)
    · exact .lf
    · exact .crlf

/-- The octets of a header line: its name and its value. -/
structure RawLine where
  name : Octets
  value : Octets

namespace RawLine

/-- Some octets spell a line. The blanks in front of the value do not belong to it. -/
inductive Spells (l : RawLine) : Octets → Prop
  | mk {blanks eol : Octets} (nonempty : l.name ≠ []) (name : Only isTchar l.name)
    (blank : Only isWhitespace blanks) (value : Only isFieldValueChar l.value)
    (head : ∀ b ∈ l.value.head?, isWhitespace b.toNat = false) (lineEnd : LineEnd eol) :
    Spells l (l.name ++ 0x3A :: (blanks ++ (l.value ++ eol)))

/-- Some octets spell a list of lines. -/
inductive SpellAll : List RawLine → Octets → Prop
  | nil : SpellAll [] []
  | cons {l : RawLine} {lines : List RawLine} {x y : Octets} (line : l.Spells x)
    (rest : SpellAll lines y) : SpellAll (l :: lines) (x ++ y)

/-- How much of a limit a line takes: the octets of its name and of its value, the blanks at the end
of the line included. -/
def size (l : RawLine) : Nat :=
  l.name.length + l.value.length

variable {l : RawLine} {lines : List RawLine} {x : Octets}

/-- A line is longer than its name and its value. -/
theorem Spells.lt_length (h : l.Spells x) : l.size < x.length := by
  cases h with
  | mk =>
    simp only [size, List.length_append, List.length_cons]
    omega

/-- Neither the number of some lines nor the size of one exceeds the length of their text. -/
theorem SpellAll.le_length (h : SpellAll lines x) :
    lines.length ≤ x.length ∧ ∀ l ∈ lines, l.size ≤ x.length := by
  induction h with
  | nil => exact ⟨Nat.le_refl 0, List.forall_mem_nil _⟩
  | cons hline hrest ih =>
    have hlt := hline.lt_length
    obtain ⟨hcount, hsize⟩ := ih
    rw [List.length_append]
    refine ⟨?_, fun l hl ↦ ?_⟩
    · rw [List.length_cons]
      omega
    · rcases List.mem_cons.1 hl with rfl | hl
      · omega
      · have := hsize l hl
        omega

end RawLine

/-- A text without the spaces and tabs at its end. -/
def trimBlanks (s : String) : String :=
  String.ofList (s.toList.reverse.dropWhile fun c ↦ isWhitespace c.toNat).reverse

/-- A header line of text. -/
structure FieldLine where
  name : String
  value : String

namespace FieldLine

/-- The octets of a line. -/
def raw (l : FieldLine) : RawLine :=
  ⟨Utf8.encode l.name, Utf8.encode l.value⟩

/-- Octets say one thing only. -/
theorem raw_inj {l l' : FieldLine} (h : l.raw = l'.raw) : l = l' := by
  obtain ⟨hname, hvalue⟩ := RawLine.mk.inj h
  exact congr (congrArg FieldLine.mk (Utf8.encode_inj hname)) (Utf8.encode_inj hvalue)

/-- The field that a line is about: its name, and its value without the blanks at the end. -/
def field (l : FieldLine) : String × String :=
  (l.name, trimBlanks l.value)

end FieldLine

/-! ### Blanks at the end -/

theorem lt_of_isWhitespace (n : Nat) (h : isWhitespace n = true) : n < 0x80 := by
  simp only [isWhitespace, Bool.or_eq_true, beq_iff_eq] at h
  omega

/-- No blank stands in a token. -/
theorem isWhitespace_of_isTchar {c : Nat} (h : isTchar c = true) : isWhitespace c = false := by
  simp only [isTchar, isAlphanumeric, isAlpha, isDigit, isWhitespace, Bool.or_eq_true,
    Bool.and_eq_true, Bool.or_eq_false_iff, beq_iff_eq, beq_eq_false_iff_ne,
    decide_eq_true_eq] at h ⊢
  omega

/-- Read from its end, a character that is no blank begins with an octet that is none. -/
theorem isWhitespace_of_reverse_encodeChar {c : Char} {b : UInt8} {rest : Octets}
    (h : (String.utf8EncodeChar c).reverse = b :: rest) (hc : isWhitespace c.toNat = false) :
    isWhitespace b.toNat = false := by
  by_cases hlt : c.toNat < 0x80
  · have honly := Utf8.only_encodeChar_iff lt_of_isWhitespace c
    rw [Utf8.encodeChar_of_lt hlt] at h honly
    obtain ⟨rfl, -⟩ := List.cons.inj h
    rw [only_cons, hc] at honly
    simpa using honly
  · have hmem : b ∈ String.utf8EncodeChar c := List.mem_reverse.1 (h ▸ List.mem_cons_self)
    have hle := Utf8.le_of_mem_encodeChar (Nat.not_lt.1 hlt) hmem
    refine Bool.eq_false_iff.2 fun hb ↦ ?_
    have := lt_of_isWhitespace _ hb
    omega

/-- From the end, blanks can be dropped before or after the characters are written. -/
theorem dropWhile_flatMap_encodeChar (cs : List Char) :
    (cs.flatMap fun c ↦ (String.utf8EncodeChar c).reverse).dropWhile
        (fun b ↦ isWhitespace b.toNat) =
      (cs.dropWhile fun c ↦ isWhitespace c.toNat).flatMap fun c ↦
        (String.utf8EncodeChar c).reverse := by
  induction cs with
  | nil => rfl
  | cons c cs ih =>
    cases hc : isWhitespace c.toNat with
    | true =>
      -- A blank is one octet, and it is as blank as the character.
      have hlt := lt_of_isWhitespace _ hc
      have honly := (Utf8.only_encodeChar_iff lt_of_isWhitespace c).2 hc
      rw [Utf8.encodeChar_of_lt hlt, only_cons] at honly
      rw [List.flatMap_cons, Utf8.encodeChar_of_lt hlt, List.reverse_singleton,
        List.singleton_append,
        List.dropWhile_cons_of_pos (p := fun b : UInt8 ↦ isWhitespace b.toNat) honly.1,
        List.dropWhile_cons_of_pos (p := fun c : Char ↦ isWhitespace c.toNat) hc, ih]
    | false =>
      obtain ⟨b, rest, hb⟩ := List.exists_cons_of_ne_nil
        (List.reverse_ne_nil_iff.2 (String.utf8EncodeChar_ne_nil (c := c)))
      have hwhite := isWhitespace_of_reverse_encodeChar hb hc
      simp [hb, hc, hwhite]

/-- Blanks can be cut off a text or off its octets. -/
theorem trimEnd_encode (s : String) :
    FieldCollector.trimEnd (Utf8.encode s) = Utf8.encode (trimBlanks s) := by
  have hreverse (cs : List Char) : (cs.flatMap String.utf8EncodeChar).reverse =
      cs.reverse.flatMap fun c ↦ (String.utf8EncodeChar c).reverse := by
    rw [List.reverse_flatMap]
    rfl
  rw [FieldCollector.trimEnd, Utf8.encode, hreverse, dropWhile_flatMap_encodeChar, Utf8.encode,
    trimBlanks, String.toList_ofList, ← List.reverse_inj, List.reverse_reverse, hreverse,
    List.reverse_reverse]

/-- What is cut off are blanks. -/
theorem exists_eq_trimEnd_append (x : Octets) :
    ∃ blanks, x = FieldCollector.trimEnd x ++ blanks ∧ Only isWhitespace blanks := by
  refine ⟨(x.reverse.takeWhile fun b ↦ isWhitespace b.toNat).reverse, ?_, ?_⟩
  · rw [FieldCollector.trimEnd, ← List.reverse_append, List.takeWhile_append_dropWhile,
      List.reverse_reverse]
  · intro b hb
    rw [List.mem_reverse] at hb
    exact List.all_eq_true.1 List.all_takeWhile b hb

/-- A value is text up to the end of its line if it is text up to the blanks there. -/
theorem decode?_trimEnd_eq_some_iff {x : Octets} {t : String} :
    Utf8.decode? (FieldCollector.trimEnd x) = some t ↔
      ∃ s, Utf8.encode s = x ∧ trimBlanks s = t := by
  rw [Utf8.decode?_eq_some_iff]
  constructor
  · intro ht
    obtain ⟨blanks, hx, hblanks⟩ := exists_eq_trimEnd_append x
    obtain ⟨w, rfl⟩ := Utf8.exists_encode_of_ascii fun b hb ↦ lt_of_isWhitespace _ (hblanks b hb)
    have hs : Utf8.encode (t ++ w) = x := by rw [Utf8.encode_append, ht, ← hx]
    refine ⟨t ++ w, hs, Utf8.encode_inj ?_⟩
    rw [← trimEnd_encode, hs, ht]
  · rintro ⟨s, rfl, rfl⟩
    exact (trimEnd_encode s).symm

end HttpFraming
