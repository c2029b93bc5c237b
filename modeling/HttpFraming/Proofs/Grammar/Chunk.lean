import HttpFraming.Proofs.Grammar.HeaderLines
import HttpFraming.Proofs.Grammar.Number

/-!
# The language of chunked bodies

Which octets spell a chunked body (`RawChunked.Spells`), and that these are the octets over which a
lexer of chunked bodies comes to an end (`Lexer.ends_chunked`). On the way, its handler is told the
data of each chunk and then the trailer lines.

The data of a chunk is the one part of a message whose end cannot be seen: how far it reaches is
what the number before it says, and any octets may stand in it.

## The line with the size

A size is one hexadecimal digit or more, below two to the power of 64. It may be followed by an
extension, which begins with a semicolon or a blank and is read to the end of the line without being
looked at. The lexer stays in one phase for all digits and leaves it for an extension or for the end
of the line. Both are `EndsAfterSize`, so that `Radix.loop_iff` can be applied with it as exit.

## The inductions

* `ends_chunkData` is over the number of octets that are missing, which is the only thing that the
  lexer knows of the end.
* `ends_chunks`, from the grammar to the lexer, is over the chunks.
* The other direction of `ends_chunked` is over the length of what is left. There are no chunks yet
  over which an induction could be: they are what it has to find. Each one that it finds is longer
  than nothing.
-/

namespace HttpFraming

open CharClass

/-- What may follow the size of a chunk on its line. -/
inductive SpellsExtension : Octets → Prop
  | absent : SpellsExtension []
  | given {b : UInt8} {x : Octets} (first : b = 0x3B ∨ b = 0x20 ∨ b = 0x09)
    (only : Only isFieldValueChar x) : SpellsExtension (b :: x)

/-- Some octets spell the line with the size of a chunk. -/
inductive SpellsSize (n : Nat) : Octets → Prop
  | mk {digits extension eol : Octets}
    (spellsDigits : Radix.hexadecimal.Spells UInt64.size n digits)
    (spellsExtension : SpellsExtension extension) (lineEnd : LineEnd eol) :
    SpellsSize n (digits ++ (extension ++ eol))

/-- Some octets spell the chunks with some data. -/
inductive SpellsChunks : List Octets → Octets → Prop
  | nil : SpellsChunks [] []
  | cons {data size eol x : Octets} {chunks : List Octets} (nonempty : data ≠ [])
    (spellsSize : SpellsSize data.length size) (lineEnd : LineEnd eol)
    (rest : SpellsChunks chunks x) :
    SpellsChunks (data :: chunks) (size ++ (data ++ (eol ++ x)))

/-- The octets of a chunked body, by their parts. -/
structure RawChunked where
  chunks : List Octets
  lines : List RawLine

/-- Some octets spell a chunked body: chunks, the size of the last chunk, and trailer lines. -/
inductive RawChunked.Spells (c : RawChunked) : Octets → Prop
  | mk {chunks size fields eol : Octets} (spellsChunks : SpellsChunks c.chunks chunks)
    (spellsSize : SpellsSize 0 size) (spellsFields : RawLine.SpellAll c.lines fields)
    (lineEnd : LineEnd eol) :
    Spells c (chunks ++ (size ++ (fields ++ eol)))

/-- One more chunk in front of a body. -/
theorem RawChunked.Spells.cons {chunks : List Octets} {lines : List RawLine}
    {size data eol x : Octets} (h : (⟨chunks, lines⟩ : RawChunked).Spells x) (hne : data ≠ [])
    (hsize : SpellsSize data.length size) (heol : LineEnd eol) :
    (⟨data :: chunks, lines⟩ : RawChunked).Spells (size ++ (data ++ (eol ++ x))) := by
  cases h with
  | mk hchunks hlast hlines hend =>
    have hspells := RawChunked.Spells.mk (c := ⟨data :: chunks, lines⟩)
      (.cons hne hsize heol hchunks) hlast hlines hend
    simpa using hspells

/-- A chunked body ends in a line feed. -/
theorem RawChunked.Spells.exists_append_lf {c : RawChunked} {x : Octets} (h : c.Spells x) :
    ∃ z, x = z ++ [0x0A] := by
  cases h with
  | @mk chunks size fields eol _ _ _ heol =>
    obtain ⟨tail, rfl⟩ := heol.exists_append_lf
    exact ⟨chunks ++ (size ++ (fields ++ tail)), by simp⟩

/-- No part of the trailer exceeds the length of the text. -/
theorem RawChunked.Spells.le_length {c : RawChunked} {x : Octets} (h : c.Spells x) :
    c.lines.length ≤ x.length ∧ ∀ l ∈ c.lines, l.size ≤ x.length := by
  cases h with
  | mk _ _ hfields _ =>
    obtain ⟨hcount, hsize⟩ := hfields.le_length
    simp only [List.length_append]
    refine ⟨by omega, fun l hl ↦ ?_⟩
    have := hsize l hl
    omega

namespace Lexer

variable {part : MessagePart} {σ : Type} {handle : σ → Event → σ × Flow} {l : Lexer part}
  {s s' : σ} {line : StartLine} {opened x : Octets} {n : Nat}

/-! ### Sizes -/

theorem needsLf_sizeLf (l : Lexer part) (n : Nat) :
    NeedsLf (l.inPhase (.sizeLf n)) (l.inPhase (afterSize n)) :=
  fun _ ↦ rfl

/-- An extension reaches up to the end of the line. -/
theorem ends_sizeExtension :
    Ends handle (l.inPhase (.sizeExtension n)) s [] x s' line ↔
      ∃ extension rest, x = extension ++ rest ∧ Only isFieldValueChar extension ∧
        EndsAfterLine handle (l.inPhase (afterSize n)) s rest s' line := by
  refine loop_iff (E := fun _ x ↦ Ends handle (l.inPhase (.sizeExtension n)) s [] x s' line)
    (X := fun _ rest ↦ EndsAfterLine handle (l.inPhase (afterSize n)) s rest s' line) (o := [])
    (fun _ ↦ not_ends_nil rfl) ?stay ?leave (stops_of_endsAfterLine rfl rfl)
  case stay =>
    intro _ b x hb
    have hcr : b.toNat ≠ 0x0D := ne_of_class hb rfl
    have hlf : b.toNat ≠ 0x0A := ne_of_class hb rfl
    exact ends_cons_skip (by simp [step, inPhase, hcr, hlf, hb])
  case leave =>
    intro _ b x hb
    refine ends_cons_lineEnd rfl rfl (needsLf_sizeLf l n) rfl fun hcr hlf ↦ ?_
    exact ⟨.invalidChunkSize, by simp [step, inPhase, hcr, hlf, hb]⟩

/-- What comes after the digits of the size `n`: the rest of the line, and what follows it. -/
def EndsAfterSize (handle : σ → Event → σ × Flow) (l : Lexer part) (s : σ) (n : Nat) (x : Octets)
    (s' : σ) (line : StartLine) : Prop :=
  ∃ extension rest, x = extension ++ rest ∧ SpellsExtension extension ∧
    EndsAfterLine handle (l.inPhase (afterSize n)) s rest s' line

/-- What comes after the digits of a size begins with no digit. -/
theorem stops_of_endsAfterSize (h : EndsAfterSize handle l s n x s' line) :
    ∃ b y, x = b :: y ∧ Radix.hexadecimal.isDigit b.toNat = false := by
  obtain ⟨_, rest, rfl, hextension, hrest⟩ := h
  cases hextension with
  | absent => exact stops_of_endsAfterLine rfl rfl hrest
  | @given b extension hb =>
    refine ⟨b, extension ++ rest, rfl, ?_⟩
    rcases hb with rfl | rfl | rfl <;> rfl

/-- The octets that begin an extension. -/
theorem extension_first_iff {b : UInt8} :
    b.toNat = 0x3B ∨ isWhitespace b.toNat = true ↔ b = 0x3B ∨ b = 0x20 ∨ b = 0x09 := by
  simp [isWhitespace, ← UInt8.toNat_inj]

/-- The digits of a size are left for what may come after them, and for nothing else. -/
theorem ends_size_cons {b : UInt8} (hb : Radix.hexadecimal.isDigit b.toNat = false) :
    Ends handle (l.inPhase (.size n)) s [] (b :: x) s' line ↔
      EndsAfterSize handle l s n (b :: x) s' line := by
  have hvalue : Hexadecimal.value? b.toNat = none := by simpa [Radix.hexadecimal] using hb
  by_cases hfirst : b.toNat = 0x3B ∨ isWhitespace b.toNat = true
  · have hstep : (l.inPhase (.size n)).step b = .ok (l.inPhase (.sizeExtension n), .skip) := by
      simp [step, inPhase, enter, hvalue, hfirst]
    rw [ends_cons_skip hstep, ends_sizeExtension]
    constructor
    · rintro ⟨extension, rest, rfl, honly, hrest⟩
      exact ⟨b :: extension, rest, rfl, .given (extension_first_iff.1 hfirst) honly, hrest⟩
    · rintro ⟨_, rest, hx, hextension, hrest⟩
      cases hextension with
      | absent =>
        obtain rfl : b :: x = rest := hx
        refine absurd hrest (not_endsAfterLine_cons ?_ ?_) <;>
          rcases extension_first_iff.1 hfirst with rfl | rfl | rfl <;> decide
      | @given d extension _ honly =>
        obtain ⟨-, rfl⟩ := List.cons.inj hx
        exact ⟨extension, rest, rfl, honly, hrest⟩
  · have hstep (hcr : b.toNat ≠ 0x0D) (hlf : b.toNat ≠ 0x0A) :
        ∃ e, (l.inPhase (.size n)).step b = .error e :=
      ⟨.invalidChunkSize, by simp [step, inPhase, hvalue, hfirst, hcr, hlf]⟩
    rw [ends_cons_lineEnd rfl rfl (needsLf_sizeLf l n) rfl hstep]
    constructor
    · exact fun h ↦ ⟨[], b :: x, rfl, .absent, h⟩
    · rintro ⟨_, rest, hx, hextension, hrest⟩
      cases hextension with
      | absent => exact hx ▸ hrest
      | given hd =>
        obtain ⟨rfl, -⟩ := List.cons.inj hx
        exact absurd (extension_first_iff.2 hd) hfirst

/-- A hexadecimal digit has the value that it counts. -/
theorem value?_of_isDigit {c : Nat} (h : Radix.hexadecimal.isDigit c = true) :
    Hexadecimal.value? c = some (Radix.hexadecimal.digit c) := by
  obtain ⟨d, hd⟩ := Option.isSome_iff_exists.1 h
  simp [Radix.hexadecimal, hd]

theorem hexadecimal_digit_lt (c : Nat) (h : Radix.hexadecimal.isDigit c = true) :
    Radix.hexadecimal.digit c < UInt64.size :=
  Nat.lt_trans (Hexadecimal.value?_lt (value?_of_isDigit h)) (by decide)

/-- The line with the size of a chunk. -/
theorem ends_sizeStart :
    Ends handle (l.inPhase .sizeStart) s opened x s' line ↔
      ∃ size n rest, x = size ++ rest ∧ SpellsSize n size ∧
        Ends handle (l.inPhase (afterSize n)) s [] rest s' line := by
  have hfirst : Ends handle (l.inPhase .sizeStart) s opened x s' line ↔
      Radix.hexadecimal.First (fun n y ↦ Ends handle (l.inPhase (.size n)) s [] y s' line) x := by
    refine Radix.ends_iff_first rfl (fun {b x} hb ↦ ends_cons_skip ?_) fun {b} hb ↦ ?_
    · simp [step, inPhase, enter, value?_of_isDigit hb]
    · have hvalue : Hexadecimal.value? b.toNat = none := by simpa [Radix.hexadecimal] using hb
      exact ⟨.invalidChunkSize, by simp [step, inPhase, hvalue]⟩
  have hloop : Radix.hexadecimal.First
      (fun n y ↦ Ends handle (l.inPhase (.size n)) s [] y s' line) x ↔
        ∃ digits n rest, x = digits ++ rest ∧ Radix.hexadecimal.Spells UInt64.size n digits ∧
          EndsAfterSize handle l s n rest s' line := by
    refine Radix.loop_iff (by decide) hexadecimal_digit_lt (fun _ ↦ not_ends_nil rfl)
      (fun {n b x} hb ↦ ?_) ends_size_cons stops_of_endsAfterSize
    show _ ↔ 16 * n + Radix.hexadecimal.digit b.toNat < UInt64.size ∧ _
    have hvalue := value?_of_isDigit hb
    refine ends_cons_skip_iff (fun hlt ↦ ?_) fun hlt ↦ ⟨.chunkSizeOverflow, ?_⟩
    · show (l.inPhase (.size n)).step b =
        .ok (l.inPhase (.size (16 * n + Radix.hexadecimal.digit b.toNat)), .skip)
      simp [step, inPhase, enter, hvalue, chunkSizeBound, hlt]
    · simp [step, inPhase, hvalue, chunkSizeBound, hlt]
  rw [hfirst, hloop]
  constructor
  · rintro ⟨digits, n, _, rfl, hdigits, extension, _, rfl, hextension, eol, rest, rfl, heol, hrest⟩
    exact ⟨digits ++ (extension ++ eol), n, rest, by simp, .mk hdigits hextension heol, hrest⟩
  · rintro ⟨_, n, rest, rfl, ⟨hdigits, hextension, heol⟩, hrest⟩
    exact ⟨_, n, _, by simp, hdigits, _, _, rfl, hextension, _, rest, rfl, heol, hrest⟩

/-! ### Data -/

/-- The data of a chunk of which `n + 1` octets are missing. -/
theorem ends_chunkData :
    Ends handle (l.inPhase (.chunkData (n + 1))) s opened x s' line ↔
      ∃ data rest t, x = data ++ rest ∧ data.length = n + 1 ∧
        told? handle s .chunkData (data.reverse ++ opened).reverse = some t ∧
          Ends handle (l.inPhase .dataEnd) t [] rest s' line := by
  induction n generalizing opened x with
  | zero =>
    cases x with
    | nil =>
      refine iff_of_false (not_ends_nil rfl) ?_
      rintro ⟨data, rest, t, hx, hlength, -⟩
      rw [(List.append_eq_nil_iff.1 hx.symm).1] at hlength
      cases hlength
    | cons b x =>
      have hstep : (l.inPhase (.chunkData (0 + 1))).step b =
          .ok (l.inPhase .dataEnd, .complete .chunkData) := rfl
      rw [ends_cons_complete hstep]
      constructor
      · rintro ⟨t, ht, hrest⟩
        exact ⟨[b], x, t, rfl, rfl, ht, hrest⟩
      · rintro ⟨data, rest, t, hx, hlength, ht, hrest⟩
        obtain ⟨d, rfl⟩ := List.length_eq_one_iff.1 hlength
        obtain ⟨rfl, rfl⟩ := List.cons.inj hx
        exact ⟨t, ht, hrest⟩
  | succ n ih =>
    cases x with
    | nil =>
      refine iff_of_false (not_ends_nil rfl) ?_
      rintro ⟨data, rest, t, hx, hlength, -⟩
      rw [(List.append_eq_nil_iff.1 hx.symm).1] at hlength
      cases hlength
    | cons b x =>
      have hstep : (l.inPhase (.chunkData (n + 1 + 1))).step b =
          .ok (l.inPhase (.chunkData (n + 1)), .extend) := by
        simp [step, inPhase, enter]
      rw [ends_cons_extend hstep, ih]
      constructor
      · rintro ⟨data, rest, t, rfl, hlength, ht, hrest⟩
        refine ⟨b :: data, rest, t, rfl, congrArg (· + 1) hlength, ?_, hrest⟩
        simpa using ht
      · rintro ⟨data, rest, t, hx, hlength, ht, hrest⟩
        rcases List.cons_eq_append_iff.1 hx with ⟨rfl, -⟩ | ⟨data, rfl, rfl⟩
        · cases hlength
        · refine ⟨data, rest, t, rfl, Nat.succ.inj hlength, ?_, hrest⟩
          simpa using ht

/-- The line end after the data of a chunk. -/
theorem ends_dataEnd :
    Ends handle (l.inPhase .dataEnd) s [] x s' line ↔
      EndsAfterLine handle (l.inPhase .sizeStart) s x s' line := by
  cases x with
  | nil => exact iff_of_false (not_ends_nil rfl) not_endsAfterLine_nil
  | cons b x =>
    have hk : NeedsLf (l.inPhase .dataLf) (l.inPhase .sizeStart) := fun _ ↦ rfl
    exact ends_cons_lineEnd rfl rfl hk rfl fun hcr hlf ↦
      ⟨.crExpected, by simp [step, inPhase, hcr, hlf]⟩

/-! ### The whole body -/

/-- The state after a handler was told the data of some chunks, if it wants to go on. -/
def tellChunks? (handle : σ → Event → σ × Flow) (s : σ) (chunks : List Octets) : Option σ :=
  chunks.foldlM (fun t data ↦ told? handle t .chunkData data) s

/-- The state after a handler was told the parts of a chunked body, if it wants to go on. -/
def tellChunked? (handle : σ → Event → σ × Flow) (s : σ) (c : RawChunked) : Option σ :=
  (tellChunks? handle s c.chunks).bind fun t ↦ tellLines? handle t c.lines

/-- One chunk, or the last one with the trailer. -/
theorem ends_chunk :
    Ends handle (l.inPhase .sizeStart) s [] x s' line ↔
      (∃ size rest, x = size ++ rest ∧ SpellsSize 0 size ∧
        Ends handle (l.inPhase .fieldStart) s [] rest s' line) ∨
      ∃ size data eol rest t, x = size ++ (data ++ (eol ++ rest)) ∧ data ≠ [] ∧
        SpellsSize data.length size ∧ LineEnd eol ∧ told? handle s .chunkData data = some t ∧
          Ends handle (l.inPhase .sizeStart) t [] rest s' line := by
  rw [ends_sizeStart]
  constructor
  · rintro ⟨size, n, _, rfl, hsize, hrest⟩
    cases n with
    | zero => exact .inl ⟨size, _, rfl, hsize, hrest⟩
    | succ n =>
      obtain ⟨data, _, t, rfl, hlength, ht, hrest⟩ := ends_chunkData.1 hrest
      obtain ⟨eol, rest, rfl, heol, hrest⟩ := ends_dataEnd.1 hrest
      refine .inr ⟨size, data, eol, rest, t, rfl, ?_, hlength ▸ hsize, heol, ?_, hrest⟩
      · rintro rfl
        cases hlength
      · simpa using ht
  · rintro (⟨size, rest, rfl, hsize, hrest⟩ |
      ⟨size, data, eol, rest, t, rfl, hne, hsize, heol, ht, hrest⟩)
    · exact ⟨size, 0, rest, rfl, hsize, hrest⟩
    · obtain ⟨n, hn⟩ := Nat.exists_eq_succ_of_ne_zero (mt List.length_eq_zero_iff.1 hne)
      have hdata : Ends handle (l.inPhase (.chunkData (n + 1))) s [] (data ++ (eol ++ rest)) s'
          line :=
        ends_chunkData.2 ⟨data, eol ++ rest, t, rfl, hn, by simpa using ht,
          ends_dataEnd.2 ⟨eol, rest, rfl, heol, hrest⟩⟩
      refine ⟨size, data.length, _, rfl, hsize, ?_⟩
      rw [hn]
      exact hdata

/-- Chunks lead back to where a chunk can begin. -/
theorem ends_chunks {chunks : List Octets} {y rest : Octets} {t : σ} (h : SpellsChunks chunks y)
    (htell : tellChunks? handle s chunks = some t)
    (hrest : Ends handle (l.inPhase .sizeStart) t [] rest s' line) :
    Ends handle (l.inPhase .sizeStart) s [] (y ++ rest) s' line := by
  induction h generalizing s with
  | nil =>
    obtain rfl : s = t := Option.some.inj htell
    exact hrest
  | @cons data size eol y chunks hne hsize heol _ ih =>
    rw [tellChunks?, List.foldlM_cons] at htell
    obtain ⟨u, hu, htell⟩ := Option.bind_eq_some_iff.1 htell
    exact ends_chunk.2
      (.inr ⟨size, data, eol, y ++ rest, u, by simp, hne, hsize, heol, hu, ih htell⟩)

/-- **The language of chunked bodies.** What leads a lexer of chunked bodies to the end of a body is
a body without its last line feed, and the handler is told the parts of this body. -/
theorem ends_chunked :
    Ends handle (l.inPhase .sizeStart) s [] x s' line ↔
      ∃ c : RawChunked, c.Spells (x ++ [0x0A]) ∧ tellChunked? handle s c = some s' ∧
        l.startLine = line := by
  constructor
  -- A chunk is more than one octet, so the induction is on the length of what is left.
  · intro h
    induction hn : x.length using Nat.strongRecOn generalizing x s with
    | ind n ih =>
    rcases ends_chunk.1 h with ⟨size, _, rfl, hsize, hrest⟩ |
      ⟨size, data, eol, rest, t, rfl, hne, hsize, heol, ht, hrest⟩
    · obtain ⟨lines, fields, tail, rfl, hlines, htail, htell, hline⟩ := ends_headerLines.1 hrest
      refine ⟨⟨[], lines⟩, ?_, htell, hline⟩
      have hspells := RawChunked.Spells.mk (c := ⟨[], lines⟩) .nil hsize hlines htail
      simpa using hspells
    · have hlt : rest.length < n := by
        have := List.length_pos_iff.2 hne
        rw [← hn]
        simp only [List.length_append]
        omega
      obtain ⟨⟨chunks, lines⟩, hspells, htell, hline⟩ := ih _ hlt hrest rfl
      refine ⟨⟨data :: chunks, lines⟩, ?_, ?_, hline⟩
      · have hcons := hspells.cons hne hsize heol
        simpa using hcons
      · rw [tellChunked?, tellChunks?, List.foldlM_cons, ht]
        exact htell
  · rintro ⟨⟨chunks, lines⟩, hspells, htell, hline⟩
    obtain ⟨t, ht, htell⟩ := Option.bind_eq_some_iff.1 htell
    generalize hx : x ++ [0x0A] = z at hspells
    cases hspells with
    | @mk text size fields eol hchunks hsize hlines heol =>
      obtain ⟨tail, rfl⟩ := heol.exists_append_lf
      have hx' : x ++ [0x0A] = (text ++ (size ++ (fields ++ tail))) ++ [0x0A] := by
        rw [hx]
        simp
      obtain rfl := List.append_cancel_right hx'
      have hfields : Ends handle (l.inPhase .fieldStart) t [] (fields ++ tail) s' line :=
        ends_headerLines.2 ⟨lines, fields, tail, rfl, hlines, heol, htell, hline⟩
      exact ends_chunks hchunks ht (ends_chunk.2 (.inl ⟨size, _, rfl, hsize, hfields⟩))

end Lexer

end HttpFraming
