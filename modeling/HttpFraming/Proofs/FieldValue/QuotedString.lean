import HttpFraming.FieldValue.Token
import HttpFraming.Proofs.Text.Ascii

/-!
# The grammar of quoted strings

A quoted string is a sequence of octets, and a backslash in it escapes one octet. The reader that
the grammars above are built from goes by characters, though, and a backslash may stand in front of
a character that takes several octets. The grammar is told here for letters of either kind
(`FieldValue.SpellsQuotedString`), and three readings of it are shown to be one: by characters, by
the octets of the grammar, and by the loop that goes through the octets with an offset.

## Why octets and characters agree

The octets of a character after its first lie outside ASCII, and so does the first, if there is a
second. Neither a mark nor a backslash is there, and whatever is there may stand for itself. So the
one octet that a backslash escapes is followed by octets that need no escape, and a character is
quoted as a whole or not at all. `SpellsQuoted.exists_of_append` and `SpellsQuoted.of_escaped` are
the two places where this is used, for characters without and with a backslash in front.

## The results, and what each rests on

* `quotedString?_eq_some_iff`, reading by characters, rests on the grammar alone.
* `SpellsQuoted.encode` says that what is read by characters is spelled so in octets.
* `quotedContent?_of_encode` is the other direction, and the one with an argument in it: where the
  octets of a text begin with what is quoted, they are cut between characters. The induction is on
  the reader and not on the grammar, because the grammar would offer the octets of one character one
  by one.
* `quotedOctetString?_eq_some_iff` is about the loop, over any octets, whether they spell a text or
  not.
* `takeQuotedString?_eq` puts the last two together: in a text, the loop meets neither of the two
  ends that reading by characters does not have.
-/

namespace HttpFraming.FieldValue

open CharClass

section Grammar

variable {α : Type}

/-- What stands between the marks of a quoted string, behind what it stands for:
`*( qdtext / quoted-pair )`. The letters are told by their code values. -/
inductive SpellsQuoted (code : α → Nat) : List α → List α → Prop
  | nil : SpellsQuoted code [] []
  | plain {c : α} {content body : List α} (qdtext : isQdtext (code c) = true)
    (more : SpellsQuoted code content body) : SpellsQuoted code (c :: content) (c :: body)
  | pair {backslash c : α} {content body : List α} (escape : code backslash = 0x5C)
    (escaped : isQuotedPairChar (code c) = true) (more : SpellsQuoted code content body) :
    SpellsQuoted code (c :: content) (backslash :: c :: body)

/-- A quoted string, behind what it stands for: `DQUOTE *( qdtext / quoted-pair ) DQUOTE`. -/
inductive SpellsQuotedString (code : α → Nat) : List α → List α → Prop
  | mk {opening closing : α} {content body : List α} (opens : code opening = 0x22)
    (closes : code closing = 0x22) (inside : SpellsQuoted code content body) :
    SpellsQuotedString code content (opening :: (body ++ [closing]))

/-- Where no two letters have one code value, both marks are the same. -/
theorem SpellsQuotedString.exists_body {code : α → Nat} {mark : α} {content t : List α}
    (hcode : ∀ {a b}, code a = code b → a = b) (hmark : code mark = 0x22)
    (h : SpellsQuotedString code content t) :
    ∃ body, SpellsQuoted code content body ∧ t = mark :: (body ++ [mark]) := by
  obtain @⟨opening, closing, content, body, opens, closes, inside⟩ := h
  obtain rfl : opening = mark := hcode (opens.trans hmark.symm)
  obtain rfl : closing = opening := hcode (closes.trans hmark.symm)
  exact ⟨body, inside, rfl⟩

end Grammar

variable {c : Char} {s content rest t : List Char}

theorem SpellsQuotedString.exists_chars (h : SpellsQuotedString Char.toNat content t) :
    ∃ body, SpellsQuoted Char.toNat content body ∧ t = '"' :: (body ++ ['"']) :=
  h.exists_body Char.toNat_inj.1 rfl

/-- A quoted string of octets: what is quoted, between two marks. -/
theorem SpellsQuotedString.exists_octets {content t : Octets}
    (h : SpellsQuotedString UInt8.toNat content t) :
    ∃ body, SpellsQuoted UInt8.toNat content body ∧ t = 0x22 :: (body ++ [0x22]) :=
  h.exists_body UInt8.toNat_inj.1 rfl

/-! ### Reading by characters -/

/-- A character that stands for itself is read. -/
theorem quotedContent?_plain (hc : isQdtext c.toNat = true) (s : List Char) :
    quotedContent? (c :: s) = (quotedContent? s).map fun p ↦ (c :: p.1, p.2) := by
  rw [quotedContent?, if_pos hc]
  · rintro rfl
    cases hc
  · rintro d r rfl
    cases hc

/-- A backslash is read together with the character behind it. -/
theorem quotedContent?_pair (hc : isQuotedPairChar c.toNat = true) (s : List Char) :
    quotedContent? ('\\' :: c :: s) = (quotedContent? s).map fun p ↦ (c :: p.1, p.2) := by
  rw [quotedContent?, if_pos hc]

/-- What is quoted is read by characters exactly up to the first mark that is not escaped. -/
theorem quotedContent?_eq_some_iff : quotedContent? s = some (content, rest) ↔
    ∃ body, SpellsQuoted Char.toNat content body ∧ s = body ++ '"' :: rest := by
  constructor
  · intro h
    fun_induction quotedContent? s generalizing content with
    | case1 => cases h
    | case2 s =>
      cases h
      exact ⟨[], .nil, rfl⟩
    | case3 c s hc ih =>
      obtain ⟨⟨content', after⟩, hread, heq⟩ := Option.map_eq_some_iff.1 h
      cases heq
      obtain ⟨body, hbody, rfl⟩ := ih hread
      exact ⟨'\\' :: c :: body, .pair rfl hc hbody, rfl⟩
    | case4 => cases h
    | case5 c s _ _ hc ih =>
      obtain ⟨⟨content', after⟩, hread, heq⟩ := Option.map_eq_some_iff.1 h
      cases heq
      obtain ⟨body, hbody, rfl⟩ := ih hread
      exact ⟨c :: body, .plain hc hbody, rfl⟩
    | case6 => cases h
  · rintro ⟨body, hbody, rfl⟩
    induction hbody with
    | nil => rfl
    | plain hc _ ih => rw [List.cons_append, quotedContent?_plain hc, ih, Option.map_some]
    | @pair backslash c content body hb hc _ ih =>
      obtain rfl : backslash = '\\' := Char.toNat_inj.1 hb
      rw [List.cons_append, List.cons_append, quotedContent?_pair hc, ih, Option.map_some]

/-- **A quoted string is read by characters exactly where the grammar has one.** -/
theorem quotedString?_eq_some_iff : quotedString? s = some (content, rest) ↔
    ∃ t, SpellsQuotedString Char.toNat content t ∧ s = t ++ rest := by
  constructor
  · intro h
    unfold quotedString? at h
    split at h
    · obtain ⟨body, hbody, rfl⟩ := quotedContent?_eq_some_iff.1 h
      exact ⟨'"' :: (body ++ ['"']), .mk rfl rfl hbody, by simp⟩
    · cases h
  · rintro ⟨t, ht, rfl⟩
    obtain ⟨body, hbody, rfl⟩ := ht.exists_chars
    rw [List.cons_append, List.append_assoc]
    exact quotedContent?_eq_some_iff.2 ⟨body, hbody, rfl⟩

/-! ### Reading by octets -/

section Octets

variable {x y content body rest inside collected : Octets} {b : UInt8} {place stop : Nat}

/-- Whatever lies outside ASCII stands for itself. -/
theorem isQdtext_of_isObsText (n : Nat) (h : isObsText n = true) : isQdtext n = true := by
  simp [isQdtext, h]

theorem isQuotedPairChar_of_isObsText (n : Nat) (h : isObsText n = true) :
    isQuotedPairChar n = true := by
  simp [isQuotedPairChar, h]

/-- A character stands for itself if its octets do. -/
theorem only_isQdtext_encodeChar {c : Char} (hc : isQdtext c.toNat = true) :
    Only isQdtext (String.utf8EncodeChar c) := by
  obtain ⟨b, tail, hchar, htail, hb⟩ := Utf8.exists_encodeChar_eq_cons c
  rw [hchar, only_cons, hb _ isQdtext_of_isObsText]
  exact ⟨hc, htail.imp isQdtext_of_isObsText⟩

/-- Octets that stand for themselves may stand in front of what is quoted. -/
theorem SpellsQuoted.append_plain (h : SpellsQuoted UInt8.toNat content body)
    (hx : Only isQdtext x) : SpellsQuoted UInt8.toNat (x ++ content) (x ++ body) := by
  induction x with
  | nil => exact h
  | cons b x ih => exact .plain (only_cons.1 hx).1 (ih (only_cons.1 hx).2)

/-- What is read by characters is spelled so in octets. -/
theorem SpellsQuoted.encode {content body : List Char} (h : SpellsQuoted Char.toNat content body) :
    SpellsQuoted UInt8.toNat (Utf8.encode (String.ofList content))
      (Utf8.encode (String.ofList body)) := by
  induction h with
  | nil => exact .nil
  | plain hc _ ih =>
    rw [Utf8.encode_ofList_cons, Utf8.encode_ofList_cons]
    exact ih.append_plain (only_isQdtext_encodeChar hc)
  | @pair backslash c content body hbackslash hc _ ih =>
    obtain rfl : backslash = '\\' := Char.toNat_inj.1 hbackslash
    obtain ⟨b, tail, hchar, htail, hb⟩ := Utf8.exists_encodeChar_eq_cons c
    rw [Utf8.encode_ofList_cons, Utf8.encode_ofList_cons, Utf8.encode_ofList_cons, hchar]
    refine .pair rfl ?_ (ih.append_plain (htail.imp isQdtext_of_isObsText))
    rw [hb _ isQuotedPairChar_of_isObsText]
    exact hc

/-- What an octet can be inside a quoted string: the mark that ends it, an octet that stands for
itself, or a backslash. -/
theorem SpellsQuoted.cases_of_cons {b : UInt8} (h : SpellsQuoted UInt8.toNat content body)
    (heq : b :: x = body ++ 0x22 :: rest) :
    (b = 0x22 ∧ content = [] ∧ x = rest) ∨
    (isQdtext b.toNat = true ∧ ∃ content' body', content = b :: content' ∧
      SpellsQuoted UInt8.toNat content' body' ∧ x = body' ++ 0x22 :: rest) ∨
    (b = 0x5C ∧ ∃ d content' body', isQuotedPairChar d.toNat = true ∧ content = d :: content' ∧
      SpellsQuoted UInt8.toNat content' body' ∧ x = d :: (body' ++ 0x22 :: rest)) := by
  cases h with
  | nil =>
    obtain ⟨rfl, rfl⟩ := List.cons.inj heq
    exact .inl ⟨rfl, rfl, rfl⟩
  | plain hb more =>
    obtain ⟨rfl, rfl⟩ := List.cons.inj heq
    exact .inr (.inl ⟨hb, _, _, rfl, more, rfl⟩)
  | pair escape hd more =>
    obtain ⟨rfl, rfl⟩ := List.cons.inj heq
    exact .inr (.inr ⟨UInt8.toNat_inj.1 escape, _, _, _, hd, rfl, more, rfl⟩)

/-- Octets that stand for themselves belong to what is quoted, if they stand in front of its end. -/
theorem SpellsQuoted.exists_of_append (h : SpellsQuoted UInt8.toNat content body)
    (hx : Only isQdtext x) (heq : x ++ y = body ++ 0x22 :: rest) :
    ∃ content' body', content = x ++ content' ∧ SpellsQuoted UInt8.toNat content' body' ∧
      y = body' ++ 0x22 :: rest := by
  induction x generalizing content body with
  | nil => exact ⟨content, body, rfl, h, heq⟩
  | cons b x ih =>
    obtain ⟨hb, hx⟩ := only_cons.1 hx
    rcases h.cases_of_cons heq with ⟨rfl, -, -⟩ | ⟨-, content', body', rfl, hbody, heq'⟩ | ⟨rfl, -⟩
    · cases hb
    · obtain ⟨content'', body'', rfl, hbody', hy⟩ := ih hbody hx heq'
      exact ⟨content'', body'', rfl, hbody', hy⟩
    · cases hb

/-- After a backslash, what is quoted goes on with a whole character. -/
theorem SpellsQuoted.of_escaped {c : Char} {s : List Char}
    (h : SpellsQuoted UInt8.toNat content body)
    (hs : Utf8.encode (String.ofList ('\\' :: c :: s)) = body ++ 0x22 :: rest) :
    isQuotedPairChar c.toNat = true ∧ ∃ content' body',
      content = String.utf8EncodeChar c ++ content' ∧ SpellsQuoted UInt8.toNat content' body' ∧
        Utf8.encode (String.ofList s) = body' ++ 0x22 :: rest := by
  obtain ⟨b, tail, hchar, htail, hclass⟩ := Utf8.exists_encodeChar_eq_cons c
  rw [Utf8.encode_ofList_cons, Utf8.encode_ofList_cons, hchar] at hs
  have hoctets : 0x5C :: b :: (tail ++ Utf8.encode (String.ofList s)) = body ++ 0x22 :: rest := hs
  rcases h.cases_of_cons hoctets with
    ⟨hb, -⟩ | ⟨hb, -⟩ | ⟨-, d, content', body', hd, rfl, hbody, heq⟩
  · cases hb
  · cases hb
  · -- The octets of the character after the first are not escaped, and need not be.
    obtain ⟨rfl, htail'⟩ := List.cons.inj heq
    obtain ⟨content'', body'', rfl, hbody', hs'⟩ :=
      hbody.exists_of_append (htail.imp isQdtext_of_isObsText) htail'
    rw [hclass _ isQuotedPairChar_of_isObsText] at hd
    exact ⟨hd, content'', body'', by rw [hchar, List.cons_append], hbody', hs'⟩

/-- A character that cannot stand for itself is the mark, or a backslash with something behind. -/
theorem SpellsQuoted.of_not_isQdtext {c : Char} {s : List Char}
    (h : SpellsQuoted UInt8.toNat content body)
    (hs : Utf8.encode (String.ofList (c :: s)) = body ++ 0x22 :: rest)
    (hc : ¬ isQdtext c.toNat = true) : c = '"' ∨ c = '\\' ∧ s ≠ [] := by
  -- Outside ASCII every character stands for itself, so this one is a single octet.
  have hlt : c.toNat < 0x80 :=
    Nat.not_le.1 fun hle ↦ hc (isQdtext_of_isObsText _ (decide_eq_true hle))
  have hb : (UInt8.ofNat c.toNat).toNat = c.toNat := by
    rw [UInt8.toNat_ofNat']
    omega
  rw [Utf8.encode_ofList_cons, Utf8.encodeChar_of_lt hlt] at hs
  rcases h.cases_of_cons hs with ⟨hmark, -⟩ | ⟨hqdtext, -⟩ | ⟨hescape, d, _, _, -, -, -, heq⟩
  · rw [hmark] at hb
    exact .inl (Char.toNat_inj.1 hb.symm)
  · rw [hb] at hqdtext
    exact absurd hqdtext hc
  · rw [hescape] at hb
    refine .inr ⟨Char.toNat_inj.1 hb.symm, ?_⟩
    rintro rfl
    cases heq

/-- **A text whose octets begin with what is quoted is cut between characters**, and what is quoted
stands for a text. -/
theorem quotedContent?_of_encode {s : List Char} (h : SpellsQuoted UInt8.toNat content body)
    (hs : Utf8.encode (String.ofList s) = body ++ 0x22 :: rest) :
    ∃ v r : List Char, quotedContent? s = some (v, r) ∧
      Utf8.encode (String.ofList v) = content ∧ Utf8.encode (String.ofList r) = rest := by
  fun_induction quotedContent? s generalizing content body with
  | case1 => simp at hs
  | case2 s =>
    rw [Utf8.encode_ofList_cons] at hs
    rcases h.cases_of_cons hs with ⟨-, rfl, hrest⟩ | ⟨hb, -⟩ | ⟨hb, -⟩
    · exact ⟨[], s, rfl, rfl, hrest⟩
    · cases hb
    · cases hb
  | case3 c s hc ih =>
    obtain ⟨-, content', body', rfl, hbody, hs'⟩ := h.of_escaped hs
    obtain ⟨v, r, hread, rfl, rfl⟩ := ih hbody hs'
    exact ⟨c :: v, r, by rw [hread, Option.map_some], Utf8.encode_ofList_cons c v, rfl⟩
  | case4 c s hc => exact absurd (h.of_escaped hs).1 hc
  | case5 c s _ _ hc ih =>
    rw [Utf8.encode_ofList_cons] at hs
    obtain ⟨content', body', rfl, hbody, hs'⟩ := h.exists_of_append (only_isQdtext_encodeChar hc) hs
    obtain ⟨v, r, hread, rfl, rfl⟩ := ih hbody hs'
    exact ⟨c :: v, r, by rw [hread, Option.map_some], Utf8.encode_ofList_cons c v, rfl⟩
  -- A character that is read in no way: the octets of a quoted string do not begin with it.
  | case6 c s hmark hescape hc =>
    rcases h.of_not_isQdtext hs hc with hc | ⟨hc, hne⟩
    · exact absurd hc hmark
    · obtain ⟨d, s, rfl⟩ := List.exists_cons_of_ne_nil hne
      exact absurd rfl (hescape d s hc)

/-- A quoted string of characters is one of octets. -/
theorem SpellsQuotedString.encode {content t : List Char}
    (h : SpellsQuotedString Char.toNat content t) :
    SpellsQuotedString UInt8.toNat (Utf8.encode (String.ofList content))
      (Utf8.encode (String.ofList t)) := by
  obtain ⟨body, hbody, rfl⟩ := h.exists_chars
  rw [Utf8.encode_ofList_cons, String.ofList_append, Utf8.encode_append]
  exact .mk rfl rfl hbody.encode

/-- Where the octets of a text begin with a quoted string, it is read. -/
theorem quotedString?_of_encode {t : Octets} {s : List Char}
    (h : SpellsQuotedString UInt8.toNat content t)
    (hs : Utf8.encode (String.ofList s) = t ++ rest) : ∃ v r : List Char,
      quotedString? s = some (v, r) ∧ Utf8.encode (String.ofList v) = content ∧
        Utf8.encode (String.ofList r) = rest := by
  obtain ⟨body, hbody, rfl⟩ := h.exists_octets
  rw [List.cons_append, List.append_assoc] at hs
  cases s with
  | nil => simp at hs
  | cons c s =>
    obtain ⟨b, tail, hchar, -⟩ := Utf8.exists_encodeChar_eq_cons c
    rw [Utf8.encode_ofList_cons, hchar] at hs
    obtain ⟨rfl, hbody'⟩ := List.cons.inj hs
    obtain ⟨hc, rfl⟩ := Utf8.of_encodeChar_eq_cons hchar (by decide)
    obtain rfl : c = '"' := Char.toNat_inj.1 hc
    exact quotedContent?_of_encode hbody hbody'

/-- **A quoted string is read by characters exactly where the octets of a text begin with one.** -/
theorem quotedString?_iff_octets {s v r : List Char} : quotedString? s = some (v, r) ↔
    ∃ t, SpellsQuotedString UInt8.toNat (Utf8.encode (String.ofList v)) t ∧
      Utf8.encode (String.ofList s) = t ++ Utf8.encode (String.ofList r) := by
  constructor
  · intro h
    obtain ⟨t, ht, rfl⟩ := quotedString?_eq_some_iff.1 h
    exact ⟨_, ht.encode, by rw [String.ofList_append, Utf8.encode_append]⟩
  · rintro ⟨t, ht, hs⟩
    obtain ⟨v', r', h, hv, hr⟩ := quotedString?_of_encode ht hs
    rw [h, String.ofList_injective (Utf8.encode_inj hv),
      String.ofList_injective (Utf8.encode_inj hr)]

/-- Nothing is read by characters exactly where the octets begin with no quoted string. -/
theorem quotedString?_eq_none_iff {s : List Char} : quotedString? s = none ↔
    ¬ ∃ content t rest, SpellsQuotedString UInt8.toNat content t ∧
      Utf8.encode (String.ofList s) = t ++ rest := by
  rw [Option.eq_none_iff_forall_ne_some]
  constructor
  · rintro hnone ⟨content, t, rest, ht, hs⟩
    obtain ⟨v, r, h, -⟩ := quotedString?_of_encode ht hs
    exact hnone (v, r) h
  · rintro hno ⟨v, r⟩ h
    obtain ⟨t, ht, hs⟩ := quotedString?_iff_octets.1 h
    exact hno ⟨_, t, _, ht, hs⟩

/-! ### The loop over octets -/

/-- One round of the loop, at an octet that is there. -/
theorem quotedOctets?_of_some (h : x[place]? = some b) : quotedOctets? x place collected =
    if b = 0x22 then some (collected, place + 1)
    else if b = 0x5C then
      (x[place + 1]?).bind fun escaped ↦
        if isQuotedPairChar escaped.toNat then quotedOctets? x (place + 2) (collected ++ [escaped])
        else none
    else if isQdtext b.toNat then quotedOctets? x (place + 1) (collected ++ [b])
    else none := by
  rw [quotedOctets?]
  split
  · rename_i heq
    cases h.symm.trans heq
  · rename_i heq
    cases h.symm.trans heq
    cases x[place + 1]? <;> rfl

/-- To stand in front of an octet is to find it at the offset. -/
theorem drop_eq_cons_iff : x.drop place = b :: y ↔ x[place]? = some b ∧ x.drop (place + 1) = y := by
  constructor
  · intro h
    have hhead : (x.drop place)[0]? = some b := by rw [h, List.getElem?_cons_zero]
    rw [List.getElem?_drop] at hhead
    rw [← List.drop_drop, h]
    exact ⟨hhead, rfl⟩
  · rintro ⟨hb, rfl⟩
    obtain ⟨hplace, rfl⟩ := List.getElem?_eq_some_iff.1 hb
    exact List.drop_eq_getElem_cons hplace

/-- What the loop collects is quoted by the grammar, and it stops behind the mark that ends it. -/
theorem exists_spellsQuoted_of_quotedOctets?
    (h : quotedOctets? x place collected = some (content, stop)) :
    ∃ inside body, SpellsQuoted UInt8.toNat inside body ∧ content = collected ++ inside ∧
      x.drop place = body ++ 0x22 :: x.drop stop ∧ stop = place + (body.length + 1) := by
  fun_induction quotedOctets? x place collected with
  | case1 => cases h
  | case2 place collected hmark =>
    cases h
    exact ⟨[], [], .nil, (List.append_nil _).symm, drop_eq_cons_iff.2 ⟨hmark, rfl⟩, rfl⟩
  | case3 => cases h
  | case4 place collected c hc hpair hescape _ ih =>
    obtain ⟨inside, body, hbody, rfl, hdrop, rfl⟩ := ih h
    have hrest := drop_eq_cons_iff.2 ⟨hescape, drop_eq_cons_iff.2 ⟨hc, hdrop⟩⟩
    exact ⟨c :: inside, 0x5C :: c :: body, .pair rfl hpair hbody, List.append_assoc _ _ _, hrest,
      by rw [List.length_cons, List.length_cons]; omega⟩
  | case5 => cases h
  | case6 place collected b hb _ _ hqdtext ih =>
    obtain ⟨inside, body, hbody, rfl, hdrop, rfl⟩ := ih h
    exact ⟨b :: inside, b :: body, .plain hqdtext hbody, List.append_assoc _ _ _,
      drop_eq_cons_iff.2 ⟨hb, hdrop⟩, by rw [List.length_cons]; omega⟩
  | case7 => cases h

/-- What the grammar quotes is collected by the loop. -/
theorem SpellsQuoted.quotedOctets?_eq (h : SpellsQuoted UInt8.toNat inside body)
    (hdrop : x.drop place = body ++ 0x22 :: rest) : quotedOctets? x place collected =
      some (collected ++ inside, place + (body.length + 1)) := by
  induction h generalizing place collected with
  | nil =>
    obtain ⟨hmark, -⟩ := drop_eq_cons_iff.1 hdrop
    rw [quotedOctets?_of_some hmark, if_pos rfl, List.append_nil]
    rfl
  | @plain b inside body hqdtext _ ih =>
    obtain ⟨hb, hdrop'⟩ := drop_eq_cons_iff.1 hdrop
    have hmark : b ≠ 0x22 := by rintro rfl; cases hqdtext
    have hescape : b ≠ 0x5C := by rintro rfl; cases hqdtext
    rw [quotedOctets?_of_some hb, if_neg hmark, if_neg hescape, if_pos hqdtext, ih hdrop',
      List.append_assoc, List.length_cons, Nat.add_assoc, Nat.add_comm 1]
    rfl
  | @pair backslash c inside body hescape hpair _ ih =>
    obtain rfl : backslash = 0x5C := UInt8.toNat_inj.1 hescape
    obtain ⟨hb, hdrop'⟩ := drop_eq_cons_iff.1 hdrop
    obtain ⟨hc, hdrop''⟩ := drop_eq_cons_iff.1 hdrop'
    rw [quotedOctets?_of_some hb, if_neg (by decide), if_pos rfl, hc, Option.bind_some,
      if_pos hpair, ih hdrop'', List.append_assoc, List.length_cons, List.length_cons]
    exact congrArg some (Prod.ext rfl (by omega))

/-- **The loop over octets reads a quoted string exactly where the grammar has one**, and then
stands right behind it. -/
theorem quotedOctetString?_eq_some_iff : quotedOctetString? x = some (content, stop) ↔
    ∃ t rest, SpellsQuotedString UInt8.toNat content t ∧ x = t ++ rest ∧ stop = t.length := by
  constructor
  · intro h
    unfold quotedOctetString? at h
    split at h
    · rename_i hhead
      obtain ⟨x, rfl⟩ := List.head?_eq_some_iff.1 hhead
      obtain ⟨inside, body, hbody, rfl, hdrop, rfl⟩ := exists_spellsQuoted_of_quotedOctets? h
      refine ⟨0x22 :: (body ++ [0x22]), x.drop (body.length + 1), .mk rfl rfl hbody, ?_, ?_⟩
      · rw [Nat.add_comm 1, List.drop_succ_cons, List.drop_succ_cons, List.drop_zero] at hdrop
        rw [List.cons_append, List.append_assoc]
        exact congrArg (List.cons 0x22) hdrop
      · rw [List.length_cons, List.length_append, List.length_singleton, Nat.add_comm]
    · cases h
  · rintro ⟨t, rest, ht, rfl, rfl⟩
    obtain ⟨body, hbody, rfl⟩ := ht.exists_octets
    have hdrop : (0x22 :: (body ++ [0x22]) ++ rest).drop 1 = body ++ 0x22 :: rest := by
      rw [List.cons_append, List.drop_succ_cons, List.append_assoc]
      rfl
    rw [quotedOctetString?, if_pos (by rfl), hbody.quotedOctets?_eq hdrop, List.nil_append,
      List.length_cons, List.length_append, List.length_singleton, Nat.add_comm]

/-- Where the grammar has no quoted string, the loop comes to nothing. -/
theorem quotedOctetString?_eq_none_iff : quotedOctetString? x = none ↔
    ¬ ∃ content t rest, SpellsQuotedString UInt8.toNat content t ∧ x = t ++ rest := by
  rw [Option.eq_none_iff_forall_ne_some]
  constructor
  · rintro hnone ⟨content, t, rest, ht, hx⟩
    exact hnone (content, t.length) (quotedOctetString?_eq_some_iff.2 ⟨t, rest, ht, hx, rfl⟩)
  · rintro hno ⟨content, stop⟩ h
    obtain ⟨t, rest, ht, hx, -⟩ := quotedOctetString?_eq_some_iff.1 h
    exact hno ⟨content, t, rest, ht, hx⟩

/-- A text can be cut behind the octets of a text in front of it. -/
theorem dropOctets?_of_encode {s r : String} {t : Octets} (h : Utf8.encode s = t ++ Utf8.encode r) :
    dropOctets? s t.length = some r := by
  have hle : t.length ≤ (Utf8.encode s).length := by
    rw [h, List.length_append]
    exact Nat.le_add_right _ _
  rw [dropOctets?, if_pos hle, h, List.drop_left, Utf8.decode?_encode]

/-- **What the loop over octets comes to in a text**: what it has collected is a text, and so is
what it leaves, cut at the offset it has come to; and both are what is read by characters. -/
theorem exists_of_quotedOctetString? {s : String}
    (h : quotedOctetString? (Utf8.encode s) = some (content, stop)) :
    ∃ v r : String, Utf8.decode? content = some v ∧ dropOctets? s stop = some r ∧
      quotedString? s.toList = some (v.toList, r.toList) := by
  obtain ⟨t, rest, ht, hs, rfl⟩ := quotedOctetString?_eq_some_iff.1 h
  have hs' := hs
  rw [← String.ofList_toList (s := s)] at hs'
  obtain ⟨v, r, hread, rfl, rfl⟩ := quotedString?_of_encode ht hs'
  refine ⟨String.ofList v, String.ofList r, Utf8.decode?_encode _, dropOctets?_of_encode hs, ?_⟩
  rw [hread, String.toList_ofList, String.toList_ofList]

/-- **Reading by octets is reading by characters.** The conversion does not fail, and no cut falls
inside a character, so that the cursor always comes to stand somewhere. -/
theorem takeQuotedString?_eq (s : String) : takeQuotedString? s =
    some ((advance quotedString? s.toList).1.map String.ofList,
      String.ofList (advance quotedString? s.toList).2) := by
  unfold takeQuotedString?
  split
  · rename_i hnone
    have hchars : quotedString? s.toList = none := by
      rw [quotedString?_eq_none_iff, String.ofList_toList]
      exact quotedOctetString?_eq_none_iff.1 hnone
    rw [advance_eq_none_iff.2 hchars, String.ofList_toList]
    rfl
  · rename_i collected place hsome
    obtain ⟨v, r, hv, hr, hread⟩ := exists_of_quotedOctetString? hsome
    simp only [hv, hr, Option.map_some, advance_eq_some_iff.2 hread, String.ofList_toList]

end Octets

/-- **Quoted strings are read where the octets of a text begin with one**, up to the first mark that
is not escaped. The octets that a string stands for always are a text, and so are those that are
left; where no quoted string begins, the reader stays in its place. So the loop over octets comes to
just what is read by characters: the octets it collects can be made a text of, and the offset it
stops at never lies inside a character. -/
theorem advance_quotedString?_iff (s : String) :
    (∀ v r : String, advance quotedString? s.toList = (some v.toList, r.toList) ↔
      ∃ t, SpellsQuotedString UInt8.toNat (Utf8.encode v) t ∧
        Utf8.encode s = t ++ Utf8.encode r) ∧
    (∀ content t rest, SpellsQuotedString UInt8.toNat content t → Utf8.encode s = t ++ rest →
      ∃ v r : String, Utf8.decode? content = some v ∧ Utf8.decode? rest = some r) ∧
    (advance quotedString? s.toList = (none, s.toList) ↔
      ¬ ∃ content t rest, SpellsQuotedString UInt8.toNat content t ∧ Utf8.encode s = t ++ rest) ∧
    (∀ content place, quotedOctetString? (Utf8.encode s) = some (content, place) →
      ∃ v r : String, Utf8.decode? content = some v ∧ dropOctets? s place = some r ∧
        advance quotedString? s.toList = (some v.toList, r.toList)) ∧
    takeQuotedString? s = some ((advance quotedString? s.toList).1.map String.ofList,
      String.ofList (advance quotedString? s.toList).2) := by
  refine ⟨fun v r ↦ ?_, fun content t rest ht hs ↦ ?_, ?_, fun content place hloop ↦ ?_,
    takeQuotedString?_eq s⟩
  · rw [advance_eq_some_iff, quotedString?_iff_octets]
    simp only [String.ofList_toList]
  · rw [← String.ofList_toList (s := s)] at hs
    obtain ⟨v, r, -, hv, hr⟩ := quotedString?_of_encode ht hs
    exact ⟨_, _, Utf8.decode?_eq_some_iff.2 hv, Utf8.decode?_eq_some_iff.2 hr⟩
  · rw [advance_eq_none_iff, quotedString?_eq_none_iff, String.ofList_toList]
  · obtain ⟨v, r, hv, hr, hread⟩ := exists_of_quotedOctetString? hloop
    exact ⟨v, r, hv, hr, advance_eq_some_iff.2 hread⟩

example : quotedString? "\"\\é\\\"\" rest".toList = some ("é\"".toList, " rest".toList) := by
  decide +kernel

end HttpFraming.FieldValue
