import HttpFraming.FieldValue.ExtensionList
import HttpFraming.Proofs.FieldValue.QuotedString
import HttpFraming.Proofs.FieldValue.TokenList

/-!
# The grammar of extension lists

An extension is a token with parameters, and the value of a parameter may be a quoted string, in
which commas, semicolons and equals signs mean nothing. The blanks after an extension are not known
to precede a semicolon until one is found; where none is, they belong to the list
(`Extension.readParameters?_append`). So extensions are elements that a reader can find, and header
values are read as extension lists exactly where the grammar has them
(`ExtensionList.parse?_iff_spellsExtensions`).

## From the inside out

There is one relation for each rule of the grammar, and one pair of lemmas for each reader: what is
read is spelled so, and what is spelled so is read. The second of each pair has to know what
follows, and the condition becomes weaker from the inside out.

* A value that is a token must not be followed by a character of a token. One that is a quoted
  string ends with its mark, whatever follows.
* A parameter ends with its value, and asks the same of what follows.
* Parameters may be followed by anything that a list can go on with (`Closes`). They are read as
  long as a semicolon is found behind blanks, so that the end of the element is where no semicolon
  is.

`reads_element` puts them together, and the list itself is then the one of any elements.
-/

namespace HttpFraming

open CharClass FieldValue

namespace FieldValue

/-! ### The grammar -/

/-- The value of a parameter: `token / quoted-string`. -/
inductive SpellsValue : String → List Char → Prop
  | token {value : String} {t : List Char} (token : IsToken value t) : SpellsValue value t
  | quoted {content t : List Char} (string : SpellsQuotedString Char.toNat content t) :
    SpellsValue (String.ofList content) t

/-- A parameter: `token OWS "=" OWS ( token / quoted-string )`. -/
inductive SpellsParameter : ExtensionParameter → List Char → Prop
  | mk {name value : String} {t blanks blanks' u : List Char} (token : IsToken name t)
    (blank : IsBlank blanks) (blank' : IsBlank blanks') (spells : SpellsValue value u) :
    SpellsParameter ⟨name, value⟩ (t ++ (blanks ++ '=' :: (blanks' ++ u)))

/-- The parameters after the name of an extension: `*( OWS ";" OWS parameter )`. -/
inductive SpellsParameters : List ExtensionParameter → List Char → Prop
  | nil : SpellsParameters [] []
  | cons {p : ExtensionParameter} {ps : List ExtensionParameter} {blanks blanks' t s : List Char}
    (blank : IsBlank blanks) (blank' : IsBlank blanks') (parameter : SpellsParameter p t)
    (more : SpellsParameters ps s) :
    SpellsParameters (p :: ps) (blanks ++ ';' :: (blanks' ++ (t ++ s)))

/-- An extension: a token and its parameters. -/
inductive SpellsExtension : Extension → List Char → Prop
  | mk {name : String} {ps : List ExtensionParameter} {t s : List Char} (token : IsToken name t)
    (parameters : SpellsParameters ps s) : SpellsExtension ⟨name, ps⟩ (t ++ s)

variable {blanks s t : List Char} {value : String} {p : ExtensionParameter}

/-- Where blanks and a separator follow, a token has ended. -/
theorem IsBlank.isTchar_eq_false {c : Char} (hblank : IsBlank blanks)
    (hc : isTchar c.toNat = false) :
    ∀ d ∈ (blanks ++ c :: s).head?, isTchar d.toNat = false := by
  intro d hd
  cases blanks with
  | nil =>
    obtain rfl : c = d := Option.some.inj hd
    exact hc
  | cons b blanks =>
    obtain rfl : b = d := Option.some.inj hd
    refine Bool.eq_false_iff.2 fun htchar ↦ ?_
    have hb := hblank b List.mem_cons_self
    rw [isWhitespace_of_isTchar htchar] at hb
    cases hb

/-- The value of a parameter does not begin with a blank. -/
theorem SpellsValue.skipWhitespace_append (h : SpellsValue value t) (s : List Char) :
    skipWhitespace (t ++ s) = t ++ s := by
  cases h with
  | token ht => exact ht.skipWhitespace_append s
  | quoted ht =>
    obtain ⟨body, -, rfl⟩ := ht.exists_chars
    exact skipWhitespace_cons_of_not rfl _

/-- Nor does a parameter, which begins with a token. -/
theorem SpellsParameter.skipWhitespace_append (h : SpellsParameter p t) (s : List Char) :
    skipWhitespace (t ++ s) = t ++ s := by
  obtain @⟨name, value, t, blanks, blanks', u, ht, -⟩ := h
  rw [List.append_assoc]
  exact ht.skipWhitespace_append _

end FieldValue

variable {rest s t left : List Char} {value : String} {p : ExtensionParameter}
  {ps : List ExtensionParameter}

/-! ### Parameters -/

namespace ExtensionParameter

/-- What is read as a value is one, in front of what is left. -/
theorem spellsValue_of_value? {v : List Char} (h : value? s = some (v, rest)) :
    ∃ t, SpellsValue (String.ofList v) t ∧ s = t ++ rest := by
  unfold value? at h
  split at h
  · obtain ⟨t, ht, hs⟩ := quotedString?_eq_some_iff.1 h
    exact ⟨t, .quoted ht, hs⟩
  · obtain ⟨ht, hs⟩ := isToken_of_token? h
    exact ⟨v, .token ht, hs⟩

/-- A value is read where no character of a token follows. -/
theorem value?_append (h : SpellsValue value t)
    (hrest : ∀ c ∈ rest.head?, isTchar c.toNat = false) :
    value? (t ++ rest) = some (value.toList, rest) := by
  cases h with
  | token ht =>
    obtain ⟨c, r, rfl, hc⟩ := ht.exists_cons
    obtain ⟨hne, hall, rfl⟩ := ht
    have hread : token? (c :: r ++ rest) = some (c :: r, rest) := token?_append hne hall hrest
    rw [List.cons_append] at hread ⊢
    rw [String.toList_ofList, ← hread, value?]
    rintro _ ⟨⟩
    cases hc
  | @quoted content _ ht =>
    have hread : quotedString? (t ++ rest) = some (content, rest) :=
      quotedString?_eq_some_iff.2 ⟨t, ht, rfl⟩
    obtain ⟨body, -, rfl⟩ := ht.exists_chars
    rw [String.toList_ofList, ← hread, List.cons_append, value?]

/-- What is read as a parameter is one, in front of what is left. -/
theorem spellsParameter_of_read? (h : read? s = some (p, rest)) :
    ∃ t, SpellsParameter p t ∧ s = t ++ rest := by
  unfold read? at h
  split at h
  · cases h
  · rename_i name afterName hname
    split at h
    · rename_i afterSign hsign
      obtain ⟨⟨v, after⟩, hvalue, heq⟩ := Option.map_eq_some_iff.1 h
      cases heq
      obtain ⟨htoken, rfl⟩ := isToken_of_token? hname
      obtain ⟨blanks, hblank, hs⟩ := exists_blank_append_skipWhitespace afterName
      obtain ⟨blanks', hblank', hs'⟩ := exists_blank_append_skipWhitespace afterSign
      obtain ⟨t, ht, hv⟩ := spellsValue_of_value? hvalue
      refine ⟨_, .mk htoken hblank hblank' ht, ?_⟩
      rw [hs, hsign, hs', hv]
      simp
    · cases h

/-- A parameter is read where no character of a token follows. -/
theorem read?_append (h : SpellsParameter p t) (hrest : ∀ c ∈ rest.head?, isTchar c.toNat = false) :
    read? (t ++ rest) = some (p, rest) := by
  obtain @⟨name, value, t, blanks, blanks', u, ht, hblank, hblank', hu⟩ := h
  obtain ⟨hne, hall, rfl⟩ := ht
  have hname : token? (t ++ (blanks ++ '=' :: (blanks' ++ (u ++ rest)))) =
      some (t, blanks ++ '=' :: (blanks' ++ (u ++ rest))) :=
    token?_append hne hall (hblank.isTchar_eq_false rfl)
  have hsign : skipWhitespace (blanks ++ '=' :: (blanks' ++ (u ++ rest))) =
      '=' :: (blanks' ++ (u ++ rest)) := by
    rw [skipWhitespace_append hblank, skipWhitespace_cons_of_not rfl]
  have hvalue : skipWhitespace (blanks' ++ (u ++ rest)) = u ++ rest := by
    rw [skipWhitespace_append hblank', hu.skipWhitespace_append]
  simp only [List.append_assoc, List.cons_append, read?, hname, hsign, hvalue,
    value?_append hu hrest, Option.map_some, String.ofList_toList]

end ExtensionParameter

/-! ### Extensions -/

namespace Extension

/-- Behind a semicolon one parameter is read, and then all others. -/
theorem readParameters?_of_semicolon (h : skipWhitespace s = ';' :: rest)
    (hread : ExtensionParameter.read? (skipWhitespace rest) = some (p, left)) :
    readParameters? s = (readParameters? left).map fun q ↦ (p :: q.1, q.2) := by
  rw [readParameters?]
  split
  · rename_i rest' hs
    cases h.symm.trans hs
    split
    · cases hread.symm.trans ‹_›
    · cases hread.symm.trans ‹_›
      rfl
  · exact absurd h (‹∀ rest, skipWhitespace s = ';' :: rest → False› rest)

/-- Without a semicolon there are no more parameters, and the blanks are left. -/
theorem readParameters?_of_ne (h : ∀ rest, skipWhitespace s ≠ ';' :: rest) :
    readParameters? s = some ([], s) := by
  rw [readParameters?]
  split
  · exact absurd ‹_› (h _)
  · rfl

/-- What is read as parameters are some, in front of what is left. -/
theorem spellsParameters_of_readParameters? (h : readParameters? s = some (ps, left)) :
    ∃ t, SpellsParameters ps t ∧ s = t ++ left := by
  fun_induction readParameters? s generalizing ps with
  | case1 => cases h
  | case2 s rest hs p after hp ih =>
    obtain ⟨⟨qs, l⟩, hq, heq⟩ := Option.map_eq_some_iff.1 h
    cases heq
    obtain ⟨blanks, hblank, hs'⟩ := exists_blank_append_skipWhitespace s
    obtain ⟨blanks', hblank', hrest⟩ := exists_blank_append_skipWhitespace rest
    obtain ⟨t, ht, hp'⟩ := ExtensionParameter.spellsParameter_of_read? hp
    obtain ⟨u, hu, hafter⟩ := ih hq
    refine ⟨_, .cons hblank hblank' ht hu, ?_⟩
    rw [hs', hs, hrest, hp', hafter]
    simp
  | case3 s hs =>
    cases h
    exact ⟨[], .nil, rfl⟩

/-- No character of a token follows a token in front of parameters, or of the end of an element. -/
theorem isTchar_eq_false_of_spellsParameters (h : SpellsParameters ps t) (hrest : Closes rest) :
    ∀ c ∈ (t ++ rest).head?, isTchar c.toNat = false := by
  cases h with
  | nil => exact hrest.isTchar_eq_false
  | cons hblank =>
    rw [List.append_assoc, List.cons_append]
    exact hblank.isTchar_eq_false rfl

/-- Parameters are read as far as they go, and the blanks that follow are left. -/
theorem readParameters?_append (h : SpellsParameters ps t) (hrest : Closes rest) :
    readParameters? (t ++ rest) = some (ps, rest) := by
  induction h with
  | nil =>
    refine readParameters?_of_ne fun r hr ↦ ?_
    have hcomma : ';' = ',' := hrest ';' (by rw [← List.nil_append rest, hr]; rfl)
    cases hcomma
  | @cons p ps blanks blanks' t s hblank hblank' ht hs ih =>
    have hsemicolon : skipWhitespace (blanks ++ ';' :: (blanks' ++ (t ++ s)) ++ rest) =
        ';' :: (blanks' ++ (t ++ (s ++ rest))) := by
      rw [List.append_assoc, skipWhitespace_append hblank, List.cons_append,
        skipWhitespace_cons_of_not rfl, List.append_assoc, List.append_assoc]
    have hread : ExtensionParameter.read? (skipWhitespace (blanks' ++ (t ++ (s ++ rest)))) =
        some (p, s ++ rest) := by
      rw [skipWhitespace_append hblank', ht.skipWhitespace_append,
        ExtensionParameter.read?_append ht (isTchar_eq_false_of_spellsParameters hs hrest)]
    rw [readParameters?_of_semicolon hsemicolon hread, ih, Option.map_some]

end Extension

namespace ExtensionList

/-- The reader of extensions reads what the grammar calls an extension. -/
theorem reads_element : element.Reads SpellsExtension where
  begins {e t} h := by
    -- An extension begins as its name does.
    obtain ⟨ht, -⟩ := h
    obtain ⟨c, r, rfl, hc⟩ := ht.exists_cons
    refine ⟨c, _, List.cons_append, ?_, isWhitespace_of_isTchar hc⟩
    rintro rfl
    cases hc
  sound {s rest e} h := by
    change Extension.read? s = some (e, rest) at h
    unfold Extension.read? at h
    split at h
    · cases h
    · rename_i name afterName hname
      obtain ⟨⟨ps, left⟩, hps, heq⟩ := Option.map_eq_some_iff.1 h
      cases heq
      obtain ⟨htoken, rfl⟩ := isToken_of_token? hname
      obtain ⟨u, hu, rfl⟩ := Extension.spellsParameters_of_readParameters? hps
      exact ⟨name ++ u, .mk htoken hu, (List.append_assoc ..).symm⟩
  complete {e t rest} h hcloses := by
    obtain @⟨name, ps, t, u, ⟨hne, hall, rfl⟩, hu⟩ := h
    have hname : token? (t ++ (u ++ rest)) = some (t, u ++ rest) :=
      token?_append hne hall (Extension.isTchar_eq_false_of_spellsParameters hu hcloses)
    change Extension.read? (t ++ u ++ rest) = some (⟨String.ofList t, ps⟩, rest)
    rw [List.append_assoc, Extension.read?, hname]
    simp only [Extension.readParameters?_append hu hcloses, Option.map_some]

/-- **A header value is read as a list of extensions exactly if the grammar has it**, and what is
read are the extensions in it, in their order, with their parameters. -/
theorem parse?_iff_spellsExtensions (value : String) :
    (∀ l : ExtensionList,
      parse? value = some l ↔ SpellsList SpellsExtension l.extensions value.toList) ∧
    (parse? value = none ↔ ¬ ∃ extensions, SpellsList SpellsExtension extensions value.toList) := by
  constructor
  · intro l
    rw [← reads_element.readList?_eq_some_iff, parse?, Option.map_eq_some_iff]
    constructor
    · rintro ⟨extensions, hread, rfl⟩
      exact hread
    · exact fun h ↦ ⟨l.extensions, h, rfl⟩
  · rw [parse?, Option.map_eq_none_iff, reads_element.readList?_eq_none_iff]

example : parse? "gzip;level=9 , chunked ; note = \"a, \\\"b=;\"" =
    some ⟨[⟨"gzip", [⟨"level", "9"⟩]⟩, ⟨"chunked", [⟨"note", "a, \"b=;"⟩]⟩]⟩ := by
  decide +kernel

example :
    ["", "a;", "a;b", "a;b=", "a;b=\"x", "a;=b", "a;b=\"x\"c"].map parse? =
      List.replicate 7 none := by
  decide +kernel

end ExtensionList

end HttpFraming
