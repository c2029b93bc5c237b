import HttpFraming.Proofs.Url.Escape

/-!
# What a text with escapes spells

A text in which every percent sign begins an escape spells a list of symbols: characters that stand
for themselves, and octets that have to be escaped. An unreserved character may be written as itself
or as an escape, and the digits of an escape in either case. There is no other choice.

Whatever is asked of such a text is a function of its symbols: its meaning
(`Percent.Spells.unescape?_encode`), and its normal form (`Percent.Spells.normalizeChars_eq`), which
spells them again. So two texts have the same normal form exactly when they spell the same symbols,
and one pass over a text that has a meaning keeps it (`Percent.normalize_of_unescape?_eq_some`).

## Why symbols

The meaning of a text is a list of octets, and two texts of the same meaning need not have the same
normal form: a letter outside ASCII may stand for itself, or each of its octets may be escaped, and
no pass turns one into the other. The symbols keep these apart, and nothing else. So they are the
right middle between texts and meanings: each text spells one list of symbols (`Spells.unique`), and
both the meaning and the normal form can be read off them.

Nothing need be said of what an escape and its neighbours are together: what takes the place of an
escape is no percent sign, and digits are none either. The inductions are on `Spells`, and each has
one line for a character, one for an unreserved character that is escaped, and one for an octet.
-/

namespace HttpFraming

namespace Percent

open CharClass Hexadecimal

/-! ### Symbols -/

/-- What stands at one place of a text. -/
inductive Symbol where
  /-- A character, which stands for itself. -/
  | char (c : Char)
  /-- An octet that has to be escaped. -/
  | octet (b : UInt8)

namespace Symbol

/-- The octets that a symbol stands for. -/
def octets : Symbol → Octets
  | char c => String.utf8EncodeChar c
  | octet b => [b]

/-- The spelling of a symbol that is in normal form. -/
def normalChars : Symbol → List Char
  | char c => [c]
  | octet b => ['%', digit (b.toNat / 16), digit (b.toNat % 16)]

end Symbol

/-- Two digits, each in either case, denote a number. -/
def Denote (h l : Char) (n : Nat) : Prop :=
  ∃ a b, value? h.toNat = some a ∧ value? l.toNat = some b ∧ 16 * a + b = n

/-- A text spells symbols, one after the other. -/
inductive Spells : List Symbol → List Char → Prop
  | nil : Spells [] []
  /-- Any character but the percent sign may be written as itself, -/
  | plain {c : Char} {symbols : List Symbol} {s : List Char} (ne : c ≠ '%')
    (rest : Spells symbols s) : Spells (.char c :: symbols) (c :: s)
  /-- and one that is unreserved as an escape, -/
  | escaped {c h l : Char} {symbols : List Symbol} {s : List Char}
    (unreserved : isUnreserved c.toNat = true) (digits : Denote h l c.toNat)
    (rest : Spells symbols s) : Spells (.char c :: symbols) ('%' :: h :: l :: s)
  /-- which is the only way to write any other octet. -/
  | octet {b : UInt8} {h l : Char} {symbols : List Symbol} {s : List Char}
    (reserved : isUnreserved b.toNat = false) (digits : Denote h l b.toNat)
    (rest : Spells symbols s) : Spells (.octet b :: symbols) ('%' :: h :: l :: s)

/-- In two texts every percent sign begins an escape, and they differ in nothing but in which
unreserved characters are escaped, and in the case of the digits of escapes. -/
def SameSymbols (s t : List Char) : Prop :=
  ∃ symbols, Spells symbols s ∧ Spells symbols t

variable {s t : List Char} {symbols symbols' : List Symbol} {c h l : Char} {n m : Nat} {y : Octets}

/-! ### Escapes -/

/-- Two digits denote one number. -/
theorem Denote.unique (hn : Denote h l n) (hm : Denote h l m) : n = m := by
  obtain ⟨a, b, ha, hb, rfl⟩ := hn
  obtain ⟨a', b', ha', hb', rfl⟩ := hm
  cases ha.symm.trans ha'
  cases hb.symm.trans hb'
  rfl

theorem Denote.lt (hn : Denote h l n) : n < 0x100 := by
  obtain ⟨a, b, ha, hb, rfl⟩ := hn
  have := value?_lt ha
  have := value?_lt hb
  omega

/-- An octet is denoted by the digits with which it is written. -/
theorem denote_digits (b : UInt8) :
    Denote (digit (b.toNat / 16)) (digit (b.toNat % 16)) b.toNat := by
  have hlt := b.toNat_lt
  exact ⟨_, _, value?_digit _ (by omega), value?_digit _ (by omega), Nat.div_add_mod _ 16⟩

theorem ne_percent_of_isUnreserved (hc : isUnreserved c.toNat = true) : c ≠ '%' := by
  rintro rfl
  cases hc

theorem normalizeChars_cons_of_ne (hc : c ≠ '%') (s : List Char) :
    normalizeChars (c :: s) = c :: normalizeChars s := by
  rw [normalizeChars.eq_def]
  split
  · rename_i heq
    cases heq
  · rename_i heq
    exact absurd (List.cons.inj heq).1 hc
  · rename_i heq
    cases heq
    rfl

/-- What takes the place of an escape depends on what it denotes, and on nothing else. -/
theorem Denote.normalizeChars_eq (hn : Denote h l n) (s : List Char) :
    normalizeChars ('%' :: h :: l :: s) =
      (if isUnreserved n then [Char.ofNat n] else ['%', digit (n / 16), digit (n % 16)]) ++
        normalizeChars s := by
  obtain ⟨a, b, ha, hb, rfl⟩ := hn
  have hlt := value?_lt hb
  have hdiv : (16 * a + b) / 16 = a := by omega
  have hmod : (16 * a + b) % 16 = b := by omega
  rw [normalizeChars, ha, hb, hdiv, hmod]
  rfl

/-- A digit takes one octet, which is the same digit. -/
theorem exists_encodeChar_of_value? (hv : value? c.toNat = some n) :
    ∃ d : UInt8, String.utf8EncodeChar c = [d] ∧ value? d.toNat = some n := by
  have hlt := lt_of_value? hv
  refine ⟨_, Utf8.encodeChar_of_lt hlt, ?_⟩
  rw [UInt8.toNat_ofNat', Nat.mod_eq_of_lt (by omega), hv]

/-- An escape stands for the octet that it denotes. -/
theorem Denote.unescape?_encode (hn : Denote h l n) (s : List Char) :
    unescape? (Utf8.encode (String.ofList ('%' :: h :: l :: s))) =
      (unescape? (Utf8.encode (String.ofList s))).map (UInt8.ofNat n :: ·) := by
  obtain ⟨a, b, ha, hb, rfl⟩ := hn
  obtain ⟨d, hd, ha⟩ := exists_encodeChar_of_value? ha
  obtain ⟨e, he, hb⟩ := exists_encodeChar_of_value? hb
  rw [Utf8.encode_ofList_cons, Utf8.encode_ofList_cons, Utf8.encode_ofList_cons, hd, he]
  exact unescapeWith_escape ha hb

/-- Octets without a percent sign stand for themselves. -/
theorem unescape?_append {x : Octets} (hx : ∀ b ∈ x, b ≠ 0x25) (rest : Octets) :
    unescape? (x ++ rest) = (unescape? rest).map (x ++ ·) := by
  induction x with
  | nil => simp
  | cons b x ih =>
    obtain ⟨hb, hx⟩ := List.forall_mem_cons.1 hx
    show unescape? (b :: (x ++ rest)) = _
    rw [unescape?, unescapeWith_cons_of_ne_percent hb, ← unescape?, ih hx, Option.map_map]
    rfl

/-- A character that is no percent sign stands for itself, since none of its octets is one. -/
theorem unescape?_encode_cons (hc : c ≠ '%') (s : List Char) :
    unescape? (Utf8.encode (String.ofList (c :: s))) =
      (unescape? (Utf8.encode (String.ofList s))).map (String.utf8EncodeChar c ++ ·) := by
  rw [Utf8.encode_ofList_cons]
  refine unescape?_append (fun b hb ↦ ?_) _
  rintro rfl
  exact hc (Char.toNat_inj.1 (Utf8.toNat_eq_of_mem_encodeChar hb (by decide)))

/-! ### Functions of the symbols -/

/-- A text has one meaning only. -/
theorem Spells.unique (hs : Spells symbols s) (hs' : Spells symbols' s) : symbols = symbols' := by
  induction hs generalizing symbols' with
  | nil =>
    cases hs'
    rfl
  | plain hc _ ih =>
    cases hs' with
    | plain _ rest => rw [ih rest]
    | escaped | octet => exact absurd rfl hc
  | escaped hc hdigits _ ih =>
    cases hs' with
    | plain hne => exact absurd rfl hne
    | escaped hc' hdigits' rest =>
      rw [ih rest, Char.toNat_inj.1 (hdigits.unique hdigits')]
    -- The same digits cannot denote both an unreserved octet and another.
    | octet hb hdigits' =>
      rw [hdigits.unique hdigits', hb] at hc
      cases hc
  | octet hb hdigits _ ih =>
    cases hs' with
    | plain hne => exact absurd rfl hne
    | escaped hc hdigits' =>
      rw [hdigits.unique hdigits', hc] at hb
      cases hb
    | octet _ hdigits' rest =>
      rw [ih rest, UInt8.toNat_inj.1 (hdigits.unique hdigits')]

/-- **A text means what its symbols mean.** -/
theorem Spells.unescape?_encode (hs : Spells symbols s) :
    unescape? (Utf8.encode (String.ofList s)) = some (symbols.flatMap Symbol.octets) := by
  induction hs with
  | nil => rfl
  | plain hc _ ih =>
    rw [unescape?_encode_cons hc, ih]
    rfl
  | @escaped c _ _ _ _ hc hdigits _ ih =>
    have hlt : c.toNat < 0x80 := lt_of_isWritten (by rw [isWritten, hc]; rfl)
    rw [hdigits.unescape?_encode, ih, List.flatMap_cons, Symbol.octets, Utf8.encodeChar_of_lt hlt]
    rfl
  | octet _ hdigits _ ih =>
    rw [hdigits.unescape?_encode, ih, UInt8.ofNat_toNat]
    rfl

/-- **The normal form of a text is the normal form of its symbols.** -/
theorem Spells.normalizeChars_eq (hs : Spells symbols s) :
    normalizeChars s = symbols.flatMap Symbol.normalChars := by
  induction hs with
  | nil => rfl
  | plain hc _ ih =>
    rw [normalizeChars_cons_of_ne hc, ih]
    rfl
  | escaped hc hdigits _ ih =>
    rw [hdigits.normalizeChars_eq, if_pos hc, ih, Char.ofNat_toNat]
    rfl
  | octet hb hdigits _ ih =>
    rw [hdigits.normalizeChars_eq, hb, if_neg Bool.false_ne_true, ih]
    rfl

/-- The normal form spells the symbols again. -/
theorem Spells.normalizeChars (hs : Spells symbols s) : Spells symbols (normalizeChars s) := by
  rw [hs.normalizeChars_eq]
  induction hs with
  | nil => exact .nil
  | plain hc _ ih => exact .plain hc ih
  | escaped hc _ _ ih => exact .plain (ne_percent_of_isUnreserved hc) ih
  | octet hb _ _ ih => exact .octet hb (denote_digits _) ih

/-- Texts that spell something have the same normal form exactly when they spell the same. -/
theorem Spells.normalizeChars_eq_iff (hs : Spells symbols s) (ht : Spells symbols' t) :
    Percent.normalizeChars s = Percent.normalizeChars t ↔ SameSymbols s t := by
  constructor
  · intro heq
    have hsame := ht.normalizeChars
    rw [← heq] at hsame
    exact ⟨symbols, hs, hs.normalizeChars.unique hsame ▸ ht⟩
  · rintro ⟨common, hs, ht⟩
    rw [hs.normalizeChars_eq, ht.normalizeChars_eq]

/-! ### Texts that mean something -/

/-- Where a percent sign can be undone, it begins an escape. -/
theorem exists_denote_of_unescape?
    (hy : unescape? (Utf8.encode (String.ofList ('%' :: s))) = some y) :
    ∃ h l n t z, s = h :: l :: t ∧ Denote h l n ∧
      unescape? (Utf8.encode (String.ofList t)) = some z := by
  have hpercent : Utf8.encode (String.ofList ('%' :: s)) =
      0x25 :: Utf8.encode (String.ofList s) := Utf8.encode_ofList_cons '%' s
  have hbegins : BeginsDigits (Utf8.encode (String.ofList s)) := by
    by_contra hnot
    rw [hpercent, unescape?, unescapeWith_percent_eq_none hnot] at hy
    cases hy
  obtain ⟨h, l, rest, a, b, hencode, ha, hb⟩ := hbegins
  obtain ⟨h', s, rfl, hh, hencode⟩ := Utf8.exists_cons_of_encode_eq_cons hencode (lt_of_value? ha)
  obtain ⟨l', t, rfl, hl, -⟩ := Utf8.exists_cons_of_encode_eq_cons hencode (lt_of_value? hb)
  have hdenote : Denote h' l' (16 * a + b) := ⟨a, b, hh ▸ ha, hl ▸ hb, rfl⟩
  rw [hdenote.unescape?_encode] at hy
  obtain ⟨z, hz, -⟩ := Option.map_eq_some_iff.1 hy
  exact ⟨h', l', _, t, z, rfl, hdenote, hz⟩

/-- **A text whose escapes can be undone spells something.** -/
theorem exists_spells_of_unescape? {s : List Char} {y : Octets}
    (hy : unescape? (Utf8.encode (String.ofList s)) = some y) : ∃ symbols, Spells symbols s := by
  match s with
  | [] => exact ⟨[], .nil⟩
  | c :: s =>
    by_cases hc : c = '%'
    · subst hc
      -- Which symbol an escape is depends on whether its octet may also be written as itself.
      obtain ⟨h, l, n, t, z, rfl, hdenote, hz⟩ := exists_denote_of_unescape? hy
      obtain ⟨symbols, ht⟩ := exists_spells_of_unescape? hz
      cases hn : isUnreserved n with
      | true =>
        have hcode := toNat_ofNat_of_isUnreserved hn
        rw [← hcode] at hn hdenote
        exact ⟨_, .escaped hn hdenote ht⟩
      | false =>
        have hcode : (UInt8.ofNat n).toNat = n := by
          rw [UInt8.toNat_ofNat', Nat.mod_eq_of_lt hdenote.lt]
        rw [← hcode] at hn hdenote
        exact ⟨_, .octet hn hdenote ht⟩
    · rw [unescape?_encode_cons hc] at hy
      obtain ⟨z, hz, -⟩ := Option.map_eq_some_iff.1 hy
      obtain ⟨symbols, hs⟩ := exists_spells_of_unescape? hz
      exact ⟨_, .plain hc hs⟩
termination_by s.length

/-- **Where the escapes of a text can be undone, its normal form has the same meaning**, every
escape in it is in normal form, and another pass changes nothing. Two such texts have one normal
form exactly when they differ in nothing but which unreserved characters are escaped, and in the
case of the digits of escapes. -/
theorem normalize_of_unescape?_eq_some {x x' : String} {y y' : Octets}
    (hx : unescape? (Utf8.encode x) = some y) (hx' : unescape? (Utf8.encode x') = some y') :
    unescape? (Utf8.encode (normalize x)) = some y ∧ IsNormal (normalize x).toList ∧
      normalize (normalize x) = normalize x ∧
      (normalize x = normalize x' ↔ SameSymbols x.toList x'.toList) := by
  rw [← String.ofList_toList (s := x)] at hx
  rw [← String.ofList_toList (s := x')] at hx'
  obtain ⟨symbols, hs⟩ := exists_spells_of_unescape? hx
  obtain ⟨symbols', hs'⟩ := exists_spells_of_unescape? hx'
  have hstable : normalizeChars (normalizeChars x.toList) = normalizeChars x.toList := by
    rw [hs.normalizeChars.normalizeChars_eq, ← hs.normalizeChars_eq]
  refine ⟨?_, ?_, ?_, ?_⟩
  · rw [normalize, hs.normalizeChars.unescape?_encode, ← hs.unescape?_encode, hx]
  · rw [normalize, String.toList_ofList]
    exact (normalizeChars_eq_self_iff _).1 hstable
  · rw [normalize, normalize, String.toList_ofList, hstable]
  · rw [← hs.normalizeChars_eq_iff hs', normalize, normalize, String.ofList_inj]

/-- A tilde that is escaped and one that is not, octets in digits of either case, and a character
outside ASCII among them. -/
theorem normalize_of_unescape?_eq_some_tilde :
    unescape? (Utf8.encode "/%7e%c3é%2F") =
        some [0x2F, 0x7E, 0xC3, 0xC3, 0xA9, 0x2F] ∧
      unescape? (Utf8.encode "/~%C3é%2f") = some [0x2F, 0x7E, 0xC3, 0xC3, 0xA9, 0x2F] ∧
      SameSymbols "/%7e%c3é%2F".toList "/~%C3é%2f".toList ∧
      normalize "/%7e%c3é%2F" = normalize "/~%C3é%2f" := by
  have hx : unescape? (Utf8.encode "/%7e%c3é%2F") =
      some [0x2F, 0x7E, 0xC3, 0xC3, 0xA9, 0x2F] := by decide +kernel
  have hx' : unescape? (Utf8.encode "/~%C3é%2f") =
      some [0x2F, 0x7E, 0xC3, 0xC3, 0xA9, 0x2F] := by decide +kernel
  have hsame : SameSymbols "/%7e%c3é%2F".toList "/~%C3é%2f".toList := by
    refine ⟨[.char '/', .char '~', .octet 0xC3, .char 'é', .octet 0x2F], ?_, ?_⟩
    · exact .plain (by decide) (.escaped (by decide) ⟨7, 14, rfl, rfl, rfl⟩
        (.octet (by decide) ⟨12, 3, rfl, rfl, rfl⟩
          (.plain (by decide) (.octet (by decide) ⟨2, 15, rfl, rfl, rfl⟩ .nil))))
    · exact .plain (by decide) (.plain (by decide) (.octet (by decide) ⟨12, 3, rfl, rfl, rfl⟩
        (.plain (by decide) (.octet (by decide) ⟨2, 15, rfl, rfl, rfl⟩ .nil))))
  exact ⟨hx, hx', hsame, (normalize_of_unescape?_eq_some hx hx').2.2.2.2 hsame⟩

end Percent

end HttpFraming
