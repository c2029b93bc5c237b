import HttpFraming.Proofs.Url.Spelling

/-!
# Writers made from an encoder

A percent encoder is told which octets of ASCII to escape, and escapes all others too. Both writers
are made from one: `Percent.escape` is what it makes of all but the unreserved octets, and
`Percent.escapePlus` what it makes of the pieces between spaces, joined with plus signs. A plus sign
is among the octets that it escapes, so that the joints can be told from the pieces.

## What is known of an encoder

The encoder is a parameter, and all that is known of it is `Encodes`: it writes octets one by one,
each as itself or as an escape in upper case. This determines what both writers make of any octets
(`Encodes.escapeBy_eq`, `Encodes.escapePlusBy_eq`), though they are defined by means of it in
different ways, one by a single call, the other by cutting, calling and joining. The general fact
behind the second is `intercalate_splitOn_flatMap`, which knows nothing of octets.

## Reading back

Each writer is undone by its reader, and what `Percent.escape` writes has its escapes in normal form
(`Percent.readBack_of_encodes`). Not every text has been written by one of them, though, and a
reader fails at the first percent sign on its way that begins no escape
(`Percent.unescapeWith_eq_none_iff`). On its way means that the digits of escapes before it are
passed over, which is what `ComesTo` keeps track of: of the signs in `%%41` the first one is met,
and begins no escape, so that the second is never come to.
-/

namespace HttpFraming.Percent

open CharClass Hexadecimal

/-! ### Encoders -/

/-- One octet, escaped in upper case if it is in a set or outside ASCII. -/
def encodeOctet (set : Nat → Bool) (b : UInt8) : List Char :=
  if set b.toNat || 0x80 ≤ b.toNat then ['%', digit (b.toNat / 16), digit (b.toNat % 16)]
  else [Char.ofNat b.toNat]

/-- An encoder writes octets one by one. -/
def Encodes (encode : (Nat → Bool) → Octets → String) : Prop :=
  ∀ (set : Nat → Bool) (data : Octets),
    encode set data = String.ofList (data.flatMap (encodeOctet set))

/-- The octets of ASCII that are escaped: all but letters, digits and four marks. -/
def reserved (n : Nat) : Bool :=
  n < 0x80 && !isAlphanumeric n && n != 0x2D && n != 0x2E && n != 0x5F && n != 0x7E

/-- A text made of octets by an encoder. -/
def escapeBy (encode : (Nat → Bool) → Octets → String) (data : Octets) : String :=
  encode reserved data

/-- A text in form encoding, made by an encoder of the pieces between spaces. -/
def escapePlusBy (encode : (Nat → Bool) → Octets → String) (data : Octets) : String :=
  "+".intercalate ((data.splitOn 0x20).map (encode reserved))

variable {encode : (Nat → Bool) → Octets → String} {plus : Bool} {b h l : UInt8} {s t x : Octets}

/-- Octets that are not reserved, and lie in ASCII, are the unreserved ones. -/
theorem reserved_or_le_eq (n : Nat) : (reserved n || decide (0x80 ≤ n)) = !isUnreserved n := by
  rw [Bool.eq_iff_iff]
  simp only [reserved, isUnreserved, isAlphanumeric, isAlpha, isDigit, Bool.or_eq_true,
    Bool.and_eq_true, Bool.not_eq_true', Bool.or_eq_false_iff, Bool.and_eq_false_iff, bne_iff_ne,
    beq_eq_false_iff_ne, decide_eq_true_eq, decide_eq_false_iff_not]
  omega

theorem encodeOctet_reserved : encodeOctet reserved = escapeOctet := by
  funext b
  rw [encodeOctet, escapeOctet, reserved_or_le_eq]
  cases isUnreserved b.toNat <;> rfl

/-- An encoder leaves no choice of what is written of octets. -/
theorem Encodes.escapeBy_eq (hencode : Encodes encode) (data : Octets) :
    escapeBy encode data = escape data := by
  rw [escapeBy, hencode, encodeOctet_reserved, escape]

/-- To write the pieces between marks and to join them is to write the marks in their own way. -/
theorem intercalate_splitOn_flatMap {α β : Type} [DecidableEq α] (mark : α) (sep : List β)
    (write : α → List β) (as : List α) :
    sep.intercalate ((as.splitOn mark).map (·.flatMap write)) =
      as.flatMap fun a ↦ if a = mark then sep else write a := by
  induction as with
  | nil => simp
  | cons a as ih =>
    obtain ⟨piece, pieces, hpieces⟩ := List.exists_cons_of_ne_nil (List.splitOn_ne_nil mark as)
    rw [List.splitOn_cons_eq_if_modifyHead, List.flatMap_cons, ← ih, hpieces]
    by_cases ha : a = mark
    · simp [ha]
    · rw [if_neg (by simpa using ha), if_neg ha]
      cases pieces <;> simp

/-- An encoder leaves no choice of what is written in form encoding either. -/
theorem Encodes.escapePlusBy_eq (hencode : Encodes encode) (data : Octets) :
    escapePlusBy encode data = escapePlus data := by
  have hpiece (piece : Octets) : (encode reserved piece).toList = piece.flatMap escapeOctet := by
    rw [hencode, encodeOctet_reserved, String.toList_ofList]
  rw [← String.toList_inj, escapePlusBy, String.toList_intercalate, List.map_map]
  simp only [Function.comp_def, hpiece]
  exact (intercalate_splitOn_flatMap 0x20 ['+'] escapeOctet data).trans String.toList_ofList.symm

/-! ### What is written -/

/-- What is written of octets spells them, and nothing in it could be written otherwise. -/
theorem normalizeChars_flatMap_escapeOctet (data : Octets) :
    normalizeChars (data.flatMap escapeOctet) = data.flatMap escapeOctet := by
  induction data with
  | nil => rfl
  | cons b data ih =>
    rw [List.flatMap_cons, escapeOctet]
    split
    · rename_i hunreserved
      have hne : Char.ofNat b.toNat ≠ '%' :=
        ne_percent_of_isUnreserved ((toNat_ofNat_of_isUnreserved hunreserved).symm ▸ hunreserved)
      rw [List.cons_append, normalizeChars_cons_of_ne hne, List.nil_append, ih]
    · rename_i hreserved
      simp only [List.cons_append, List.nil_append]
      rw [(denote_digits b).normalizeChars_eq, if_neg hreserved, ih]
      rfl

theorem normalize_escape (data : Octets) : normalize (escape data) = escape data := by
  rw [normalize, escape, String.toList_ofList, normalizeChars_flatMap_escapeOctet]

/-- Either reader undoes the writer that leaves no plus sign. -/
theorem unescapeWith_encode_escape (plus : Bool) (data : Octets) :
    unescapeWith plus (Utf8.encode (escape data)) = some data := by
  have hwritten (c : Char) (hc : c ∈ data.flatMap escapeOctet) : isWritten c.toNat = true := by
    obtain ⟨b, -, hb⟩ := List.mem_flatMap.1 hc
    exact isWritten_of_mem_escapeOctet hb
  rw [escape, encode_ofList_of_isWritten hwritten]
  exact unescapeWith_flatMap (unescapeWith_escapeOctet plus) data

/-! ### Where reading fails -/

/-- Who reads a text octet by octet, and each escape with its two digits, comes to some rest of
it. -/
inductive ComesTo : Octets → Octets → Prop
  | here {x : Octets} : ComesTo x x
  | octet {b : UInt8} {x t : Octets} (ne : b ≠ 0x25) (more : ComesTo x t) : ComesTo (b :: x) t
  | escape {h l : UInt8} {x t : Octets} (digits : BeginsDigits (h :: l :: x))
    (more : ComesTo x t) : ComesTo (0x25 :: h :: l :: x) t

theorem comesTo_percent_cons_iff (hb : b ≠ 0x25) :
    ComesTo (b :: x) (0x25 :: t) ↔ ComesTo x (0x25 :: t) := by
  constructor
  · intro hcomes
    cases hcomes with
    | here => exact absurd rfl hb
    | octet _ more => exact more
    | escape => exact absurd rfl hb
  · exact .octet hb

/-- Behind an escape, a reader comes to what it finds after the two digits. -/
theorem comesTo_percent_escape_iff (hdigits : BeginsDigits (h :: l :: x)) :
    ComesTo (0x25 :: h :: l :: x) (0x25 :: t) ↔ t = h :: l :: x ∨ ComesTo x (0x25 :: t) := by
  constructor
  · intro hcomes
    cases hcomes with
    | here => exact .inl rfl
    | octet hne => exact absurd rfl hne
    | escape _ more => exact .inr more
  · rintro (rfl | more)
    · exact .here
    · exact .escape hdigits more

/-- **A reader fails exactly if it comes to a percent sign that no two digits follow.** -/
theorem unescapeWith_eq_none_iff (plus : Bool) (x : Octets) :
    unescapeWith plus x = none ↔ ∃ rest, ComesTo x (0x25 :: rest) ∧ ¬ BeginsDigits rest := by
  fun_induction unescapeWith plus x with
  | case1 =>
    refine iff_of_false (Option.some_ne_none _) ?_
    rintro ⟨rest, hcomes, -⟩
    cases hcomes
  | case2 h l rest high low hl hh ih =>
    have hdigits : BeginsDigits (h :: l :: rest) := ⟨h, l, rest, high, low, rfl, hh, hl⟩
    rw [Option.map_eq_none_iff, ih]
    refine exists_congr fun t ↦ and_congr_left fun hnot ↦ ?_
    rw [comesTo_percent_escape_iff hdigits, or_iff_right]
    rintro rfl
    -- The sign of an escape is come to as well, but it has its digits.
    exact hnot hdigits
  | case3 h l rest hnone =>
    refine iff_of_true rfl ⟨h :: l :: rest, .here, ?_⟩
    rintro ⟨_, _, _, high, low, heq, hh, hl⟩
    cases heq
    exact hnone high low hh hl
  | case4 rest hshort =>
    refine iff_of_true rfl ⟨rest, .here, ?_⟩
    rintro ⟨h, l, rest, -, -, rfl, -⟩
    exact hshort h l rest rfl rfl
  | case5 b rest _ hb ih =>
    rw [Option.map_eq_none_iff, ih]
    exact exists_congr fun t ↦ and_congr_left fun _ ↦ (comesTo_percent_cons_iff hb).symm

/-- **Both writers do what their encoder makes of them, and are undone by their readers.** The
reader of form encoding undoes the other writer too, whose escapes are in normal form. Octets cannot
be read exactly if a reader comes to a percent sign that no two digits follow. -/
theorem readBack_of_encodes {encode : (Nat → Bool) → Octets → String} (hencode : Encodes encode)
    (data x : Octets) :
    (escapeBy encode data = escape data ∧ escapePlusBy encode data = escapePlus data) ∧
      unescape? (Utf8.encode (escape data)) = some data ∧
      unescapePlus? (Utf8.encode (escapePlus data)) = some data ∧
      unescapePlus? (Utf8.encode (escape data)) = some data ∧
      normalize (escape data) = escape data ∧
      (unescape? x = none ↔ ∃ rest, ComesTo x (0x25 :: rest) ∧ ¬ BeginsDigits rest) :=
  ⟨⟨hencode.escapeBy_eq data, hencode.escapePlusBy_eq data⟩,
    unescapeWith_encode_escape false data, unescapePlus?_encode_escapePlus data,
    unescapeWith_encode_escape true data, normalize_escape data, unescapeWith_eq_none_iff false x⟩

/-- Spaces at both ends and next to each other, a plus sign and a percent sign among them; and a
percent sign that the digit behind it does not make an escape. -/
theorem readBack_of_encodes_spaces :
    Encodes (fun set data ↦ String.ofList (data.flatMap (encodeOctet set))) ∧
      escape [0x20, 0x2B, 0x25, 0x20, 0x20, 0xFF, 0x7E, 0x20] = "%20%2B%25%20%20%FF~%20" ∧
      escapePlus [0x20, 0x2B, 0x25, 0x20, 0x20, 0xFF, 0x7E, 0x20] = "+%2B%25++%FF~+" ∧
      unescapePlus? (Utf8.encode (escape [0x20, 0x2B, 0x25, 0x20, 0x20, 0xFF, 0x7E, 0x20])) =
        some [0x20, 0x2B, 0x25, 0x20, 0x20, 0xFF, 0x7E, 0x20] ∧
      ∃ rest, ComesTo [0x25, 0x34, 0x25, 0x34, 0x31] (0x25 :: rest) ∧ ¬ BeginsDigits rest := by
  have hencode : Encodes (fun set data ↦ String.ofList (data.flatMap (encodeOctet set))) :=
    fun _ _ ↦ rfl
  obtain ⟨-, -, -, hread, -, hfails⟩ := readBack_of_encodes hencode
    [0x20, 0x2B, 0x25, 0x20, 0x20, 0xFF, 0x7E, 0x20] [0x25, 0x34, 0x25, 0x34, 0x31]
  exact ⟨hencode, by decide, by decide, hread, hfails.1 (by decide)⟩

end HttpFraming.Percent
