import HttpFraming.Text.CharClass
import HttpFraming.Text.Cut
import HttpFraming.Text.Utf8

/-!
# Tokens and quoted strings

The leaves of the header value grammars. A reader takes a text and returns what it has read together
with what is left; it fails without reading anything. The rest never grows, and where something was
read it shrinks, which is what makes the list grammars above these leaves terminate.

## Two ways to read a quoted string

A quoted string is read octet by octet, since an octet is what a backslash escapes. The reader goes
through the octets of a text with an offset, collects octets behind the opening mark up to the
closing one, makes a text of them, and cuts what is left at the offset it has come to
(`FieldValue.takeQuotedString?`). Two things can go wrong there that have nothing to do with the
grammar: what was collected may spell no text, and the offset may lie inside a character, where a
text cannot be cut. `FieldValue.quotedString?` reads by characters, where neither can happen, and it
is the reader that the grammars above this one are built from. That the two are one reader, and that
neither thing goes wrong, is `FieldValue.takeQuotedString?_eq`.
-/

namespace HttpFraming.FieldValue

open CharClass

/-- Drops the spaces and tabs in front, `OWS` in the grammar. -/
def skipWhitespace (s : List Char) : List Char :=
  s.dropWhile fun c ↦ isWhitespace c.toNat

/-- Reads `token = 1*tchar`, as many characters as there are. -/
def token? (s : List Char) : Option (List Char × List Char) :=
  match s.takeWhile (fun c ↦ isTchar c.toNat) with
  | [] => none
  | t => some (t, s.dropWhile fun c ↦ isTchar c.toNat)

/-- Reads a quoted string after its opening quotation mark, up to the closing one. A backslash
stands for the character that follows it. -/
def quotedContent? : List Char → Option (List Char × List Char)
  | [] => none
  | '"' :: rest => some ([], rest)
  | '\\' :: c :: rest =>
    if isQuotedPairChar c.toNat then
      (quotedContent? rest).map fun (content, after) ↦ (c :: content, after)
    else none
  | c :: rest =>
    if isQdtext c.toNat then
      (quotedContent? rest).map fun (content, after) ↦ (c :: content, after)
    else none

/-- Reads a quoted string and returns its content, without the quotation marks and the escaping
backslashes. -/
def quotedString? : List Char → Option (List Char × List Char)
  | '"' :: rest => quotedContent? rest
  | _ => none

/-- Moves a reader over a text: what it reads, and the text that it stands at afterwards. A reader
that fails stays where it was. -/
def advance {α : Type} (read? : List Char → Option (α × List Char)) (s : List Char) :
    Option α × List Char :=
  match read? s with
  | some (a, rest) => (some a, rest)
  | none => (none, s)

/-! ### Octet by octet -/

/-- Goes on inside a quoted string, from an offset in some octets on, with what was collected before
it. The result is all that was collected, and the offset behind the closing quotation mark. -/
def quotedOctets? (octets : Octets) (place : Nat) (collected : Octets) : Option (Octets × Nat) :=
  match _h : octets[place]? with
  | none => none
  | some b =>
    if b = 0x22 then some (collected, place + 1)
    else if b = 0x5C then
      match octets[place + 1]? with
      | none => none
      | some escaped =>
        if isQuotedPairChar escaped.toNat then
          quotedOctets? octets (place + 2) (collected ++ [escaped])
        else none
    else if isQdtext b.toNat then quotedOctets? octets (place + 1) (collected ++ [b])
    else none
termination_by octets.length - place
decreasing_by
  all_goals
    have hplace := (List.getElem?_eq_some_iff.1 _h).1
    omega

/-- The octets that a quoted string at the beginning of some octets stands for, and the offset
behind it. -/
def quotedOctetString? (octets : Octets) : Option (Octets × Nat) :=
  if octets.head? = some 0x22 then quotedOctets? octets 1 [] else none

/-- What is left of a text behind some of its octets. There is no result where the last of them
would be one of several octets of a character, nor behind the end of the text. -/
def dropOctets? (s : String) (n : Nat) : Option String :=
  if n ≤ (Utf8.encode s).length then Utf8.decode? ((Utf8.encode s).drop n) else none

/-- Moves a cursor over a quoted string, by octets: what it stands for, unless there is none or it
stands for no text, and where the cursor is afterwards. There is no result at all if the cursor
would come to stand inside a character. -/
def takeQuotedString? (s : String) : Option (Option String × String) :=
  match quotedOctetString? (Utf8.encode s) with
  | none => some (none, s)
  | some (collected, place) =>
    match Utf8.decode? collected with
    | none => some (none, s)
    | some content => (dropOctets? s place).map fun rest ↦ (some content, rest)

section
variable {α : Type} {read? : List Char → Option (α × List Char)} {s rest : List Char} {a : α}

/-- The cursor moves over what is read, and only there. -/
theorem advance_eq_some_iff : advance read? s = (some a, rest) ↔ read? s = some (a, rest) := by
  rw [advance]
  split <;> simp [*]

theorem advance_eq_none_iff : advance read? s = (none, s) ↔ read? s = none := by
  rw [advance]
  split <;> simp [*]

end

/-! ### What is left is never longer -/

theorem length_skipWhitespace_le (s : List Char) : (skipWhitespace s).length ≤ s.length :=
  length_dropWhile_le _ s

/-- A token is all of the run at the beginning, and is not empty. -/
theorem token?_eq_some_iff {s t rest : List Char} :
    token? s = some (t, rest) ↔
      t ≠ [] ∧ t = s.takeWhile (fun c ↦ isTchar c.toNat) ∧
        rest = s.dropWhile fun c ↦ isTchar c.toNat := by
  unfold token?
  split
  · rename_i h
    rw [h]
    simp
    rintro h1 h2
    exact absurd h2 h1
  · rename_i h
    simp only [Option.some.injEq, Prod.mk.injEq]
    constructor
    · rintro ⟨rfl, rfl⟩
      exact ⟨h, rfl, rfl⟩
    · rintro ⟨-, rfl, rfl⟩
      exact ⟨rfl, rfl⟩

/-- What is left behind a token is no longer than what was there. -/
theorem length_le_of_token? {s t rest : List Char} (h : token? s = some (t, rest)) :
    rest.length ≤ s.length := by
  obtain ⟨-, -, rfl⟩ := token?_eq_some_iff.1 h
  exact length_dropWhile_le _ s

/-- What is left behind a closing quotation mark is shorter, by that mark at least. -/
theorem length_lt_of_quotedContent? {s content rest : List Char}
    (h : quotedContent? s = some (content, rest)) : rest.length < s.length := by
  -- The induction is on the reader: a closing mark, a pair, and a character that stands for itself.
  fun_induction quotedContent? s generalizing content with
  | case1 => simp at h
  | case2 r => simp_all
  | case3 c r hc ih =>
    obtain ⟨⟨a, b⟩, hr, heq⟩ := Option.map_eq_some_iff.1 h
    cases heq
    have := ih hr
    simp; omega
  | case4 => simp at h
  | case5 c r _ _ hc ih =>
    obtain ⟨⟨a, b⟩, hr, heq⟩ := Option.map_eq_some_iff.1 h
    cases heq
    have := ih hr
    simp; omega
  | case6 => simp at h

/-- What is left behind a quoted string is no longer than what was there. -/
theorem length_le_of_quotedString? {s content rest : List Char}
    (h : quotedString? s = some (content, rest)) : rest.length ≤ s.length := by
  unfold quotedString? at h
  split at h
  · have := length_lt_of_quotedContent? h
    simp; omega
  · simp at h

end HttpFraming.FieldValue
