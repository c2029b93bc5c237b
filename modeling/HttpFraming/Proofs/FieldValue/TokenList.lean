import HttpFraming.FieldValue.TokenList
import HttpFraming.Proofs.FieldValue.Sequence
import HttpFraming.Proofs.Grammar.Line

/-!
# The grammar of token lists

A token is as long as it can be: where an element of a list can end, no character of a token
follows. So tokens are elements that a reader can find, and header values are read as token lists
exactly where the grammar has them (`TokenList.parse?_iff_spellsList`).

## What this rests on

The grammar of lists is that of any list, and asks three things of its elements
(`ElementReader.Reads`). For tokens, two of them are about single characters: a character of a token
is neither a comma nor a blank. The third, that a token is read as far as it goes, is a law about
runs of characters (`FieldValue.token?_append`), together with `Closes.isTchar_eq_false`.

The casing of a token is part of what is read, and the grammar says so: `IsToken` ties a token to
its spelling by equality. That two casings of a token mean the same is no matter of the grammar.
-/

namespace HttpFraming

open CharClass FieldValue

namespace FieldValue

/-- How a token is spelled: `1*tchar`, in the casing that it has. -/
def IsToken (token : String) (t : List Char) : Prop :=
  t ≠ [] ∧ (∀ c ∈ t, isTchar c.toNat = true) ∧ token = String.ofList t

variable {token : String} {rest s t : List Char}

/-- No character of a token stands where an element can end. -/
theorem Closes.isTchar_eq_false (h : Closes rest) : ∀ c ∈ rest.head?, isTchar c.toNat = false := by
  intro c hc
  obtain ⟨s, rfl⟩ := List.head?_eq_some_iff.1 hc
  refine Bool.eq_false_iff.2 fun htchar ↦ ?_
  have hblank := isWhitespace_of_isTchar htchar
  have hcomma : c = ',' := h c (by rw [skipWhitespace_cons_of_not hblank]; rfl)
  rw [hcomma] at htchar
  cases htchar

/-- A token is read up to the first character that does not belong to it. -/
theorem token?_append (hne : t ≠ []) (ht : ∀ c ∈ t, isTchar c.toNat = true)
    (hrest : ∀ c ∈ rest.head?, isTchar c.toNat = false) : token? (t ++ rest) = some (t, rest) := by
  refine token?_eq_some_iff.2 ⟨hne, ?_, ?_⟩
  · rw [List.takeWhile_append_of_pos ht]
    cases rest with
    | nil => simp
    | cons c s => simp [hrest c rfl]
  · rw [List.dropWhile_append_of_pos ht]
    cases rest with
    | nil => rfl
    | cons c s => simp [hrest c rfl]

/-- A token begins with one of its characters. -/
theorem IsToken.exists_cons (h : IsToken token t) :
    ∃ c s, t = c :: s ∧ isTchar c.toNat = true := by
  obtain ⟨hne, ht, -⟩ := h
  obtain ⟨c, s, rfl⟩ := List.exists_cons_of_ne_nil hne
  exact ⟨c, s, rfl, ht c List.mem_cons_self⟩

/-- A token does not begin with a blank. -/
theorem IsToken.skipWhitespace_append (h : IsToken token t) (s : List Char) :
    skipWhitespace (t ++ s) = t ++ s := by
  obtain ⟨c, r, rfl, hc⟩ := h.exists_cons
  exact skipWhitespace_cons_of_not (isWhitespace_of_isTchar hc) _

/-- What is read is a token in front of what is left. -/
theorem isToken_of_token? (h : token? s = some (t, rest)) :
    IsToken (String.ofList t) t ∧ s = t ++ rest := by
  obtain ⟨hne, htake, hdrop⟩ := token?_eq_some_iff.1 h
  refine ⟨⟨hne, fun c hc ↦ ?_, rfl⟩, ?_⟩
  · rw [htake] at hc
    exact List.mem_takeWhile_imp (p := fun c : Char ↦ isTchar c.toNat) hc
  · rw [htake, hdrop, List.takeWhile_append_dropWhile]

end FieldValue

namespace TokenList

/-- The reader of tokens reads what the grammar calls a token. -/
theorem reads_element : element.Reads IsToken where
  begins {token t} h := by
    obtain ⟨c, s, rfl, htchar⟩ := h.exists_cons
    refine ⟨c, s, rfl, ?_, isWhitespace_of_isTchar htchar⟩
    rintro rfl
    cases htchar
  sound {s rest token} h := by
    obtain ⟨⟨t, rest'⟩, hread, heq⟩ := Option.map_eq_some_iff.1 h
    cases heq
    exact ⟨t, isToken_of_token? hread⟩
  complete {token t rest} h hcloses := by
    obtain ⟨hne, ht, rfl⟩ := h
    exact congrArg (Option.map _) (token?_append hne ht hcloses.isTchar_eq_false)

/-- A header value is a token list. -/
def IsList (value : String) : Prop :=
  ∃ tokens, SpellsList IsToken tokens value.toList

/-- A header value is no token list exactly where it is not read as one. -/
theorem readList?_element_eq_none_iff {value : String} :
    element.readList? value.toList = none ↔ ¬ IsList value := by
  simp only [Option.eq_none_iff_forall_ne_some, ne_eq, reads_element.readList?_eq_some_iff, IsList,
    not_exists]

/-- **A header value is read as a token list exactly if the grammar has it**, and what is read are
the tokens in it, in their order and casing. -/
theorem parse?_iff_spellsList (value : String) :
    (∀ l : TokenList, parse? value = some l ↔ SpellsList IsToken l.tokens value.toList) ∧
      (parse? value = none ↔ ¬ ∃ tokens, SpellsList IsToken tokens value.toList) := by
  have hread {tokens : List String} : element.readList? value.toList = some tokens ↔
      SpellsList IsToken tokens value.toList := reads_element.readList?_eq_some_iff
  constructor
  · intro l
    rw [← hread, parse?, Option.map_eq_some_iff]
    constructor
    · rintro ⟨tokens, htokens, rfl⟩
      exact htokens
    · exact fun h ↦ ⟨l.tokens, h, rfl⟩
  · simp only [parse?, Option.map_eq_none_iff]
    simp only [Option.eq_none_iff_forall_ne_some, ne_eq, hread, not_exists]

example : parse? ",, a ,,b,  ," = some ⟨["a", "b"]⟩ := by decide +kernel

example :
    ["", ",", ", ,", " a", "a b", "a, \"b\"", "a;b"].map parse? = List.replicate 7 none := by
  decide +kernel

end TokenList

end HttpFraming
