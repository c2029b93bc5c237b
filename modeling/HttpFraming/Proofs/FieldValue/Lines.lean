import HttpFraming.Proofs.FieldValue.ExtensionList

/-!
# Lists in several lines

A header that is given more than once means what it would mean if its values were joined by commas.
Values are read one by one, so that a value which is no list of its own spoils all of them
(`ReadsLines`); the values that are lists are one list when they are joined, because a list can go
on after any comma (`FieldValue.SpellsList.append`).

## One statement for two kinds of list

Token lists and extension lists are made by wrapping the elements that a reader has found. So the
statement `ReadsLines` is about any two functions, one for a single value and one for several, and
is proved of any element reader that satisfies its grammar (`Reads.readsLines`). The two kinds of
list are then two cases of it.

It does not hold without values: no value at all is not a list, and joining nothing gives the empty
text, which is none either, but there the two answers are given for different reasons. The statement
is made for headers that are there.

## Joined, but not divided

The converse of `ReadsLines.joined` does not hold. A comma in a quoted string divides nothing, so
that a value with such a comma may be cut into two that are lists or into two that are none.
-/

namespace HttpFraming

section

variable {α β : Type} {f : α → Option β} {l : List α}

/-- All of some elements have a result exactly where the results can be listed. -/
theorem mapM_eq_some_iff {l' : List β} : l.mapM f = some l' ↔ l.map f = l'.map some := by
  induction l generalizing l' with
  | nil => cases l' <;> simp
  | cons a l ih =>
    rw [List.mapM_cons]
    cases l' with
    | nil => cases f a <;> cases l.mapM f <;> simp
    | cons b l' =>
      rw [List.map_cons, List.map_cons, List.cons.injEq, ← ih]
      cases f a <;> cases l.mapM f <;> simp

/-- Some elements have no result together exactly where one of them has none. -/
theorem mapM_eq_none_iff : l.mapM f = none ↔ ∃ a ∈ l, f a = none := by
  induction l with
  | nil => simp
  | cons a l ih =>
    simp only [List.mem_cons, exists_eq_or_imp, ← ih, List.mapM_cons]
    cases f a <;> cases l.mapM f <;> simp

end

namespace FieldValue.ElementReader

variable {α : Type} {e : ElementReader α} {E : α → List Char → Prop} {as : List α}
  {lists : List (List α)} {texts : List (List Char)}

/-- Values that are there are read one by one. -/
theorem readLists?_of_ne_nil (hne : texts ≠ []) :
    e.readLists? texts = (texts.mapM e.readList?).map List.flatten := by
  cases texts with
  | nil => exact absurd rfl hne
  | cons text texts => rfl

/-- Values are a list together if each is a list, and it has the elements of all. -/
theorem readLists?_eq_some_iff (hne : texts ≠ []) : e.readLists? texts = some as ↔
    ∃ lists : List (List α), texts.map e.readList? = lists.map some ∧ lists.flatten = as := by
  simp only [readLists?_of_ne_nil hne, Option.map_eq_some_iff, mapM_eq_some_iff]

/-- Values are no list together exactly where one of them is none. -/
theorem readLists?_eq_none_iff (hne : texts ≠ []) :
    e.readLists? texts = none ↔ ∃ text ∈ texts, e.readList? text = none := by
  rw [readLists?_of_ne_nil hne, Option.map_eq_none_iff, mapM_eq_none_iff]

/-- Lists that are joined by commas are a list. -/
theorem Reads.spellsList_intercalate (he : e.Reads E) (hne : texts ≠ [])
    (h : texts.map e.readList? = lists.map some) :
    SpellsList E lists.flatten ([','].intercalate texts) := by
  induction texts generalizing lists with
  | nil => exact absurd rfl hne
  | cons text texts ih =>
    obtain ⟨as, lists, rfl, htext, htexts⟩ := List.map_eq_cons_iff.1 h.symm
    have hfirst : SpellsList E as text := he.readList?_eq_some_iff.1 htext.symm
    cases texts with
    | nil =>
      obtain rfl := List.map_eq_nil_iff.1 htexts
      simpa using hfirst
    | cons text' texts =>
      rw [List.intercalate_cons_cons, List.append_assoc, List.flatten_cons]
      exact hfirst.append (ih (List.cons_ne_nil _ _) htexts.symm)

end FieldValue.ElementReader

/-- Values are no token list together if one of them is none. -/
theorem TokenList.parseAll?_eq_none_iff {values : List String} (hne : values ≠ []) :
    parseAll? values = none ↔ ∃ value ∈ values, ¬ IsList value := by
  rw [parseAll?, Option.map_eq_none_iff, element.readLists?_eq_none_iff (by simpa using hne)]
  simp only [List.mem_map, exists_exists_and_eq_and, readList?_element_eq_none_iff]

/-- The values of a header are lists apart from each other, or in one line. -/
structure ReadsLines {L α : Type} (parse? : String → Option L) (parseAll? : List String → Option L)
    (elements : L → List α) (values : List String) : Prop where
  /-- Values that are lists have together the elements of each, in their order. -/
  concatenated : ∀ lists : List L, values.map parse? = lists.map some →
    ∃ list, parseAll? values = some list ∧ elements list = lists.flatMap elements
  /-- A value that is no list spoils all of them. -/
  refused : (∃ value ∈ values, parse? value = none) → parseAll? values = none
  /-- What values are together, they are when they are joined by commas. -/
  joined : ∀ list, parseAll? values = some list → parse? (",".intercalate values) = some list

/-- Repeated lines of any kind of list, given the grammar of its elements. -/
theorem FieldValue.ElementReader.Reads.readsLines {L α : Type} {e : ElementReader α}
    {E : α → List Char → Prop} (he : e.Reads E) {mk : List α → L} {elements : L → List α}
    (hmk : ∀ as, elements (mk as) = as) {values : List String} (hne : values ≠ []) :
    ReadsLines (fun value ↦ (e.readList? value.toList).map mk)
      (fun values ↦ (e.readLists? (values.map String.toList)).map mk) elements values := by
  have hne' : values.map String.toList ≠ [] := by simpa using hne
  refine ⟨fun lists h ↦ ?_, fun hbad ↦ ?_, fun list h ↦ ?_⟩
  · have hread : (values.map String.toList).map e.readList? =
        (lists.map elements).map some := by
      simpa [Function.comp_def, hmk] using congrArg (List.map (Option.map elements)) h
    refine ⟨_, congrArg (Option.map mk) ((readLists?_eq_some_iff hne').2 ⟨_, hread, rfl⟩), ?_⟩
    rw [hmk, List.flatMap_def]
  · obtain ⟨value, hmem, hnone⟩ := hbad
    have hread := (readLists?_eq_none_iff hne').2
      ⟨value.toList, List.mem_map_of_mem hmem, Option.map_eq_none_iff.1 hnone⟩
    exact congrArg (Option.map mk) hread
  · obtain ⟨as, has, rfl⟩ := Option.map_eq_some_iff.1 h
    obtain ⟨lists, hread, rfl⟩ := (readLists?_eq_some_iff hne').1 has
    have hlist := he.readList?_eq_some_iff.2 (he.spellsList_intercalate hne' hread)
    rw [String.toList_intercalate]
    exact congrArg (Option.map mk) hlist

/-- **Header lines that are repeated mean what one line means that joins them.** They are read as
their lists one after the other, for tokens and for extensions alike. -/
theorem readsLines_of_ne_nil {values : List String} (h : values ≠ []) :
    ReadsLines TokenList.parse? TokenList.parseAll? TokenList.tokens values ∧
      ReadsLines ExtensionList.parse? ExtensionList.parseAll? ExtensionList.extensions values :=
  ⟨TokenList.reads_element.readsLines (fun _ ↦ rfl) h,
    ExtensionList.reads_element.readsLines (fun _ ↦ rfl) h⟩

/-- Empty elements at the seam, blanks at the ends, and a comma in a quoted string. -/
theorem readsLines_of_ne_nil_two :
    ["gzip;q=\"a,b\" ,", ",chunked "] ≠ [] ∧
      ExtensionList.parseAll? ["gzip;q=\"a,b\" ,", ",chunked "] =
        some ⟨[⟨"gzip", [⟨"q", "a,b"⟩]⟩, ⟨"chunked", []⟩]⟩ ∧
      ExtensionList.parse? (",".intercalate ["gzip;q=\"a,b\" ,", ",chunked "]) =
        some ⟨[⟨"gzip", [⟨"q", "a,b"⟩]⟩, ⟨"chunked", []⟩]⟩ := by
  have hread : ExtensionList.parseAll? ["gzip;q=\"a,b\" ,", ",chunked "] =
      some ⟨[⟨"gzip", [⟨"q", "a,b"⟩]⟩, ⟨"chunked", []⟩]⟩ := by decide +kernel
  exact ⟨by decide, hread, (readsLines_of_ne_nil (by decide)).2.joined _ hread⟩

end HttpFraming
