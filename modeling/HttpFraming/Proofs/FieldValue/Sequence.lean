import HttpFraming.FieldValue.Sequence
import Mathlib.Data.List.TakeWhile

/-!
# The grammar of comma separated sequences

Which texts are lists is told here by a relation that follows the grammar rule, for elements of any
kind: `FieldValue.SpellsList`. An element is told by a relation, too, and
`FieldValue.ElementReader.Reads` is what a reader has to satisfy to read it: it takes one from the
front of a text, and finds every one that a comma, blanks or the end follow. With such a reader,
lists are read exactly where the grammar has them (`readList?_eq_some_iff`).

## The grammar is not unambiguous

Blanks and commas between two elements can be divided between the empty elements in more than one
way, which the reader need not decide: what it reads after a comma, it can also read if that comma
belongs to an empty element (`readNext?_of_readMore?`). For the same reason two lists with a comma
between them are one list (`FieldValue.SpellsList.append`). The elements are nevertheless
determined, because there is a reader (`Reads.spellsList_unique`).

## The two directions

* What is read is spelled so (`Reads.spellsMore_of_readMore?`). The recursion is that of the reader,
  and follows what is left, which grows shorter with each element.
* What is spelled so is read (`Reads.readMore?_of_spellsMore`). The induction is on the grammar.
  That an element ends where the list goes on is the condition `Closes`, which is the only thing
  that a list says about what follows its elements.

Both are about what follows an element. What stands in front of the first one is treated alone,
since it may not begin with a blank.
-/

namespace HttpFraming.FieldValue

open CharClass

variable {α : Type}

/-! ### The grammar -/

/-- Blanks, or nothing: `OWS`. -/
def IsBlank (s : List Char) : Prop :=
  ∀ c ∈ s, isWhitespace c.toNat = true

/-- Empty elements in front of a list: `*( "," OWS )`. -/
inductive SpellsEmpty : List Char → Prop
  | nil : SpellsEmpty []
  | cons {blanks s : List Char} (blank : IsBlank blanks) (rest : SpellsEmpty s) :
    SpellsEmpty (',' :: (blanks ++ s))

/-- What follows an element up to the end, where `E` tells how elements are spelled:
`*( OWS "," [ OWS element ] ) OWS`. -/
inductive SpellsMore (E : α → List Char → Prop) : List α → List Char → Prop
  | nil {blanks : List Char} (blank : IsBlank blanks) : SpellsMore E [] blanks
  | empty {as : List α} {blanks s : List Char} (blank : IsBlank blanks)
    (more : SpellsMore E as s) : SpellsMore E as (blanks ++ ',' :: s)
  | cons {a : α} {as : List α} {blanks blanks' t s : List Char} (blank : IsBlank blanks)
    (blank' : IsBlank blanks') (element : E a t) (more : SpellsMore E as s) :
    SpellsMore E (a :: as) (blanks ++ ',' :: (blanks' ++ (t ++ s)))

/-- A list: `*( "," OWS ) element *( OWS "," [ OWS element ] ) OWS`. -/
inductive SpellsList (E : α → List Char → Prop) : List α → List Char → Prop
  | mk {a : α} {as : List α} {front t s : List Char} (empty : SpellsEmpty front)
    (element : E a t) (more : SpellsMore E as s) : SpellsList E (a :: as) (front ++ (t ++ s))

/-- An element can end here: a comma follows, or nothing, perhaps after blanks. -/
def Closes (s : List Char) : Prop :=
  ∀ c ∈ (skipWhitespace s).head?, c = ','

/-- A reader reads elements that are spelled as `E` tells. -/
structure ElementReader.Reads (e : ElementReader α) (E : α → List Char → Prop) : Prop where
  /-- What an element begins with does not belong to what is between elements. -/
  begins : ∀ {a t}, E a t → ∃ c r, t = c :: r ∧ c ≠ ',' ∧ isWhitespace c.toNat = false
  /-- What is read is an element in front of what is left. -/
  sound : ∀ {s rest a}, e.read? s = some (a, rest) → ∃ t, E a t ∧ s = t ++ rest
  /-- An element is read as far as it goes. -/
  complete : ∀ {a t rest}, E a t → Closes rest → e.read? (t ++ rest) = some (a, rest)

variable {E : α → List Char → Prop} {a : α} {as : List α} {blanks blanks' front s t : List Char}

/-! ### Blanks and empty elements -/

theorem skipWhitespace_append (h : IsBlank blanks) (s : List Char) :
    skipWhitespace (blanks ++ s) = skipWhitespace s :=
  List.dropWhile_append_of_pos h

theorem skipWhitespace_of_isBlank (h : IsBlank blanks) : skipWhitespace blanks = [] :=
  List.dropWhile_eq_nil_iff.2 h

theorem skipWhitespace_cons_of_not {c : Char} (h : isWhitespace c.toNat = false) (s : List Char) :
    skipWhitespace (c :: s) = c :: s :=
  List.dropWhile_cons_of_neg (by simp [h])

/-- What is skipped are blanks. -/
theorem exists_blank_append_skipWhitespace (s : List Char) :
    ∃ blanks, IsBlank blanks ∧ s = blanks ++ skipWhitespace s :=
  ⟨s.takeWhile fun c ↦ isWhitespace c.toNat, fun _ hc ↦
    List.mem_takeWhile_imp (p := fun c : Char ↦ isWhitespace c.toNat) hc,
    List.takeWhile_append_dropWhile.symm⟩

/-- Whatever follows an element in a list, the element can end there. -/
theorem SpellsMore.closes (h : SpellsMore E as s) : Closes s := by
  intro c hc
  cases h with
  | nil hblank =>
    rw [skipWhitespace_of_isBlank hblank] at hc
    cases hc
  | empty hblank | cons hblank =>
    rw [skipWhitespace_append hblank] at hc
    exact (Option.some.inj hc).symm

/-- Empty elements go on a list that has ended. -/
theorem SpellsEmpty.spellsMore_nil (h : SpellsEmpty front) (hblank : IsBlank blanks) :
    SpellsMore E [] (blanks ++ front) := by
  induction h generalizing blanks with
  | nil =>
    rw [List.append_nil]
    exact .nil hblank
  | cons hblank' _ ih => exact .empty hblank (ih hblank')

/-- Empty elements may stand in front of any further element. -/
theorem SpellsEmpty.spellsMore_cons (h : SpellsEmpty front) (hblank : IsBlank blanks)
    (hblank' : IsBlank blanks') (ht : E a t) (hs : SpellsMore E as s) :
    SpellsMore E (a :: as) (blanks ++ ',' :: (blanks' ++ (front ++ (t ++ s)))) := by
  induction h generalizing blanks blanks' with
  | nil => exact SpellsMore.cons (t := t) hblank hblank' ht hs
  | @cons blanks'' front hblank'' _ ih =>
    rw [List.cons_append, List.append_assoc]
    exact .empty hblank (ih hblank' hblank'')

/-! ### Lists one after the other -/

/-- A list goes on after a comma with the elements of another. -/
theorem SpellsMore.append {bs : List α} (h : SpellsMore E as s) (h' : SpellsList E bs t) :
    SpellsMore E (as ++ bs) (s ++ ',' :: t) := by
  induction h with
  | nil hblank =>
    obtain ⟨hempty, ht, hmore⟩ := h'
    have hnone : IsBlank [] := by simp [IsBlank]
    exact hempty.spellsMore_cons hblank hnone ht hmore
  | empty hblank _ ih =>
    rw [List.append_assoc, List.cons_append]
    exact .empty hblank ih
  | cons hblank hblank' ht _ ih =>
    simp only [List.append_assoc, List.cons_append]
    exact .cons hblank hblank' ht ih

/-- Two lists with a comma between them are one list. -/
theorem SpellsList.append {bs : List α} (h : SpellsList E as s) (h' : SpellsList E bs t) :
    SpellsList E (as ++ bs) (s ++ ',' :: t) := by
  obtain ⟨hempty, ht, hmore⟩ := h
  rw [List.append_assoc, List.append_assoc]
  exact .mk hempty ht (hmore.append h')

namespace ElementReader

/-- What is skipped in front of an element are empty elements. -/
theorem exists_append_skipEmpty (s : List Char) :
    ∃ front, SpellsEmpty front ∧ s = front ++ skipEmpty s := by
  fun_induction skipEmpty s with
  | case1 rest ih =>
    obtain ⟨blanks, hblank, hrest⟩ := exists_blank_append_skipWhitespace rest
    obtain ⟨front, hfront, heq⟩ := ih
    refine ⟨',' :: (blanks ++ front), .cons hblank hfront, ?_⟩
    rw [List.cons_append, List.append_assoc, ← heq, ← hrest]
  | case2 s _ => exact ⟨[], .nil, rfl⟩

/-- Only a comma begins an empty element. -/
theorem skipEmpty_cons_of_ne {c : Char} (h : c ≠ ',') (s : List Char) :
    skipEmpty (c :: s) = c :: s := by
  rw [skipEmpty.eq_def]
  split
  · exact absurd (List.cons.inj ‹_›).1 h
  · rfl

/-- In front of what begins an element, empty elements are skipped, and nothing else. -/
theorem skipEmpty_append {c : Char} (h : SpellsEmpty front) (hcomma : c ≠ ',')
    (hblank : isWhitespace c.toNat = false) (s : List Char) :
    skipEmpty (front ++ c :: s) = c :: s := by
  induction h with
  | nil => exact skipEmpty_cons_of_ne hcomma s
  | @cons blanks front hblanks hfront ih =>
    have hskip : skipWhitespace (front ++ c :: s) = front ++ c :: s := by
      cases hfront with
      | nil => exact skipWhitespace_cons_of_not hblank s
      | cons => exact skipWhitespace_cons_of_not rfl _
    rw [List.cons_append, List.append_assoc, skipEmpty, skipWhitespace_append hblanks, hskip, ih]

/-! ### Reading -/

variable {e : ElementReader α}

/-- Reads what follows a comma to the end of the text. -/
def readNext? (e : ElementReader α) (s : List Char) : Option (List α) :=
  match skipEmpty (skipWhitespace s) with
  | [] => some []
  | c :: next =>
    match e.read? (c :: next) with
    | none => none
    | some (a, after) => (e.readMore? after).map (a :: ·)

/-- After the last element there may be blanks. -/
theorem readMore?_of_blank (h : skipWhitespace s = []) : e.readMore? s = some [] := by
  rw [readMore?]
  split
  · rfl
  all_goals cases h.symm.trans ‹_›

/-- After an element and a comma, reading goes on behind the comma. -/
theorem readMore?_of_comma {rest : List Char} (h : skipWhitespace s = ',' :: rest) :
    e.readMore? s = e.readNext? rest := by
  rw [readMore?, readNext?]
  split
  · cases h.symm.trans ‹_›
  · rename_i hs
    cases h.symm.trans hs
    split <;> rename_i hskip _ <;> simp only [hskip]
    split <;> simp only [*]
  · rename_i hne hs
    cases h.symm.trans hs
    exact absurd rfl hne

/-- Nothing but a comma may follow an element and its blanks. -/
theorem readMore?_of_other {c : Char} {rest : List Char} (h : skipWhitespace s = c :: rest)
    (hc : c ≠ ',') : e.readMore? s = none := by
  rw [readMore?]
  split
  · cases h.symm.trans ‹_›
  · cases h.symm.trans ‹_›
    exact absurd rfl hc
  · rfl

/-- What follows an element can also follow a comma, which then belongs to an empty element. -/
theorem readNext?_of_readMore? (h : e.readMore? s = some as) : e.readNext? s = some as := by
  cases hs : skipWhitespace s with
  | nil =>
    rw [readMore?_of_blank hs] at h
    rw [readNext?, hs, skipEmpty]
    · exact h
    · intro rest hnil
      cases hnil
  | cons c rest =>
    by_cases hc : c = ','
    · subst hc
      rw [readMore?_of_comma hs] at h
      rw [readNext?, hs, skipEmpty]
      exact h
    · rw [readMore?_of_other hs hc] at h
      cases h

/-- After an element that follows a comma, less is left than before that comma. -/
theorem length_lt_of_readNext {c : Char} {rest next after : List Char}
    (hs : skipWhitespace s = ',' :: rest) (hskip : skipEmpty (skipWhitespace rest) = c :: next)
    (hread : e.read? (c :: next) = some (a, after)) : after.length < s.length :=
  calc after.length
    _ ≤ (skipEmpty (skipWhitespace rest)).length := hskip ▸ e.length_le hread
    _ ≤ rest.length := (length_skipEmpty_le _).trans (length_skipWhitespace_le rest)
    _ < (skipWhitespace s).length := by simp [hs]
    _ ≤ s.length := length_skipWhitespace_le s

namespace Reads

variable (he : e.Reads E)
include he

/-- What is read after an element is spelled so by the grammar. -/
theorem spellsMore_of_readMore? {s : List Char} {as : List α} (h : e.readMore? s = some as) :
    SpellsMore E as s := by
  obtain ⟨blanks, hblank, heq⟩ := exists_blank_append_skipWhitespace s
  cases hs : skipWhitespace s with
  | nil =>
    rw [readMore?_of_blank hs] at h
    obtain rfl := Option.some.inj h
    rw [heq, hs, List.append_nil]
    exact .nil hblank
  | cons c rest =>
    by_cases hc : c = ','
    · subst hc
      obtain ⟨blanks', hblank', heq'⟩ := exists_blank_append_skipWhitespace rest
      obtain ⟨front, hfront, hfront'⟩ := exists_append_skipEmpty (skipWhitespace rest)
      rw [readMore?_of_comma hs, readNext?] at h
      rw [heq, hs, heq', hfront']
      split at h
      · rename_i hskip
        obtain rfl := Option.some.inj h
        rw [hskip, List.append_nil]
        exact .empty hblank (hfront.spellsMore_nil hblank')
      · rename_i c next hskip
        split at h
        · cases h
        · rename_i a after hread
          have hlt : after.length < s.length := length_lt_of_readNext hs hskip hread
          obtain ⟨as', has, rfl⟩ := Option.map_eq_some_iff.1 h
          obtain ⟨t, ht, hnext⟩ := he.sound hread
          -- The blanks and commas that the reader has skipped are those of empty elements.
          rw [hskip, hnext]
          exact hfront.spellsMore_cons hblank hblank' ht (spellsMore_of_readMore? has)
    · rw [readMore?_of_other hs hc] at h
      cases h
termination_by s.length

/-- What the grammar has after an element is read. -/
theorem readMore?_of_spellsMore (h : SpellsMore E as s) : e.readMore? s = some as := by
  induction h with
  | nil hblank => exact readMore?_of_blank (skipWhitespace_of_isBlank hblank)
  -- An empty element: the reader skips it together with those that follow.
  | @empty as blanks s hblank _ ih =>
    have hcomma : skipWhitespace (blanks ++ ',' :: s) = ',' :: s := skipWhitespace_append hblank _
    rw [readMore?_of_comma hcomma]
    exact readNext?_of_readMore? ih
  | @cons a as blanks blanks' t s hblank hblank' ht hs ih =>
    have hcomma : skipWhitespace (blanks ++ ',' :: (blanks' ++ (t ++ s))) =
        ',' :: (blanks' ++ (t ++ s)) := skipWhitespace_append hblank _
    have hread := he.complete ht hs.closes
    obtain ⟨c, r, rfl, hc, hc'⟩ := he.begins ht
    have hnext : skipEmpty (skipWhitespace (blanks' ++ (c :: r ++ s))) = c :: r ++ s := by
      rw [skipWhitespace_append hblank', List.cons_append, skipWhitespace_cons_of_not hc',
        skipEmpty_cons_of_ne hc]
    rw [readMore?_of_comma hcomma, readNext?, hnext]
    simp only [List.cons_append] at hread ⊢
    rw [hread]
    exact congrArg (Option.map (a :: ·)) ih

/-- **Lists are read exactly where the grammar has them.** -/
theorem readList?_eq_some_iff : e.readList? s = some as ↔ SpellsList E as s := by
  constructor
  · intro h
    obtain ⟨front, hfront, heq⟩ := exists_append_skipEmpty s
    rw [readList?] at h
    split at h
    · cases h
    · rename_i c next hskip
      split at h
      · cases h
      · rename_i a rest hread
        obtain ⟨as', has, rfl⟩ := Option.map_eq_some_iff.1 h
        obtain ⟨t, ht, hnext⟩ := he.sound hread
        rw [heq, hskip, hnext]
        exact .mk hfront ht (he.spellsMore_of_readMore? has)
  · intro h
    cases h with
    | @mk a as front t s hfront ht hs =>
      have hread := he.complete ht hs.closes
      obtain ⟨c, r, rfl, hc, hc'⟩ := he.begins ht
      rw [List.cons_append] at hread ⊢
      simp only [readList?, skipEmpty_append hfront hc hc', hread, he.readMore?_of_spellsMore hs,
        Option.map_some]

/-- A text is refused exactly where the grammar has no list. -/
theorem readList?_eq_none_iff : e.readList? s = none ↔ ¬ ∃ as, SpellsList E as s := by
  simp only [Option.eq_none_iff_forall_ne_some, ne_eq, he.readList?_eq_some_iff, not_exists]

/-- What the elements of a list are does not depend on how its blanks and commas are divided. -/
theorem spellsList_unique {as' : List α} (h : SpellsList E as s) (h' : SpellsList E as' s) :
    as = as' :=
  Option.some.inj ((he.readList?_eq_some_iff.2 h).symm.trans (he.readList?_eq_some_iff.2 h'))

end Reads

end ElementReader

end HttpFraming.FieldValue
