/-!
# Cutting a text at a character

URLs, query strings and versions are taken apart at the first character of some kind. `cut?` is that
one operation; its laws say that nothing is lost, and that the cut falls at the first place where it
can. Where the character found is not taken out, a text is divided into a run and the rest.

## The laws

* `cut?_eq_some_iff` says all there is to say of a cut that succeeds, in both directions: the parts
  make up the text, the character found has the property, and none before it does. Every reader that
  cuts is inverted with it.
* `cut?_eq_none_iff` says when there is no cut.
* The laws `cut?_mark_append` and `cut?_mark_eq_some_iff` are the same for one mark, such as a
  colon, where the character found is known.

## Runs

A token or a scheme is a run of characters of a class, and what comes after it is read by somebody
else. `takeWhile_append_of_head?` and `dropWhile_append_of_head?` say that the run and the rest do
not depend on each other, as long as the rest does not begin with a character of the class. That
condition is the one that the grammars put on neighbours.
-/

namespace HttpFraming

/-- Cuts at the first element with the property `p`: what stands before it, the element itself, and
what follows. -/
def cut? {α : Type} (p : α → Bool) : List α → Option (List α × α × List α)
  | [] => none
  | c :: cs =>
    if p c then some ([], c, cs)
    else (cut? p cs).map fun (before, d, after) ↦ (c :: before, d, after)

section
variable {α : Type} {p : α → Bool}

/-- There is no cut where no element has the property. -/
theorem cut?_eq_none_iff {s : List α} : cut? p s = none ↔ ∀ c ∈ s, p c = false := by
  induction s with
  | nil => simp [cut?]
  | cons c cs ih => by_cases h : p c = true <;> simp [cut?, h, ih]

/-- What a cut says of the text: the parts make it up, and the cut is the first possible one. -/
theorem eq_of_cut? {s before after : List α} {d : α} (h : cut? p s = some (before, d, after)) :
    s = before ++ d :: after ∧ p d = true ∧ ∀ c ∈ before, p c = false := by
  induction s generalizing before with
  | nil => simp [cut?] at h
  | cons c cs ih =>
    -- The head is the element that is looked for, or it stands before it.
    by_cases hc : p c = true
    · simp only [cut?, hc, if_true, Option.some.injEq, Prod.mk.injEq] at h
      obtain ⟨rfl, rfl, rfl⟩ := h
      simp [hc]
    · simp only [cut?, hc, Bool.false_eq_true, if_false, Option.map_eq_some_iff] at h
      obtain ⟨⟨bs, e, r⟩, hcut, heq⟩ := h
      simp only [Prod.mk.injEq] at heq
      obtain ⟨rfl, rfl, rfl⟩ := heq
      obtain ⟨rfl, hd, hb⟩ := ih hcut
      simp_all

/-- A text that is put together around an element with the property is cut there. -/
theorem cut?_append {before after : List α} {d : α} (hd : p d = true)
    (hb : ∀ c ∈ before, p c = false) : cut? p (before ++ d :: after) = some (before, d, after) := by
  induction before with
  | nil => simp [cut?, hd]
  | cons b bs ih => simp [cut?, hb b (by simp), ih fun c hc ↦ hb c (by simp [hc])]

/-- A cut falls at the first place where it can, and loses nothing. -/
theorem cut?_eq_some_iff {s before after : List α} {d : α} :
    cut? p s = some (before, d, after) ↔
      s = before ++ d :: after ∧ p d = true ∧ ∀ c ∈ before, p c = false :=
  ⟨eq_of_cut?, fun ⟨hs, hd, hb⟩ ↦ hs ▸ cut?_append hd hb⟩

/-- What is left behind a run is no longer than the whole. -/
theorem length_dropWhile_le (p : α → Bool) (s : List α) : (s.dropWhile p).length ≤ s.length :=
  (List.dropWhile_sublist p).length_le

/-! ### At a mark -/

section
variable [BEq α] [LawfulBEq α] {mark d : α} {s before after : List α}

/-- No element is the mark if the mark is not there. One form suits tests, the other statements. -/
theorem beq_mark_eq_false_iff : (∀ c ∈ s, (c == mark) = false) ↔ mark ∉ s := by
  constructor
  · exact fun h hmem ↦ Bool.false_ne_true ((h mark hmem).symm.trans (beq_self_eq_true mark))
  · exact fun h c hc ↦ beq_eq_false_iff_ne.2 fun heq ↦ h (heq ▸ hc)

theorem cut?_mark_eq_none_iff : cut? (· == mark) s = none ↔ mark ∉ s := by
  rw [cut?_eq_none_iff, beq_mark_eq_false_iff]

theorem cut?_mark_append (h : mark ∉ before) :
    cut? (· == mark) (before ++ mark :: after) = some (before, mark, after) :=
  cut?_append (beq_self_eq_true mark) (beq_mark_eq_false_iff.2 h)

/-- A cut at a mark, in both directions. -/
theorem cut?_mark_eq_some_iff : cut? (· == mark) s = some (before, d, after) ↔
    d = mark ∧ s = before ++ mark :: after ∧ mark ∉ before := by
  rw [cut?_eq_some_iff, beq_iff_eq, beq_mark_eq_false_iff]
  constructor
  · rintro ⟨rfl, rfl, h⟩
    exact ⟨rfl, rfl, h⟩
  · rintro ⟨rfl, rfl, h⟩
    exact ⟨rfl, rfl, h⟩

end

/-! ### Runs -/

/-- Where a run has to end, what comes after it does not matter. -/
theorem takeWhile_append_of_head? {s t : List α} (ht : ∀ c ∈ t.head?, p c = false) :
    (s ++ t).takeWhile p = s.takeWhile p := by
  induction s with
  | nil =>
    cases t with
    | nil => rfl
    | cons c t => simp [ht c rfl]
  | cons d s ih => cases hd : p d <;> simp [hd, ih]

/-- Behind a run, the rest is left whole if it does not begin with an element of the run. -/
theorem dropWhile_append_of_head? {s t : List α} (hs : ∀ c ∈ s, p c = true)
    (ht : ∀ c ∈ t.head?, p c = false) : (s ++ t).dropWhile p = t := by
  rw [List.dropWhile_append_of_pos hs]
  cases t with
  | nil => rfl
  | cons c t => exact List.dropWhile_cons_of_neg (by simp [ht c rfl])

/-- What is left begins where the run ends. -/
theorem eq_false_of_mem_head?_dropWhile {s : List α} {c : α} (hc : c ∈ (s.dropWhile p).head?) :
    p c = false := by
  have hdrop := List.head?_dropWhile_not p s
  rw [Option.mem_def.1 hc] at hdrop
  simpa using hdrop

end

end HttpFraming
