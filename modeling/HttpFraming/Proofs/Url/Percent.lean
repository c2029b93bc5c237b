import HttpFraming.Proofs.Text.Ascii
import HttpFraming.Url.Percent
import Mathlib.Data.List.Infix

/-!
# Normal forms of escapes

Normalization of escapes leaves a text as it is exactly when each escape in it is in normal form
(`Percent.normalizeChars_eq_self_iff`). Where every percent sign begins an escape, one pass is
enough to get there (`Percent.isNormal_normalizeChars`). Elsewhere it need not be: an unreserved
octet that is written as itself may complete an escape that a percent sign in front of it did not
begin.

## Escapes anywhere in a text

That an escape is in normal form is said of every three characters in a row that are an escape
(`IsNormal`), and not of those only that a reader from the front would meet. This is what a second
pass goes by, and what can be said of a piece of a text. A pass from the front sees the same
escapes, as no escape begins inside another: a digit is no percent sign (`ne_of_value?`). So
`IsNormal` follows the equations of the pass (`isNormal_escape`,
`isNormal_cons_of_not_beginsEscape`), and the proofs by induction on the pass have one line for each
of them.

## Lengths

A pass never makes a text longer, and makes it shorter where it replaces an escape by the octet. So
a text that it leaves as it is has no escape of an unreserved octet, which would be hard to see from
the characters alone: what has been moved up might be the same by chance.
-/

namespace HttpFraming.Percent

open CharClass Hexadecimal

/-- Every escape in a text stands for an octet that needs one, and has upper-case digits. -/
def IsNormal (s : List Char) : Prop :=
  ∀ h l a b, ['%', h, l] <:+: s → value? h.toNat = some a → value? l.toNat = some b →
    isUnreserved (16 * a + b) = false ∧ h = digit a ∧ l = digit b

/-- Whether a text begins with an escape. -/
def beginsEscape : List Char → Bool
  | '%' :: h :: l :: _ => (value? h.toNat).isSome && (value? l.toNat).isSome
  | _ => false

/-- Every percent sign in a text begins an escape. -/
def WellEscaped (s : List Char) : Prop :=
  ∀ t ∈ s.tails, t.head? = some '%' → beginsEscape t = true

instance (s : List Char) : Decidable (WellEscaped s) :=
  inferInstanceAs (Decidable (∀ t ∈ s.tails, _))

variable {s t : List Char} {c h l : Char} {a b : Nat}

/-! ### Escapes in a text -/

theorem not_beginsEscape_of_ne (hc : c ≠ '%') : beginsEscape (c :: s) = false := by
  rw [beginsEscape.eq_def]
  split
  · exact (hc (List.cons.inj ‹_›).1).elim
  · rfl

theorem beginsEscape_of_escape (hp : ['%', h, l] <+: s) (ha : value? h.toNat = some a)
    (hb : value? l.toNat = some b) : beginsEscape s = true := by
  obtain ⟨rest, rfl⟩ := hp
  simp [beginsEscape, ha, hb]

theorem ne_of_value? (ha : value? h.toNat = some a) : h ≠ '%' ∧ h ≠ '/' := by
  constructor <;> rintro rfl <;> cases ha

theorem isNormal_nil : IsNormal [] := by
  intro h l a b hpiece
  cases List.infix_nil.1 hpiece

/-- Where no escape begins, the first character does not matter. -/
theorem isNormal_cons_of_not_beginsEscape (hs : beginsEscape (c :: s) = false) :
    IsNormal (c :: s) ↔ IsNormal s := by
  refine forall₄_congr fun h l a b ↦ ?_
  rw [List.infix_cons_iff]
  constructor
  · intro hnormal hpiece
    exact hnormal (.inr hpiece)
  · rintro hnormal (hfront | hpiece) ha hb
    · exact absurd (beginsEscape_of_escape hfront ha hb) (by rw [hs]; exact Bool.false_ne_true)
    · exact hnormal hpiece ha hb

theorem isNormal_cons_of_ne (hc : c ≠ '%') : IsNormal (c :: s) ↔ IsNormal s :=
  isNormal_cons_of_not_beginsEscape (not_beginsEscape_of_ne hc)

/-- An escape in front of a text is in normal form, and so is the rest. -/
theorem isNormal_escape (ha : value? h.toNat = some a) (hb : value? l.toNat = some b) :
    IsNormal ('%' :: h :: l :: s) ↔
      (isUnreserved (16 * a + b) = false ∧ h = digit a ∧ l = digit b) ∧ IsNormal s := by
  rw [← isNormal_cons_of_ne (s := s) (ne_of_value? hb).1,
    ← isNormal_cons_of_ne (s := l :: s) (ne_of_value? ha).1]
  constructor
  · intro hnormal
    refine ⟨hnormal h l a b (List.IsPrefix.isInfix ⟨s, rfl⟩) ha hb, ?_⟩
    exact fun h' l' a' b' hpiece ↦ hnormal h' l' a' b' (List.infix_cons hpiece)
  · rintro ⟨hescape, hnormal⟩ h' l' a' b' hpiece ha' hb'
    rcases List.infix_cons_iff.1 hpiece with ⟨rest, hfront⟩ | hpiece
    · cases hfront
      cases ha.symm.trans ha'
      cases hb.symm.trans hb'
      exact hescape
    · exact hnormal h' l' a' b' hpiece ha' hb'

/-- What begins with a slash completes no escape. -/
theorem IsNormal.append (hs : IsNormal s) (ht : IsNormal t) (hslash : ∀ d ∈ t.head?, d = '/') :
    IsNormal (s ++ t) := by
  intro h l a b hpiece ha hb
  rcases List.infix_append_iff.1 hpiece with hpiece | hpiece | ⟨x, y, hxy, hx, hy⟩
  · exact hs h l a b hpiece ha hb
  · exact ht h l a b hpiece ha hb
  · cases y with
    | nil =>
      rw [List.append_nil] at hxy
      exact hs h l a b (hxy ▸ hx.isInfix) ha hb
    | cons d y =>
      obtain ⟨t, rfl⟩ := hy
      obtain rfl := hslash d rfl
      have hmem : '/' ∈ ['%', h, l] := hxy ▸ List.mem_append_right x List.mem_cons_self
      simp only [List.mem_cons, List.not_mem_nil, or_false] at hmem
      rcases hmem with heq | heq | heq
      · cases heq
      · exact absurd heq.symm (ne_of_value? ha).2
      · exact absurd heq.symm (ne_of_value? hb).2

/-! ### One pass -/

/-- An unreserved octet as a character. -/
theorem toNat_ofNat_of_isUnreserved {n : Nat} (h : isUnreserved n = true) :
    (Char.ofNat n).toNat = n := by
  refine Utf8.toNat_ofNat_of_lt ?_
  simp only [isUnreserved, isAlphanumeric, isAlpha, isDigit, Bool.or_eq_true, Bool.and_eq_true,
    decide_eq_true_eq, beq_iff_eq] at h
  omega

theorem isUnreserved_digit : ∀ d < 16, isUnreserved (digit d).toNat = true := by
  decide

theorem length_normalEscape_le : (normalEscape a b).length ≤ 3 := by
  rw [normalEscape]
  split <;> simp

/-- A pass makes no text longer. -/
theorem length_normalizeChars_le (s : List Char) : (normalizeChars s).length ≤ s.length := by
  fun_induction normalizeChars s with
  | case1 => exact le_rfl
  | case2 h l rest a b hb ha ih =>
    have hescape := length_normalEscape_le (a := a) (b := b)
    rw [List.length_append, List.length_cons, List.length_cons, List.length_cons]
    omega
  | case3 h l rest hnone ih => exact Nat.succ_le_succ ih
  | case4 c rest hother ih => exact Nat.succ_le_succ ih

/-- A pass writes nothing but unreserved characters that were not there. -/
theorem mem_or_isUnreserved_of_mem_normalizeChars (hc : c ∈ normalizeChars s) :
    c ∈ s ∨ isUnreserved c.toNat = true := by
  fun_induction normalizeChars s with
  | case1 => cases hc
  | case2 h l rest a b hb ha ih =>
    rcases List.mem_append.1 hc with hc | hc
    · rw [normalEscape] at hc
      split at hc
      · rename_i hunreserved
        obtain rfl := List.mem_singleton.1 hc
        exact .inr ((toNat_ofNat_of_isUnreserved hunreserved).symm ▸ hunreserved)
      · simp only [List.mem_cons, List.not_mem_nil, or_false] at hc
        rcases hc with rfl | rfl | rfl
        · exact .inl List.mem_cons_self
        · exact .inr (isUnreserved_digit a (value?_lt ha))
        · exact .inr (isUnreserved_digit b (value?_lt hb))
    · exact (ih hc).imp_left fun hmem ↦
        List.mem_cons_of_mem _ (List.mem_cons_of_mem _ (List.mem_cons_of_mem _ hmem))
  | case3 h l rest hnone ih =>
    rcases List.mem_cons.1 hc with rfl | hc
    · exact .inl List.mem_cons_self
    · exact (ih hc).imp_left (List.mem_cons_of_mem _)
  | case4 c rest hother ih =>
    rcases List.mem_cons.1 hc with rfl | hc
    · exact .inl List.mem_cons_self
    · exact (ih hc).imp_left (List.mem_cons_of_mem _)

/-- Two characters that are not both digits do not complete an escape. -/
theorem not_beginsEscape_of_value? (hnone : ∀ a b, value? h.toNat = some a →
    value? l.toNat = some b → False) : beginsEscape ('%' :: h :: l :: s) = false := by
  rw [beginsEscape, Bool.and_eq_false_iff]
  cases ha : value? h.toNat with
  | none => exact .inl rfl
  | some a =>
    cases hb : value? l.toNat with
    | none => exact .inr rfl
    | some b => exact (hnone a b ha hb).elim

theorem not_beginsEscape_of_short (hother : ∀ h l rest, c = '%' → s = h :: l :: rest → False) :
    beginsEscape (c :: s) = false := by
  rw [beginsEscape.eq_def]
  split
  · rename_i heq
    obtain ⟨rfl, rfl⟩ := List.cons.inj heq
    exact (hother _ _ _ rfl rfl).elim
  · rfl

/-- **A text stays as it is exactly when each of its escapes is in normal form.** -/
theorem normalizeChars_eq_self_iff (s : List Char) : normalizeChars s = s ↔ IsNormal s := by
  fun_induction normalizeChars s with
  | case1 => exact iff_of_true rfl isNormal_nil
  | case2 h l rest a b hb ha ih =>
    rw [isNormal_escape ha hb, ← ih, normalEscape]
    split
    · rename_i hunreserved
      -- The octet has taken the place of its escape, and the text is shorter.
      refine iff_of_false (fun heq ↦ ?_) (by simp [hunreserved])
      have hlength := congrArg List.length heq
      have hrest := length_normalizeChars_le rest
      simp only [List.length_append, List.length_cons, List.length_nil] at hlength
      omega
    · rename_i hreserved
      simp [hreserved, eq_comm, and_assoc]
  | case3 h l rest hnone ih =>
    rw [isNormal_cons_of_not_beginsEscape (not_beginsEscape_of_value? hnone), ← ih,
      List.cons.injEq, and_iff_right rfl]
  | case4 c rest hother ih =>
    rw [isNormal_cons_of_not_beginsEscape (not_beginsEscape_of_short hother), ← ih,
      List.cons.injEq, and_iff_right rfl]

/-- Percent signs in the rest of a text begin escapes if all of them do. -/
theorem WellEscaped.of_suffix (h : WellEscaped s) (ht : t <:+ s) : WellEscaped t :=
  fun x hx ↦ h x ((List.mem_tails _ _).2 (((List.mem_tails _ _).1 hx).trans ht))

/-- Where every percent sign begins an escape, one pass brings all of them to their normal form. -/
theorem isNormal_normalizeChars (hs : WellEscaped s) : IsNormal (normalizeChars s) := by
  fun_induction normalizeChars s with
  | case1 => exact isNormal_nil
  | case2 h l rest a b hb ha ih =>
    have hrest := ih (hs.of_suffix ⟨['%', h, l], rfl⟩)
    rw [normalEscape]
    split
    · rename_i hunreserved
      -- The octet in the place of the escape is unreserved, and so no percent sign.
      refine (isNormal_cons_of_ne fun heq ↦ ?_).2 hrest
      have hpercent := (toNat_ofNat_of_isUnreserved hunreserved).symm ▸ hunreserved
      rw [heq] at hpercent
      cases hpercent
    · rename_i hreserved
      have hvalue := value?_digit a (value?_lt ha)
      have hvalue' := value?_digit b (value?_lt hb)
      exact (isNormal_escape hvalue hvalue').2 ⟨⟨by simpa using hreserved, rfl, rfl⟩, hrest⟩
  | case3 h l rest hnone ih =>
    have hescape := hs _ ((List.mem_tails _ _).2 List.suffix_rfl) rfl
    exact absurd (not_beginsEscape_of_value? hnone ▸ hescape) Bool.false_ne_true
  | case4 c rest hother ih =>
    refine (isNormal_cons_of_ne ?_).2 (ih (hs.of_suffix (List.suffix_cons _ _)))
    rintro rfl
    have hescape := hs _ ((List.mem_tails _ _).2 List.suffix_rfl) rfl
    exact absurd (not_beginsEscape_of_short hother ▸ hescape) Bool.false_ne_true

end HttpFraming.Percent
