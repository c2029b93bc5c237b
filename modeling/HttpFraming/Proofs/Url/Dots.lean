import HttpFraming.Url.Normalize
import Mathlib.Data.List.Flatten
import Mathlib.Data.List.Infix
import Mathlib.Data.List.TakeWhile

/-!
# Paths without dot segments

The stack onto which a path is read holds segments that stay, and only the lowest of them can be
without a slash (`Path.Resolved`). Such a stack is what is read from its own text, so that to remove
dot segments once more changes nothing (`Path.removeDots_removeDots`). Nothing is added to a path,
nor brought into another order (`Path.removeDots_sublist`), and each segment that stays is a piece
of it (`Path.mem_or_infix_of_mem_segments`).

## How the proofs go

`segments` has ten equations, of which nine are about dots and the end of a path, and the last one
pushes a segment. Every induction here is along these equations, with one line for each. Two facts
carry the last case:

* what the last equation pushes is no dot segment, since all equations before it did not apply
  (`isSegment_cons`);
* what is left behind it is nothing or begins with a slash (`AtSlash`), and so the next segment has
  its slash in front.

## Why a slash has to follow

A stack is not read back from its text alone: if `a` is on it and `b` comes next in the input, the
text of both is `ab`, which is one segment. So what is proved of a stack with some input left
requires that the input begins with a slash, or that the stack is empty (`Resolved.segments`). The
second happens at the beginning of a path only, and after dots in front of it.
-/

namespace HttpFraming.Path

/-- A segment that stays, with the slash in front of it if it has one: no dot segment. -/
def IsSegment (s : List Char) : Prop :=
  s ≠ [] ∧ '/' ∉ s.tail ∧ s ∉ [['.'], ['.', '.'], ['/', '.'], ['/', '.', '.']]

instance (s : List Char) : Decidable (IsSegment s) :=
  inferInstanceAs (Decidable (_ ∧ _))

/-- The stacks of segments that reading a path gives. -/
inductive Resolved : List (List Char) → Prop
  | nil : Resolved []
  /-- Only the first segment can be without a slash. -/
  | first {s : List Char} (segment : IsSegment s) : Resolved [s]
  | push {s : List Char} {stack : List (List Char)} (segment : IsSegment ('/' :: s))
    (resolved : Resolved stack) : Resolved (('/' :: s) :: stack)

/-- Nothing is left, or a segment with a slash. -/
def AtSlash (s : List Char) : Prop :=
  ∀ c ∈ s.head?, c = '/'

variable {s t rest seg : List Char} {stack : List (List Char)} {c : Char}

/-! ### One segment -/

theorem atSlash_nil : AtSlash [] := by
  rintro c ⟨⟩

@[simp] theorem atSlash_cons : AtSlash (c :: s) ↔ c = '/' := by
  simp [AtSlash]

/-- Behind a segment nothing is left, or a slash. -/
theorem atSlash_dropWhile (s : List Char) : AtSlash (s.dropWhile (· != '/')) := by
  intro c hc
  simpa using eq_false_of_mem_head?_dropWhile hc

/-- What is read up to a slash is all of the rest, or a slash follows it. -/
theorem eq_or_exists_of_takeWhile {name : List Char} (h : rest.takeWhile (· != '/') = name) :
    rest = name ∨ ∃ r, rest = name ++ '/' :: r := by
  have hsplit := List.takeWhile_append_dropWhile (p := (· != '/')) (l := rest)
  have hslash := atSlash_dropWhile rest
  rw [h] at hsplit
  cases hdrop : rest.dropWhile (· != '/') with
  | nil =>
    rw [hdrop, List.append_nil] at hsplit
    exact .inl hsplit.symm
  | cons d r =>
    rw [hdrop, atSlash_cons] at hslash
    rw [hdrop, hslash] at hsplit
    exact .inr ⟨r, hsplit.symm⟩

/-- A segment that stays is pushed. -/
theorem segments_append (hs : IsSegment s) (ht : AtSlash t) (stack : List (List Char)) :
    segments stack (s ++ t) = segments (s :: stack) t := by
  obtain ⟨hne, hslash, hdots⟩ := hs
  cases s with
  | nil => exact absurd rfl hne
  | cons c s =>
    have hrun : ∀ d ∈ s, (d != '/') = true := by
      intro d hd
      exact bne_iff_ne.2 fun heq ↦ hslash (heq ▸ hd)
    have hend : ∀ d ∈ t.head?, (d != '/') = false := by
      intro d hd
      simpa using ht d hd
    have htake : (s ++ t).takeWhile (· != '/') = s := by
      rw [takeWhile_append_of_head? hend, List.takeWhile_eq_self_iff.2 hrun]
    rw [List.cons_append, segments, htake, dropWhile_append_of_head? hrun hend]
    -- None of the rules for dot segments applies, because the segment would be one.
    all_goals
      intros
      rename_i hc heq
      rw [heq] at htake
      exact hdots (by simp [hc, ← htake])

/-- What the last rule pushes is a segment that stays. -/
theorem isSegment_cons (hdot : ∀ r, c = '.' → rest = '/' :: r → False)
    (hdots : ∀ r, c = '.' → rest = '.' :: '/' :: r → False)
    (hslashDot : ∀ r, c = '/' → rest = '.' :: '/' :: r → False)
    (hslashDotEnd : c = '/' → rest = ['.'] → False)
    (hslashDots : ∀ r, c = '/' → rest = '.' :: '.' :: '/' :: r → False)
    (hslashDotsEnd : c = '/' → rest = ['.', '.'] → False)
    (hdotEnd : c = '.' → rest = [] → False) (hdotsEnd : c = '.' → rest = ['.'] → False) :
    IsSegment (c :: rest.takeWhile (· != '/')) := by
  refine ⟨List.cons_ne_nil _ _, fun hmem ↦ ?_, fun hmem ↦ ?_⟩
  · simpa using List.mem_takeWhile_imp hmem
  · simp only [List.mem_cons, List.not_mem_nil, or_false, List.cons.injEq] at hmem
    rcases hmem with ⟨hc, hname⟩ | ⟨hc, hname⟩ | ⟨hc, hname⟩ | ⟨hc, hname⟩ <;>
      rcases eq_or_exists_of_takeWhile hname with hrest | ⟨r, hrest⟩
    · exact hdotEnd hc hrest
    · exact hdot r hc hrest
    · exact hdotsEnd hc hrest
    · exact hdots r hc hrest
    · exact hslashDotEnd hc hrest
    · exact hslashDot r hc hrest
    · exact hslashDotsEnd hc hrest
    · exact hslashDots r hc hrest

/-! ### The stack -/

/-- To take the top from a stack leaves it resolved. -/
theorem Resolved.tail (h : Resolved stack) : Resolved stack.tail := by
  cases h with
  | nil => exact .nil
  | first segment => exact .nil
  | push segment resolved => exact resolved

/-- A segment that stays goes on the stack, and only on an empty one if it has no slash. -/
theorem Resolved.cons (h : Resolved stack) (hseg : IsSegment (c :: seg))
    (hc : stack = [] ∨ c = '/') : Resolved ((c :: seg) :: stack) := by
  rcases hc with rfl | rfl
  · exact .first hseg
  · exact .push hseg h

/-- Reading keeps a stack resolved, if a slash follows what is on it. -/
theorem Resolved.segments (h : Resolved stack) (hs : stack = [] ∨ AtSlash s) :
    Resolved (Path.segments stack s) := by
  fun_induction Path.segments stack s with
  | case1 stack => exact h
  | case2 stack rest ih => exact ih h (hs.imp_right fun hslash ↦ by simp at hslash)
  | case3 stack rest ih => exact ih h (hs.imp_right fun hslash ↦ by simp at hslash)
  | case4 stack rest ih => exact ih h (.inr (atSlash_cons.2 rfl))
  | case5 stack => exact .push (by decide) h
  | case6 stack rest ih => exact ih h.tail (.inr (atSlash_cons.2 rfl))
  | case7 stack => exact .push (by decide) h.tail
  | case8 stack => exact h
  | case9 stack => exact h
  | case10 stack c rest h2 h3 h4 h5 h6 h7 h8 h9 ih =>
    -- The hypotheses of the last equation say that none of the others applied.
    have hsegment := isSegment_cons h2 h3 h4 h5 h6 h7 h8 h9
    exact ih (h.cons hsegment (hs.imp_right atSlash_cons.1)) (.inr (atSlash_dropWhile rest))

/-- A resolved stack is what is read from its own text. -/
theorem Resolved.segments_flatten (h : Resolved stack) (ht : AtSlash t) :
    Path.segments [] (stack.reverse.flatten ++ t) = Path.segments stack t := by
  induction h generalizing t with
  | nil => rfl
  | @first s segment => simpa using segments_append segment ht []
  | @push s stack segment resolved ih =>
    rw [List.reverse_cons, List.flatten_append, List.flatten_singleton, List.append_assoc,
      ih (t := '/' :: s ++ t) (atSlash_cons.2 rfl), segments_append segment ht]

/-- **What is read from a path is resolved.** -/
theorem resolved_segments (s : List Char) : Resolved (segments [] s) :=
  Resolved.nil.segments (.inl rfl)

/-- **To remove dot segments once more changes nothing.** -/
theorem removeDots_removeDots (s : List Char) : removeDots (removeDots s) = removeDots s := by
  have hread := (resolved_segments s).segments_flatten atSlash_nil
  rw [List.append_nil, segments] at hread
  rw [removeDots, removeDots, hread]

/-- A path of one segment that stays is left as it is. -/
theorem removeDots_of_isSegment (hs : IsSegment s) : removeDots s = s := by
  have hread := segments_append hs atSlash_nil []
  rw [List.append_nil, segments] at hread
  simp [removeDots, hread]

/-! ### What stays of a path -/

/-- Every segment is a piece of the path. -/
theorem mem_or_infix_of_mem_segments (h : seg ∈ segments stack s) : seg ∈ stack ∨ seg <:+: s := by
  fun_induction segments stack s with
  | case1 stack => exact .inl h
  | case2 stack rest ih => exact (ih h).imp_right (·.trans ⟨['.', '/'], [], by simp⟩)
  | case3 stack rest ih => exact (ih h).imp_right (·.trans ⟨['.', '.', '/'], [], by simp⟩)
  | case4 stack rest ih => exact (ih h).imp_right (·.trans ⟨['/', '.'], [], by simp⟩)
  | case5 stack =>
    rcases List.mem_cons.1 h with rfl | h
    · exact .inr ⟨[], ['.'], rfl⟩
    · exact .inl h
  | case6 stack rest ih =>
    exact (ih h).imp List.mem_of_mem_tail (·.trans ⟨['/', '.', '.'], [], by simp⟩)
  | case7 stack =>
    rcases List.mem_cons.1 h with rfl | h
    · exact .inr ⟨[], ['.', '.'], rfl⟩
    · exact .inl (List.mem_of_mem_tail h)
  | case8 stack => exact .inl h
  | case9 stack => exact .inl h
  | case10 stack c rest _ _ _ _ _ _ _ _ ih =>
    rcases ih h with hmem | hpiece
    · rcases List.mem_cons.1 hmem with rfl | hmem
      · refine .inr ⟨[], rest.dropWhile (· != '/'), ?_⟩
        rw [List.nil_append, List.cons_append, List.takeWhile_append_dropWhile]
      · exact .inl hmem
    · exact .inr (List.infix_cons (hpiece.trans (List.dropWhile_suffix _).isInfix))

/-- Removing dot segments only leaves characters out. -/
theorem flatten_segments_sublist (stack : List (List Char)) (s : List Char) :
    (segments stack s).reverse.flatten.Sublist (stack.reverse.flatten ++ s) := by
  fun_induction segments stack s with
  | case1 stack => simp
  | case2 stack rest ih =>
    exact ih.trans (.append_left (List.sublist_append_right ['.', '/'] rest) _)
  | case3 stack rest ih =>
    exact ih.trans (.append_left (List.sublist_append_right ['.', '.', '/'] rest) _)
  | case4 stack rest ih =>
    exact ih.trans (.append_left (List.sublist_append_right ['/', '.'] _) _)
  | case5 stack => simp
  | case6 stack rest ih =>
    refine ih.trans (.append ?_ (List.sublist_append_right ['/', '.', '.'] _))
    exact (List.tail_sublist stack).reverse.flatten
  | case7 stack =>
    rw [List.reverse_cons, List.flatten_append, List.flatten_singleton]
    refine .append ?_ (List.sublist_append_left ['/'] ['.', '.'])
    exact (List.tail_sublist stack).reverse.flatten
  | case8 stack => simp
  | case9 stack => simp
  | case10 stack c rest _ _ _ _ _ _ _ _ ih =>
    rwa [List.reverse_cons, List.flatten_append, List.flatten_singleton, List.append_assoc,
      List.cons_append, List.takeWhile_append_dropWhile] at ih

/-- **Nothing is added to a path.** -/
theorem removeDots_sublist (s : List Char) : (removeDots s).Sublist s :=
  flatten_segments_sublist [] s

/-- Where all of a path is behind slashes, so are its segments. -/
theorem atSlash_of_mem_segments (hstack : ∀ seg ∈ stack, AtSlash seg) (hs : AtSlash s) :
    ∀ seg ∈ segments stack s, AtSlash seg := by
  fun_induction segments stack s with
  | case1 stack => exact hstack
  | case2 stack rest ih => simp at hs
  | case3 stack rest ih => simp at hs
  | case4 stack rest ih => exact ih hstack (atSlash_cons.2 rfl)
  | case5 stack => exact List.forall_mem_cons.2 ⟨atSlash_cons.2 rfl, hstack⟩
  | case6 stack rest ih =>
    exact ih (fun seg hseg ↦ hstack seg (List.mem_of_mem_tail hseg)) (atSlash_cons.2 rfl)
  | case7 stack =>
    exact List.forall_mem_cons.2
      ⟨atSlash_cons.2 rfl, fun seg hseg ↦ hstack seg (List.mem_of_mem_tail hseg)⟩
  | case8 stack => exact hstack
  | case9 stack => exact hstack
  | case10 stack c rest _ _ _ _ _ _ _ _ ih =>
    refine ih (List.forall_mem_cons.2 ⟨?_, hstack⟩) (atSlash_dropWhile rest)
    exact atSlash_cons.2 (atSlash_cons.1 hs)

theorem atSlash_flatten {segs : List (List Char)} (h : ∀ seg ∈ segs, AtSlash seg) :
    AtSlash segs.flatten := by
  induction segs with
  | nil => exact atSlash_nil
  | cons seg segs ih =>
    obtain ⟨hseg, hsegs⟩ := List.forall_mem_cons.1 h
    cases seg with
    | nil => exact ih hsegs
    | cons c seg => exact atSlash_cons.2 (atSlash_cons.1 hseg)

/-- A path that begins with a slash still does so, if anything is left of it. -/
theorem atSlash_removeDots (hs : AtSlash s) : AtSlash (removeDots s) :=
  atSlash_flatten fun seg hseg ↦
    atSlash_of_mem_segments (by simp) hs seg (List.mem_reverse.1 hseg)

end HttpFraming.Path
