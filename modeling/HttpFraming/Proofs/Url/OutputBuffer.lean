import HttpFraming.Proofs.Url.Dots

/-!
# Dot segments and the output buffer

RFC 3986 section 5.2.4 removes dot segments by means of two buffers of text: a segment goes from the
front of the input to the end of the output, and `..` takes the output away from its last slash on
(`Path.removeDotSegments`). The stack of segments is that output cut into its segments, since a
slash can only be what a segment begins with. So a path is brought to the form that the algorithm
gives it (`Path.Resolved.removeDotSegments_eq`), in which no dot segment is left
(`Path.Resolved.not_dots_of_mem_splitOn`).

## One difference that has to be bridged

The algorithm keeps its output as one text and searches it for the last slash whenever it meets two
dots. The stack has its segments apart and drops the top one. That the two come to the same is
`Resolved.beforeLastSlash_flatten`: the last slash of the output is the one in front of the top of
the stack. It holds because a segment that stays has no slash but the one in front, and it is the
only place where more than the order of the rules has to be looked at. With it, each rule of the
algorithm is an equation of `segments`.

## What is left

That no dot segment is left is told of the text, and not of the stack: between slashes, and at
either end, nothing is `.` or `..`. A stack ends with a name behind a slash, or is one name
(`Resolved.flatten_cases`), and so its text is cut at slashes into names.
-/

namespace HttpFraming.Path

/-! ### The algorithm -/

/-- The output before its last slash, or nothing if there is no slash in it. -/
def beforeLastSlash (output : List Char) : List Char :=
  (output.reverse.dropWhile (· != '/')).tail.reverse

/-- The output after all of the input has been moved or removed, by the rules A to E of the
algorithm in their order. -/
def removeDotSegments (output : List Char) : List Char → List Char
  | [] => output
  -- A. Dots in front of the first slash are removed with it.
  | '.' :: '.' :: '/' :: rest => removeDotSegments output rest
  | '.' :: '/' :: rest => removeDotSegments output rest
  -- B. A single dot is removed, and the slash after it or before it stays.
  | '/' :: '.' :: '/' :: rest => removeDotSegments output ('/' :: rest)
  | ['/', '.'] => removeDotSegments output ['/']
  -- C. Two dots are removed with the last segment of the output.
  | '/' :: '.' :: '.' :: '/' :: rest => removeDotSegments (beforeLastSlash output) ('/' :: rest)
  | ['/', '.', '.'] => removeDotSegments (beforeLastSlash output) ['/']
  -- D. Dots that are all of the input are removed.
  | ['.'] => output
  | ['.', '.'] => output
  -- E. Any other segment is moved, with the slash in front of it if there is one.
  | c :: rest =>
    removeDotSegments (output ++ c :: rest.takeWhile (· != '/')) (rest.dropWhile (· != '/'))
termination_by input => input.length
decreasing_by
  all_goals simp only [List.length_cons, List.length_nil]
  any_goals omega
  have := length_dropWhile_le (· != '/') rest
  omega

variable {s t : List Char} {stack : List (List Char)}

/-- What is behind the last slash is taken away with it. -/
theorem beforeLastSlash_append (hs : '/' ∉ s) (t : List Char) :
    beforeLastSlash (t ++ '/' :: s) = t := by
  have hrun : ∀ c ∈ s.reverse, (c != '/') = true := by
    intro c hc
    exact bne_iff_ne.2 fun heq ↦ hs (heq ▸ List.mem_reverse.1 hc)
  rw [beforeLastSlash, List.reverse_append, List.reverse_cons, List.append_assoc,
    List.dropWhile_append_of_pos hrun]
  simp

theorem beforeLastSlash_of_not_mem (hs : '/' ∉ s) : beforeLastSlash s = [] := by
  have hrun : s.reverse.dropWhile (· != '/') = [] := by
    refine List.dropWhile_eq_nil_iff.2 fun c hc ↦ ?_
    exact bne_iff_ne.2 fun heq ↦ hs (heq ▸ List.mem_reverse.1 hc)
  rw [beforeLastSlash, hrun]
  rfl

/-! ### The output and the stack -/

/-- What stands between two slashes of a path without dot segments. -/
def IsName (s : List Char) : Prop :=
  '/' ∉ s ∧ s ∉ [['.'], ['.', '.']]

theorem IsSegment.isName {c : Char} (h : IsSegment (c :: s)) (hc : c ≠ '/') : IsName (c :: s) :=
  ⟨List.not_mem_cons_of_ne_of_not_mem hc.symm h.2.1,
    fun hmem ↦ h.2.2 (List.mem_append_left [['/', '.'], ['/', '.', '.']] hmem)⟩

/-- Behind its slash, a segment that stays is a name. -/
theorem IsSegment.isName_of_slash (h : IsSegment ('/' :: s)) : IsName s :=
  ⟨h.2.1, fun hmem ↦ h.2.2 (List.mem_append_right [['.'], ['.', '.']]
    (List.mem_map_of_mem (f := List.cons '/') hmem))⟩

/-- The text of a stack that is not empty is one segment without a slash, or ends in a segment that
begins with one. -/
theorem Resolved.flatten_cases (h : Resolved stack) (hne : stack ≠ []) :
    (stack.tail = [] ∧ IsName stack.reverse.flatten) ∨
      ∃ name, IsName name ∧ stack.reverse.flatten = stack.tail.reverse.flatten ++ '/' :: name := by
  cases h with
  | nil => exact absurd rfl hne
  | @first s segment =>
    obtain ⟨c, name, rfl⟩ := List.exists_cons_of_ne_nil segment.1
    by_cases hc : c = '/'
    · subst hc
      exact .inr ⟨name, segment.isName_of_slash, by simp⟩
    · exact .inl ⟨rfl, by simpa using segment.isName hc⟩
  | @push name stack segment resolved => exact .inr ⟨name, segment.isName_of_slash, by simp⟩

/-- The last slash of the output begins the segment on top of the stack. -/
theorem Resolved.beforeLastSlash_flatten (h : Resolved stack) :
    beforeLastSlash stack.reverse.flatten = stack.tail.reverse.flatten := by
  by_cases hne : stack = []
  · subst hne
    rfl
  · rcases h.flatten_cases hne with ⟨htail, hname⟩ | ⟨name, hname, heq⟩
    · rw [beforeLastSlash_of_not_mem hname.1, htail]
      rfl
    · rw [heq, beforeLastSlash_append hname.1]

/-- A single slash is moved to the output. -/
theorem removeDotSegments_slash (output : List Char) :
    removeDotSegments output ['/'] = output ++ ['/'] := by
  rw [removeDotSegments, List.takeWhile_nil, List.dropWhile_nil, removeDotSegments]
  all_goals simp

/-- **The output of the algorithm is what is on the stack.** -/
theorem Resolved.removeDotSegments_eq (h : Resolved stack) (hs : stack = [] ∨ AtSlash s) :
    removeDotSegments stack.reverse.flatten s = (Path.segments stack s).reverse.flatten := by
  fun_induction Path.segments stack s with
  | case1 stack => rw [removeDotSegments]
  | case2 stack rest ih =>
    rw [removeDotSegments]
    exact ih h (hs.imp_right fun hslash ↦ by simp at hslash)
  | case3 stack rest ih =>
    rw [removeDotSegments]
    exact ih h (hs.imp_right fun hslash ↦ by simp at hslash)
  | case4 stack rest ih =>
    rw [removeDotSegments]
    exact ih h (.inr (atSlash_cons.2 rfl))
  | case5 stack =>
    rw [removeDotSegments, removeDotSegments_slash]
    simp
  | case6 stack rest ih =>
    rw [removeDotSegments, h.beforeLastSlash_flatten]
    exact ih h.tail (.inr (atSlash_cons.2 rfl))
  | case7 stack =>
    rw [removeDotSegments, h.beforeLastSlash_flatten, removeDotSegments_slash]
    simp
  | case8 stack => rw [removeDotSegments]
  | case9 stack => rw [removeDotSegments]
  | case10 stack c rest h2 h3 h4 h5 h6 h7 h8 h9 ih =>
    have hsegment := isSegment_cons h2 h3 h4 h5 h6 h7 h8 h9
    -- The segment is pushed here and put behind the output there, and the text of both is the same.
    have hread := ih (h.cons hsegment (hs.imp_right atSlash_cons.1)) (.inr (atSlash_dropWhile rest))
    rw [List.reverse_cons, List.flatten_append, List.flatten_singleton] at hread
    rw [← hread, removeDotSegments]
    all_goals assumption

/-! ### What is left -/

/-- The last slash of a text divides off its last name. -/
theorem splitOn_append_slash (hs : '/' ∉ s) (t : List Char) :
    (t ++ '/' :: s).splitOn '/' = t.splitOn '/' ++ [s] := by
  rw [List.splitOn_append_cons_self, List.splitOn_eq_singleton hs]

/-- Between slashes, and at either end, nothing is left that is a dot segment. -/
theorem Resolved.not_dots_of_mem_splitOn (h : Resolved stack) :
    ∀ name ∈ stack.reverse.flatten.splitOn '/', name ∉ [['.'], ['.', '.']] := by
  induction stack with
  | nil => simp
  | cons seg stack ih =>
    rcases h.flatten_cases (List.cons_ne_nil seg stack) with ⟨-, hname⟩ | ⟨name, hname, heq⟩
    · rw [List.splitOn_eq_singleton hname.1]
      exact List.forall_mem_singleton.2 hname.2
    · rw [heq, splitOn_append_slash hname.1]
      exact List.forall_mem_append.2 ⟨ih h.tail, List.forall_mem_singleton.2 hname.2⟩

theorem Resolved.flatten_ne_nil (h : Resolved stack) (hne : stack ≠ []) :
    stack.reverse.flatten ≠ [] := by
  cases h with
  | nil => exact absurd rfl hne
  | first segment => simpa using segment.1
  | push segment => simp

/-- Something stays of a path that begins with a slash. -/
theorem segments_ne_nil (hne : stack ≠ [] ∨ s ≠ []) (hs : AtSlash s) : segments stack s ≠ [] := by
  fun_induction segments stack s with
  | case1 stack => exact hne.resolve_right fun h ↦ h rfl
  | case2 stack rest ih => simp at hs
  | case3 stack rest ih => simp at hs
  | case4 stack rest ih => exact ih (.inr (List.cons_ne_nil _ _)) (atSlash_cons.2 rfl)
  | case5 stack => exact List.cons_ne_nil _ _
  | case6 stack rest ih => exact ih (.inr (List.cons_ne_nil _ _)) (atSlash_cons.2 rfl)
  | case7 stack => exact List.cons_ne_nil _ _
  | case8 stack => simp at hs
  | case9 stack => simp at hs
  | case10 stack c rest _ _ _ _ _ _ _ _ ih =>
    exact ih (.inl (List.cons_ne_nil _ _)) (atSlash_dropWhile rest)

/-- A path that begins with a slash still does so. -/
theorem head?_removeDots (s : List Char) : (removeDots ('/' :: s)).head? = some '/' := by
  have hne : removeDots ('/' :: s) ≠ [] :=
    (resolved_segments _).flatten_ne_nil
      (segments_ne_nil (.inr (List.cons_ne_nil _ _)) (atSlash_cons.2 rfl))
  obtain ⟨c, r, hr⟩ := List.exists_cons_of_ne_nil hne
  have hslash := atSlash_removeDots (atSlash_cons.2 rfl : AtSlash ('/' :: s))
  rw [hr, atSlash_cons] at hslash
  rw [hr, hslash, List.head?_cons]

/-- What a path is without its dot segments. -/
structure WithoutDots (path result : String) : Prop where
  /-- It is what the algorithm puts out. -/
  eq_output : result = String.ofList (removeDotSegments [] path.toList)
  /-- No dot segment stands between slashes or at either end. -/
  no_dots : ∀ name ∈ result.toList.splitOn '/', name ∉ [['.'], ['.', '.']]
  /-- To remove dot segments once more changes nothing. -/
  fixed : normalize result = result
  /-- It is not longer, in characters or in octets. -/
  length_le : result.length ≤ path.length
  octets_le : (Utf8.encode result).length ≤ (Utf8.encode path).length
  /-- It begins with a slash if the path does. -/
  rooted : path.toList.head? = some '/' → result.toList.head? = some '/'

/-- **Dot segments are removed as the algorithm removes them**, and none is left. -/
theorem normalize_withoutDots (path : String) : WithoutDots path (normalize path) := by
  have hresolved := resolved_segments path.toList
  have houtput := Resolved.nil.removeDotSegments_eq (s := path.toList) (.inl rfl)
  have hsublist := removeDots_sublist path.toList
  refine ⟨?_, ?_, ?_, ?_, ?_, ?_⟩
  · exact congrArg String.ofList houtput.symm
  · rw [normalize, String.toList_ofList]
    exact hresolved.not_dots_of_mem_splitOn
  · rw [normalize, normalize, String.toList_ofList, removeDots_removeDots]
  · rw [normalize, String.length_ofList]
    exact hsublist.length_le
  · have hoctets := (hsublist.flatMap String.utf8EncodeChar).length_le
    rwa [Utf8.encode, normalize, String.toList_ofList]
  · intro hslash
    obtain ⟨s, hs⟩ := List.head?_eq_some_iff.1 hslash
    rw [normalize, String.toList_ofList, hs]
    exact head?_removeDots s

example : ["/a/b/c/./../../g", "mid/content=5/../6", "/../../a", "/a//b/.."].map normalize =
    ["/a/g", "mid/6", "/a", "/a//"] := by
  decide +kernel

end HttpFraming.Path
