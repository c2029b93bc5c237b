import HttpFraming.Proofs.Url.Authority
import Mathlib.Data.List.TakeWhile

/-!
# Well-formed URLs

`Url.WellFormed` says what the parts of a URL may be, each for itself and next to the others, so
that their order in a text tells them apart. These are the URLs that can be read: to read a text
gives a URL exactly when the URL is well formed and the text consists of its parts
(`Url.ofChars?_eq_some_iff`). All that reading forgets is how a port was written. So a well-formed
URL is read from its own text (`Url.exists_parse?_iff`).

## In the order of the reader

Each step of the reader has an equivalence: to divide off a scheme (`splitScheme?_eq_some_iff`), an
authority (`splitAuthority?_eq_some_some_iff` and its companion for none), and a part behind a mark
(`splitAt_eq_iff`). Put one after the other they give `ofChars?_eq_some_iff_parts`, in which nothing
is lost and nothing is explained yet: a text is read if each step reads its share.

## Next to one another

What remains is to turn the conditions of the steps, which speak of the rest of a text, into
conditions on the parts. This is done by lemmas on a path with what stands behind it (`EndsPath`),
as the path is the only part that may be taken for another: its front for an authority, or for a
scheme. A question mark or a number sign ends it in either case, and so what is behind these does
not matter (`EndsPath.prefix_iff`, `EndsPath.takeWhile_eq`).

## Clean texts

The reader refuses blanks and controls before anything else, in the text as a whole. Since all marks
are clean, a text is clean if its parts are (`clean_charsWith`), and the condition can be moved from
the text to the URL.
-/

namespace HttpFraming.Url

open CharClass

/-! ### The parts in a text -/

/-- A scheme as it is written. -/
def schemeChars (scheme : Option String) : List Char :=
  scheme.elim [] fun s ↦ s.toList ++ [':']

/-- A part behind its mark. -/
def markedChars (mark : Char) (part : Option String) : List Char :=
  part.elim [] fun s ↦ mark :: s.toList

/-- What stands behind a path. -/
def tailChars (u : Url) : List Char :=
  markedChars '?' u.query ++ markedChars '#' u.fragment

/-- The characters of an authority, with some text for the port. -/
def authorityChars (u : Url) (port : List Char) : List Char :=
  u.host.elim [] fun h ↦ '/' :: '/' :: (userinfoChars u.userinfo ++ (hostChars h ++ port))

/-- The characters of a URL, with some text for the port. -/
def charsWith (u : Url) (port : List Char) : List Char :=
  schemeChars u.scheme ++ (u.authorityChars port ++ (u.path.toList ++ u.tailChars))

/-- The parts of a URL that are text. -/
def texts (u : Url) : List String :=
  u.scheme.toList ++ u.userinfo.toList ++ u.host.toList ++ [u.path] ++ u.query.toList ++
    u.fragment.toList

/-- A scheme: a letter, and then scheme characters. -/
def IsScheme (scheme : String) : Prop :=
  ∃ c cs, scheme.toList = c :: cs ∧ isAlpha c.toNat = true ∧ ∀ d ∈ cs, isSchemeChar d.toNat = true

/-- The URLs that can be read. -/
structure WellFormed (u : Url) : Prop where
  /-- There are neither blanks nor controls. -/
  clean : ∀ text ∈ u.texts, ∀ c ∈ text.toList, isTargetChar c.toNat = true
  scheme : ∀ s ∈ u.scheme, IsScheme s
  /-- Only with a host there is user information or a port. -/
  authority : u.userinfo ≠ none ∨ u.port ≠ none → u.host ≠ none
  userinfo : ∀ i ∈ u.userinfo, ∀ c ∈ i.toList, c ∉ ['@', '/', '?', '#']
  host : ∀ h ∈ u.host, IsHost h
  port : ∀ n ∈ u.port, n < portBound
  path : ∀ c ∈ u.path.toList, c ∉ ['?', '#']
  /-- Behind a host a path begins with a slash. -/
  rooted : u.host ≠ none → u.path = "" ∨ ['/'] <+: u.path.toList
  /-- A path is not taken for an authority, -/
  notAuthority : u.host = none → ¬ ['/', '/'] <+: u.path.toList
  /-- nor the beginning of a path for a scheme. -/
  notScheme : u.scheme = none → u.host = none → ':' ∉ u.path.toList.takeWhile (· != '/')
  query : ∀ q ∈ u.query, '#' ∉ q.toList
  /-- The schemes `http` and `https` need a host, and allow no user information. -/
  http : isHttp u.scheme = true → u.userinfo = none ∧ u.host ≠ none ∧ u.host ≠ some ""
  nonempty : u ≠ default

variable {u : Url} {s t rest port : List Char} {scheme : Option String}

/-! ### The scheme -/

theorem isScheme_iff {scheme : String} : isScheme scheme.toList = true ↔ IsScheme scheme := by
  rw [IsScheme]
  cases scheme.toList with
  | nil => simp [isScheme]
  | cons c cs => simp [isScheme]

theorem not_delimiter_of_isScheme {name : String} (h : IsScheme name) :
    ∀ c ∈ name.toList, (c == ':' || c == '/' || c == '?' || c == '#') = false := by
  have hclass : ∀ c ∈ name.toList, isSchemeChar c.toNat = true := by
    obtain ⟨c, cs, hname, hc, hcs⟩ := h
    rw [hname]
    exact List.forall_mem_cons.2 ⟨by simp [isSchemeChar, isAlphanumeric, hc], hcs⟩
  intro c hc
  simp only [Bool.or_eq_false_iff, beq_eq_false_iff_ne]
  refine ⟨⟨⟨?_, ?_⟩, ?_⟩, ?_⟩
  all_goals
    rintro rfl
    exact absurd (hclass _ hc) (by decide)

/-- **A scheme is divided off at the first colon**, unless a slash or a mark of another part comes
first. -/
theorem splitScheme?_eq_some_iff : splitScheme? s = some (scheme, rest) ↔
    (∀ name ∈ scheme, IsScheme name) ∧ s = schemeChars scheme ++ rest ∧
      (scheme = none → ':' ∉ s.takeWhile (!endsAuthority ·)) := by
  constructor
  · intro h
    rw [splitScheme?] at h
    split at h
    · rename_i name after hcut
      obtain ⟨rfl, -, -⟩ := cut?_eq_some_iff.1 hcut
      split at h
      · rename_i hname
        cases h
        refine ⟨?_, by simp [schemeChars], fun hnone ↦ by cases hnone⟩
        rintro _ ⟨⟩
        exact isScheme_iff.1 (by simpa using hname)
      · cases h
    · rename_i hother
      cases h
      refine ⟨by rintro _ ⟨⟩, rfl, fun _ hmem ↦ ?_⟩
      -- The first delimiter is another, so that no colon stands in front of it.
      cases hcut : cut? (fun c ↦ c == ':' || c == '/' || c == '?' || c == '#') s with
      | none =>
        exact absurd (cut?_eq_none_iff.1 hcut _ (List.takeWhile_subset _ hmem)) (by decide)
      | some cut =>
        obtain ⟨before, mark, after⟩ := cut
        obtain ⟨rfl, hmark, hbefore⟩ := cut?_eq_some_iff.1 hcut
        by_cases hcolon : mark = ':'
        · exact hother before after (hcolon ▸ hcut)
        · have hends : endsAuthority mark = true := by
            simpa [endsAuthority, hcolon] using hmark
          rw [takeWhile_append_of_head? (by simpa using hends)] at hmem
          exact absurd (hbefore _ (List.takeWhile_subset _ hmem)) (by decide)
  · rintro ⟨hscheme, rfl, hcolon⟩
    cases scheme with
    | some name =>
      have hname := hscheme name rfl
      have hcut : cut? (fun c ↦ c == ':' || c == '/' || c == '?' || c == '#')
          (name.toList ++ ':' :: rest) = some (name.toList, ':', rest) :=
        cut?_append rfl (not_delimiter_of_isScheme hname)
      simp only [schemeChars, Option.elim_some, List.append_assoc, List.singleton_append,
        splitScheme?, hcut, isScheme_iff.2 hname, if_true, String.ofList_toList]
    | none =>
      rw [schemeChars, Option.elim_none, List.nil_append, splitScheme?]
      split
      · rename_i before after hcut
        obtain ⟨rfl, -, hbefore⟩ := cut?_eq_some_iff.1 hcut
        have hrun : ∀ c ∈ before, (!endsAuthority c) = true := by
          intro c hc
          have hdelimiter := hbefore c hc
          simp only [Bool.or_eq_false_iff] at hdelimiter
          simp [endsAuthority, hdelimiter]
        -- The first delimiter is a colon, so that one stands where there must be none without a
        -- scheme.
        refine absurd ?_ (hcolon rfl)
        rw [schemeChars, Option.elim_none, List.nil_append, List.takeWhile_append_of_pos hrun]
        simp [endsAuthority]
      · rfl

/-! ### The authority -/

/-- **An authority is divided off behind two slashes**, up to a slash, a question mark or a number
sign. -/
theorem splitAuthority?_eq_some_some_iff {a : Authority} :
    splitAuthority? scheme s = some (some a, rest) ↔
      ∃ x, readAuthority? scheme x = some a ∧ s = '/' :: '/' :: (x ++ rest) ∧
        (∀ c ∈ x, endsAuthority c = false) ∧ ∀ c ∈ rest.head?, endsAuthority c = true := by
  constructor
  · intro h
    rw [splitAuthority?.eq_def] at h
    split at h
    · rename_i after
      obtain ⟨a', hread, heq⟩ := Option.map_eq_some_iff.1 h
      cases heq
      refine ⟨_, hread, by rw [List.takeWhile_append_dropWhile], fun c hc ↦ ?_, fun c hc ↦ ?_⟩
      · simpa using List.mem_takeWhile_imp hc
      · simpa using eq_false_of_mem_head?_dropWhile hc
    · split at h
      · cases h
      · cases h
  · rintro ⟨x, hread, rfl, hx, hrest⟩
    have htake : (x ++ rest).takeWhile (!endsAuthority ·) = x := by
      rw [takeWhile_append_of_head? (by simpa using hrest), List.takeWhile_eq_self_iff]
      simpa using hx
    have hdrop : (x ++ rest).dropWhile (!endsAuthority ·) = rest :=
      dropWhile_append_of_head? (by simpa using hx) (by simpa using hrest)
    simp only [splitAuthority?, htake, hdrop, hread, Option.map_some]

/-- Without two slashes there is none, and `http` does not allow that. -/
theorem splitAuthority?_eq_some_none_iff : splitAuthority? scheme s = some (none, rest) ↔
    rest = s ∧ isHttp scheme = false ∧ ¬ ['/', '/'] <+: s := by
  rw [splitAuthority?.eq_def]
  split
  · simp
  · rename_i hslashes
    have hfront : ¬ ['/', '/'] <+: s := by
      rintro ⟨after, rfl⟩
      exact hslashes after rfl
    cases hhttp : isHttp scheme <;> simp [hfront, eq_comm]

/-! ### Path, query and fragment -/

/-- **A part is divided off at the first of its marks.** -/
theorem splitAt_eq_iff {mark : Char} {before : List Char} {after : Option String} :
    splitAt mark s = (before, after) ↔ s = before ++ markedChars mark after ∧ mark ∉ before := by
  constructor
  · intro h
    rw [splitAt] at h
    split at h
    · rename_i hcut
      obtain ⟨rfl, rfl, hbefore⟩ := cut?_mark_eq_some_iff.1 hcut
      cases h
      exact ⟨by simp [markedChars], hbefore⟩
    · rename_i hcut
      cases h
      exact ⟨by simp [markedChars], cut?_mark_eq_none_iff.1 hcut⟩
  · rintro ⟨rfl, hmark⟩
    cases after with
    | none => simp [splitAt, markedChars, cut?_mark_eq_none_iff.2 hmark]
    | some after => simp [splitAt, markedChars, cut?_mark_append hmark]

/-- A path ends at a question mark or a number sign, and not before. -/
structure EndsPath (path tail : List Char) : Prop where
  path : ∀ c ∈ path, c ∉ ['?', '#']
  tail : ∀ c ∈ tail.head?, c ∈ ['?', '#']

theorem head?_tailChars (u : Url) : ∀ c ∈ u.tailChars.head?, c ∈ ['?', '#'] := by
  rw [tailChars]
  cases u.query <;> cases u.fragment <;> simp [markedChars]

section

variable {path tail : List Char}

theorem endsAuthority_of_mem {c : Char} (h : c ∈ ['?', '#']) : endsAuthority c = true := by
  simp only [List.mem_cons, List.not_mem_nil, or_false] at h
  rcases h with rfl | rfl <;> rfl

theorem endsAuthority_eq_of_not_mem {c : Char} (h : c ∉ ['?', '#']) :
    endsAuthority c = (c == '/') := by
  simp only [List.mem_cons, List.not_mem_nil, or_false, not_or] at h
  rw [endsAuthority, beq_eq_false_iff_ne.2 h.1, beq_eq_false_iff_ne.2 h.2, Bool.or_false,
    Bool.or_false]

/-- An authority can end in front of a path if the path is empty or begins with a slash. -/
theorem EndsPath.forall_head?_iff (h : EndsPath path tail) :
    (∀ c ∈ (path ++ tail).head?, endsAuthority c = true) ↔ path = [] ∨ ['/'] <+: path := by
  cases path with
  | nil => simpa using fun c hc ↦ endsAuthority_of_mem (h.tail c hc)
  | cons c path =>
    have hc := endsAuthority_eq_of_not_mem (h.path c List.mem_cons_self)
    constructor
    · intro hends
      have hslash : (c == '/') = true := hc.symm.trans (hends c rfl)
      exact .inr ⟨path, by rw [eq_of_beq hslash]; rfl⟩
    · rintro (hnil | ⟨rest, hrest⟩)
      · cases hnil
      · rintro d ⟨⟩
        obtain ⟨rfl, -⟩ := List.cons.inj hrest
        rfl

/-- Whether a path is taken for an authority, the path alone tells. -/
theorem EndsPath.prefix_iff (h : EndsPath path tail) :
    ['/', '/'] <+: path ++ tail ↔ ['/', '/'] <+: path := by
  -- What is behind a path does not begin with a slash, so it adds none to those of the path.
  have hslash : ¬ ['/'] <+: tail := by
    rintro ⟨rest, rfl⟩
    exact absurd (h.tail '/' rfl) (by decide)
  cases path with
  | nil =>
    refine iff_of_false (fun hp ↦ hslash ?_) (by simp)
    exact List.IsPrefix.trans ⟨['/'], rfl⟩ hp
  | cons c path =>
    cases path with
    | nil =>
      refine iff_of_false (fun hp ↦ hslash ?_) (by simp)
      exact (List.cons_prefix_cons.1 hp).2
    | cons d path => simp [List.cons_prefix_cons]

/-- In front of its first slash a path has the same, whatever follows it. -/
theorem EndsPath.takeWhile_eq (h : EndsPath path tail) :
    (path ++ tail).takeWhile (!endsAuthority ·) = path.takeWhile (· != '/') := by
  rw [takeWhile_append_of_head? fun c hc ↦ by simp [endsAuthority_of_mem (h.tail c hc)]]
  have hpath := h.path
  clear h
  induction path with
  | nil => rfl
  | cons c path ih =>
    obtain ⟨hc, hpath⟩ := List.forall_mem_cons.1 hpath
    rw [List.takeWhile_cons, List.takeWhile_cons, endsAuthority_eq_of_not_mem hc, ih hpath]
    rfl

end

/-! ### The parts in order -/

/-- The authority of a URL, if it has a host. -/
def authority (u : Url) : Option Authority :=
  u.host.map fun h ↦ ⟨u.userinfo, h, u.port⟩

/-- A text is read as a URL exactly when each part is read in its turn. -/
theorem ofChars?_eq_some_iff_parts : ofChars? s = some u ↔
    (s ≠ [] ∧ ∀ c ∈ s, isTargetChar c.toNat = true) ∧
      (u.userinfo ≠ none ∨ u.port ≠ none → u.host ≠ none) ∧
      (∀ c ∈ u.path.toList, c ∉ ['?', '#']) ∧ (∀ q ∈ u.query, '#' ∉ q.toList) ∧
      ∃ rest, splitScheme? s = some (u.scheme, rest) ∧
        splitAuthority? u.scheme rest = some (u.authority, u.path.toList ++ u.tailChars) := by
  constructor
  · intro h
    rw [ofChars?] at h
    split at h
    · cases h
    rename_i hs
    split at h
    · cases h
    rename_i scheme rest hscheme
    split at h
    · cases h
    rename_i authority rest' hauthority
    split at h
    rename_i before fragment hfragment
    split at h
    rename_i path query hquery
    cases h
    obtain ⟨rfl, hbefore⟩ := splitAt_eq_iff.1 hfragment
    obtain ⟨rfl, hpath⟩ := splitAt_eq_iff.1 hquery
    rw [List.mem_append, not_or] at hbefore
    obtain ⟨hhash, hqueryhash⟩ := hbefore
    refine ⟨by simpa using hs, ?_, ?_, ?_, rest, hscheme, ?_⟩
    · cases authority <;> simp
    · intro c hc
      rw [String.toList_ofList] at hc
      simp only [List.mem_cons, List.not_mem_nil, or_false, not_or]
      exact ⟨fun heq ↦ hpath (heq ▸ hc), fun heq ↦ hhash (heq ▸ hc)⟩
    · rintro q hq hmem
      obtain rfl : query = some q := hq
      exact hqueryhash (List.mem_cons_of_mem '?' hmem)
    · rw [hauthority, String.toList_ofList, tailChars, List.append_assoc]
      cases authority <;> rfl
  · rintro ⟨⟨hne, hclean⟩, hhost, hpath, hquery, rest, hscheme, hauthority⟩
    have hs : (s.isEmpty || !s.all fun c ↦ isTargetChar c.toNat) = false := by
      simpa using ⟨hne, hclean⟩
    have hfragment : splitAt '#' (u.path.toList ++ u.tailChars) =
        (u.path.toList ++ markedChars '?' u.query, u.fragment) := by
      refine splitAt_eq_iff.2 ⟨by rw [tailChars, List.append_assoc], fun hmem ↦ ?_⟩
      rcases List.mem_append.1 hmem with hmem | hmem
      · exact hpath _ hmem (by simp)
      · cases hq : u.query with
        | none =>
          rw [hq] at hmem
          cases hmem
        | some q =>
          rw [hq] at hmem
          exact hquery q hq ((List.mem_cons.1 hmem).resolve_left (by decide))
    have hquestion : splitAt '?' (u.path.toList ++ markedChars '?' u.query) =
        (u.path.toList, u.query) :=
      splitAt_eq_iff.2 ⟨rfl, fun hmem ↦ hpath _ hmem (by simp)⟩
    simp only [ofChars?, hs, hscheme, hauthority, hfragment, hquestion, String.ofList_toList]
    obtain ⟨scheme, userinfo, host, port, path, query, fragment⟩ := u
    cases host with
    | some h => rfl
    | none =>
      have hnone : userinfo = none ∧ port = none := by simpa using hhost
      obtain ⟨rfl, rfl⟩ := hnone
      rfl

/-! ### The parts next to each other -/

/-- What follows the scheme is taken apart as it is meant. -/
structure Placed (u : Url) : Prop where
  userinfo : ∀ i ∈ u.userinfo, ∀ c ∈ i.toList, c ∉ ['@', '/', '?', '#']
  host : ∀ h ∈ u.host, IsHost h
  rooted : u.host ≠ none → u.path = "" ∨ ['/'] <+: u.path.toList
  notAuthority : u.host = none → ¬ ['/', '/'] <+: u.path.toList
  http : isHttp u.scheme = true → u.userinfo = none ∧ u.host ≠ none ∧ u.host ≠ some ""

theorem not_mem_delimiters_iff {c : Char} :
    c ∉ ['@', '/', '?', '#'] ↔ c ≠ '@' ∧ endsAuthority c = false := by
  simp [endsAuthority, and_assoc]

/-- Only user information can have a mark in it that ends an authority too early. -/
theorem forall_endsAuthority_iff {userinfo : Option String} {host : String} {n : Option Nat}
    (hhost : IsHost host) (hport : SpellsPort n port) :
    (∀ c ∈ userinfoChars userinfo ++ (hostChars host ++ port), endsAuthority c = false) ↔
      ∀ i ∈ userinfo, ∀ c ∈ i.toList, endsAuthority c = false := by
  -- A host and its port have none of the marks, by their character classes.
  have hrest : ∀ c ∈ hostChars host ++ port, endsAuthority c = false := by
    intro c hc
    have hne {mark : Char} (hmarks : mark ∉ ['[', ']', ':'])
        (hmark : isHostChar mark.toNat = false) : (c == mark) = false :=
      beq_eq_false_iff_ne.2 fun heq ↦ not_mem_hostPort hhost hport hmarks hmark (heq ▸ hc)
    rw [endsAuthority, hne (by decide) (by decide), hne (by decide) (by decide),
      hne (by decide) (by decide)]
    rfl
  rw [List.forall_mem_append, and_iff_left hrest]
  cases userinfo with
  | none => simp [userinfoChars]
  | some i =>
    have hat : endsAuthority '@' = false := rfl
    simp [userinfoChars, hat, or_imp, forall_and]

/-- **What follows a scheme is divided as it is meant**, if the parts are placed so that it can
be. -/
theorem splitAuthority?_eq_some_authority_iff
    (hhost : u.userinfo ≠ none ∨ u.port ≠ none → u.host ≠ none)
    (hpath : EndsPath u.path.toList u.tailChars) :
    splitAuthority? u.scheme rest = some (u.authority, u.path.toList ++ u.tailChars) ↔
      u.Placed ∧ ∃ port, SpellsPort u.port port ∧
        rest = u.authorityChars port ++ (u.path.toList ++ u.tailChars) := by
  have hfront := hpath.prefix_iff
  have hhead := hpath.forall_head?_iff
  obtain ⟨scheme, userinfo, host, n, path, query, fragment⟩ := u
  cases host with
  | none =>
    have hnone : userinfo = none ∧ n = none := by simpa using hhost
    obtain ⟨rfl, rfl⟩ := hnone
    rw [authority, Option.map_none, splitAuthority?_eq_some_none_iff]
    constructor
    · rintro ⟨rfl, hhttp, hslashes⟩
      refine ⟨⟨by rintro i ⟨⟩, by rintro h ⟨⟩, fun h ↦ absurd rfl h, fun _ ↦ hfront.not.1 hslashes,
        fun h ↦ ?_⟩, [], .absent, rfl⟩
      exact absurd (hhttp.symm.trans h) Bool.false_ne_true
    · rintro ⟨hplaced, port, -, rfl⟩
      refine ⟨rfl, Bool.eq_false_iff.2 fun h ↦ (hplaced.http h).2.1 rfl, ?_⟩
      exact hfront.not.2 (hplaced.notAuthority rfl)
  | some host =>
    rw [authority, Option.map_some, splitAuthority?_eq_some_some_iff]
    constructor
    · rintro ⟨x, hread, rfl, hends, hrest⟩
      obtain ⟨⟨hat, hhost, hhttp⟩, port, hport, rfl⟩ := readAuthority?_eq_some_iff.1 hread
      have huserinfo := (forall_endsAuthority_iff hhost hport).1 hends
      refine ⟨⟨fun i hi c hc ↦ not_mem_delimiters_iff.2 ⟨fun heq ↦ hat i hi (heq ▸ hc),
        huserinfo i hi c hc⟩, ?_, fun _ ↦ ?_, fun hnone ↦ ?_, fun h ↦ ?_⟩, port, hport, rfl⟩
      · rintro h ⟨⟩
        exact hhost
      · exact (hhead.1 hrest).imp_left String.toList_eq_nil_iff.1
      · cases hnone
      · exact ⟨(hhttp h).1, Option.some_ne_none host,
          fun heq ↦ (hhttp h).2 (Option.some.inj heq)⟩
    · rintro ⟨hplaced, port, hport, rfl⟩
      have hhost := hplaced.host host rfl
      have huserinfo (i : String) (hi : i ∈ userinfo) (c : Char) (hc : c ∈ i.toList) :=
        not_mem_delimiters_iff.1 (hplaced.userinfo i hi c hc)
      refine ⟨userinfoChars userinfo ++ (hostChars host ++ port), readAuthority?_eq_some_iff.2
        ⟨⟨fun i hi hat ↦ ?_, hhost, fun h ↦ ⟨(hplaced.http h).1, ?_⟩⟩, port, hport, rfl⟩,
        rfl, ?_, ?_⟩
      · exact (huserinfo i hi '@' hat).1 rfl
      · exact fun heq ↦ (hplaced.http h).2.2 (congrArg some heq)
      · exact (forall_endsAuthority_iff hhost hport).2 fun i hi c hc ↦ (huserinfo i hi c hc).2
      · exact hhead.2 ((hplaced.rooted (Option.some_ne_none host)).imp_left
          String.toList_eq_nil_iff.2)

/-! ### Nothing but the parts -/

/-- There are neither blanks nor controls. -/
def Clean (s : List Char) : Prop :=
  ∀ c ∈ s, isTargetChar c.toNat = true

theorem clean_append : Clean (s ++ t) ↔ Clean s ∧ Clean t :=
  List.forall_mem_append

theorem clean_cons {c : Char} (hc : isTargetChar c.toNat = true) : Clean (c :: s) ↔ Clean s := by
  rw [Clean, List.forall_mem_cons, and_iff_right hc, Clean]

/-- A part that may be absent is clean if it is clean where it is there. -/
theorem clean_elim {f : String → List Char} (hf : ∀ s, Clean (f s) ↔ Clean s.toList)
    (part : Option String) : Clean (part.elim [] f) ↔ ∀ s ∈ part, Clean s.toList := by
  cases part with
  | none => simp [Clean]
  | some s => simp [hf]

theorem clean_concat {c : Char} (hc : isTargetChar c.toNat = true) :
    Clean (s ++ [c]) ↔ Clean s := by
  rw [clean_append, clean_cons hc]
  exact and_iff_left (List.forall_mem_nil _)

theorem clean_hostChars (host : String) : Clean (hostChars host) ↔ Clean host.toList := by
  rw [hostChars]
  split
  · rw [clean_cons (by decide), clean_concat (by decide)]
  · rfl

theorem SpellsPort.clean {n : Option Nat} (h : SpellsPort n port) : Clean port := by
  intro c hc
  rcases h.class_of_mem hc with rfl | hdigit
  · decide
  · simp only [isDigit, isTargetChar, Bool.and_eq_true, decide_eq_true_eq, bne_iff_ne] at hdigit ⊢
    omega

theorem forall_mem_texts {P : String → Prop} : (∀ text ∈ u.texts, P text) ↔
    (∀ s ∈ u.scheme, P s) ∧ (∀ s ∈ u.userinfo, P s) ∧ (∀ s ∈ u.host, P s) ∧ P u.path ∧
      (∀ s ∈ u.query, P s) ∧ ∀ s ∈ u.fragment, P s := by
  simp only [texts, List.forall_mem_append, List.forall_mem_singleton, Option.mem_toList,
    Option.mem_def, and_assoc]

/-- An authority is clean if its user information and its host are. -/
theorem clean_authorityChars (hhost : u.userinfo ≠ none ∨ u.port ≠ none → u.host ≠ none)
    (hport : SpellsPort u.port port) : Clean (u.authorityChars port) ↔
      (∀ s ∈ u.userinfo, Clean s.toList) ∧ ∀ s ∈ u.host, Clean s.toList := by
  have huserinfo : Clean (userinfoChars u.userinfo) ↔ ∀ s ∈ u.userinfo, Clean s.toList :=
    clean_elim (fun _ ↦ clean_concat (by decide)) u.userinfo
  rw [authorityChars]
  cases hu : u.host with
  | none =>
    have hnone : u.userinfo = none := by
      by_contra hsome
      exact hhost (.inl hsome) hu
    simp [hnone, Clean]
  | some host =>
    rw [Option.elim_some, clean_cons (by decide), clean_cons (by decide), clean_append,
      clean_append, huserinfo, clean_hostChars, and_iff_left hport.clean]
    simp

/-- A URL is clean when its parts are, whatever text spells its port. -/
theorem clean_charsWith (hhost : u.userinfo ≠ none ∨ u.port ≠ none → u.host ≠ none)
    (hport : SpellsPort u.port port) :
    Clean (u.charsWith port) ↔ ∀ text ∈ u.texts, Clean text.toList := by
  have hscheme : Clean (schemeChars u.scheme) ↔ ∀ s ∈ u.scheme, Clean s.toList :=
    clean_elim (fun _ ↦ clean_concat (by decide)) u.scheme
  have hquery : Clean (markedChars '?' u.query) ↔ ∀ s ∈ u.query, Clean s.toList :=
    clean_elim (fun _ ↦ clean_cons (by decide)) u.query
  have hfragment : Clean (markedChars '#' u.fragment) ↔ ∀ s ∈ u.fragment, Clean s.toList :=
    clean_elim (fun _ ↦ clean_cons (by decide)) u.fragment
  rw [forall_mem_texts, charsWith, tailChars, clean_append, clean_append, clean_append,
    clean_append, hscheme, clean_authorityChars hhost hport, hquery, hfragment, and_assoc]

/-- Only a URL without any part has no characters. -/
theorem charsWith_eq_nil_iff (hhost : u.userinfo ≠ none ∨ u.port ≠ none → u.host ≠ none) :
    u.charsWith port = [] ↔ u = default := by
  constructor
  · obtain ⟨scheme, userinfo, host, n, path, query, fragment⟩ := u
    intro h
    simp only [charsWith, authorityChars, tailChars, List.append_eq_nil_iff] at h
    obtain ⟨hscheme, hauthority, hpath, hquery, hfragment⟩ := h
    obtain rfl : scheme = none := by
      cases scheme with
      | none => rfl
      | some s => simp [schemeChars] at hscheme
    obtain rfl : host = none := by
      cases host with
      | none => rfl
      | some s => cases hauthority
    obtain rfl : query = none := by
      cases query with
      | none => rfl
      | some s => cases hquery
    obtain rfl : fragment = none := by
      cases fragment with
      | none => rfl
      | some s => cases hfragment
    obtain rfl := String.toList_eq_nil_iff.1 hpath
    have hnone : userinfo = none ∧ n = none := by simpa using hhost
    obtain ⟨rfl, rfl⟩ := hnone
    rfl
  · rintro rfl
    rfl

/-! ### What is read -/

/-- Without a scheme, only a path that no host precedes can have a colon too early. -/
theorem colon_not_mem_takeWhile_charsWith (hscheme : u.scheme = none)
    (hpath : EndsPath u.path.toList u.tailChars) :
    ':' ∉ (u.charsWith port).takeWhile (!endsAuthority ·) ↔
      (u.host = none → ':' ∉ u.path.toList.takeWhile (· != '/')) := by
  rw [charsWith, hscheme, schemeChars, Option.elim_none, List.nil_append, authorityChars]
  cases u.host with
  | none => simp [hpath.takeWhile_eq]
  | some host => simp [endsAuthority]

/-- **A text is read as a URL exactly when the URL is well formed and the text consists of its
parts**, with any text that spells its port. -/
theorem ofChars?_eq_some_iff : ofChars? s = some u ↔
    u.WellFormed ∧ ∃ port, SpellsPort u.port port ∧ s = u.charsWith port := by
  have htail := u.head?_tailChars
  rw [ofChars?_eq_some_iff_parts]
  constructor
  · rintro ⟨⟨hne, hclean⟩, hhost, hpath, hquery, rest, hscheme, hauthority⟩
    obtain ⟨hname, rfl, hcolon⟩ := splitScheme?_eq_some_iff.1 hscheme
    obtain ⟨hplaced, port, hport, rfl⟩ :=
      (splitAuthority?_eq_some_authority_iff hhost ⟨hpath, htail⟩).1 hauthority
    refine ⟨⟨(clean_charsWith hhost hport).1 hclean, hname, hhost, hplaced.userinfo, hplaced.host,
      hport.lt, hpath, hplaced.rooted, hplaced.notAuthority, fun hnone ↦ ?_, hquery,
      hplaced.http, (charsWith_eq_nil_iff hhost).not.1 hne⟩, port, hport, rfl⟩
    exact (colon_not_mem_takeWhile_charsWith hnone ⟨hpath, htail⟩).1 (hcolon hnone)
  · rintro ⟨hu, port, hport, rfl⟩
    refine ⟨⟨(charsWith_eq_nil_iff hu.authority).not.2 hu.nonempty,
      (clean_charsWith hu.authority hport).2 hu.clean⟩, hu.authority, hu.path, hu.query,
      u.authorityChars port ++ (u.path.toList ++ u.tailChars),
      splitScheme?_eq_some_iff.2 ⟨hu.scheme, rfl, fun hnone ↦ ?_⟩,
      (splitAuthority?_eq_some_authority_iff hu.authority ⟨hu.path, htail⟩).2
        ⟨⟨hu.userinfo, hu.host, hu.rooted, hu.notAuthority, hu.http⟩, port, hport, rfl⟩⟩
    exact (colon_not_mem_takeWhile_charsWith hnone ⟨hu.path, htail⟩).2 (hu.notScheme hnone)

/-! ### The text of a URL -/

theorem toList_elim {f : String → String} (part : Option String) :
    (part.elim "" f).toList = part.elim [] fun s ↦ (f s).toList := by
  cases part <;> rfl

theorem toList_authorityText (hhost : u.userinfo ≠ none ∨ u.port ≠ none → u.host ≠ none) :
    u.authorityText.toList = u.authorityChars (portChars u.port) := by
  obtain ⟨scheme, userinfo, host, n, path, query, fragment⟩ := u
  cases host with
  | none =>
    have hnone : userinfo = none ∧ n = none := by simpa using hhost
    obtain ⟨rfl, rfl⟩ := hnone
    rfl
  | some host =>
    cases userinfo <;> cases n <;>
      simp [authorityText, authorityChars, userinfoChars, portChars, toList_hostText, Decimal.print]

/-- The text of a URL consists of its parts, with the port in as few digits as it needs. -/
theorem toList_toText (hhost : u.userinfo ≠ none ∨ u.port ≠ none → u.host ≠ none) :
    u.toText.toList = u.charsWith (portChars u.port) := by
  simp [toText, charsWith, tailChars, schemeChars, markedChars, toList_elim,
    toList_authorityText hhost]

/-- A URL that is read is well formed. -/
theorem wellFormed_of_parse? {s : String} (h : parse? s = some u) : u.WellFormed :=
  (ofChars?_eq_some_iff.1 h).1

/-- A URL that is well formed is read from its own text. -/
theorem WellFormed.parse?_toText (h : u.WellFormed) : parse? u.toText = some u := by
  rw [parse?, toList_toText h.authority]
  exact ofChars?_eq_some_iff.2 ⟨h, portChars u.port, spellsPort_portChars h.port, rfl⟩

/-- **The URLs that are read from a text are the well-formed ones, and each is read from its own
text.** -/
theorem exists_parse?_iff (u : Url) :
    ((∃ s, parse? s = some u) ↔ u.WellFormed) ∧ (u.WellFormed → parse? u.toText = some u) := by
  refine ⟨⟨?_, fun h ↦ ⟨u.toText, h.parse?_toText⟩⟩, WellFormed.parse?_toText⟩
  rintro ⟨s, h⟩
  exact wellFormed_of_parse? h

/-- Colons and slashes, question marks and number signs where they are no delimiters. -/
theorem exists_parse?_iff_delimiters :
    (⟨some "ftp", some "a:b", some "::1", some 80, "//c:d", some "?e", some "#f"⟩ :
        Url).WellFormed ∧
      parse? (⟨some "ftp", some "a:b", some "::1", some 80, "//c:d", some "?e", some "#f"⟩ :
        Url).toText =
        some ⟨some "ftp", some "a:b", some "::1", some 80, "//c:d", some "?e", some "#f"⟩ := by
  have hread : parse? "ftp://a:b@[::1]:0080//c:d??e##f" =
      some ⟨some "ftp", some "a:b", some "::1", some 80, "//c:d", some "?e", some "#f"⟩ := by
    decide +kernel
  have hu := (exists_parse?_iff _).1.1 ⟨_, hread⟩
  exact ⟨hu, (exists_parse?_iff _).2 hu⟩

end HttpFraming.Url
