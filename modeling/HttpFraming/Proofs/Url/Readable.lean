import HttpFraming.Proofs.Url.Idempotence
import HttpFraming.Proofs.Url.WellFormed
import Mathlib.Data.Option.Basic

/-!
# Reading a normalized URL

A normal form has the parts of the URL, each well formed as before. But dot segments are removed
without a look at what stands in front of the path. Three things can come of that:

* with neither scheme nor host, a segment that comes to the front may hold a colon, and is then read
  as a scheme, as in `./a:b`;
* with no host, an empty segment that comes to the front begins an authority, as in `/.//a`;
* a path that is all of a URL may vanish, as in `.`, and the empty text is no URL.

Nothing else keeps a normal form from being read from its own text
(`Url.parse?_toText_normalize_iff`).

## What has to be seen

To be read from its own text is to be well formed (`exists_parse?_iff`), and this has thirteen
conditions. All but three are kept by every step of normalization: a change of case keeps every
class that has each letter in both cases (`class_toLower`), a pass over escapes writes only
unreserved characters, and a path gets no others either, but for the slash of an empty one
(`Path.mem_normalChars`). `WellFormed.normalize_iff` collects these and leaves the three conditions
that name the cases above. Where there is a host, all three are met.
-/

namespace HttpFraming

open CharClass

/-! ### Case -/

/-- A class that has each letter in both cases is not left by a change of case. -/
theorem class_toLower {p : Nat → Bool} (hp : ∀ n < 0x5B, 0x41 ≤ n → p (n + 0x20) = p n) (c : Char) :
    p c.toLower.toNat = p c.toNat := by
  by_cases h : 0x41 ≤ c.toNat ∧ c.toNat ≤ 0x5A
  · rw [Utf8.toNat_toLower h, hp c.toNat (by omega) h.1]
  · rw [Utf8.toLower_eq_self h]

theorem toList_lowerCase (s : String) : (lowerCase s).toList = s.toList.map Char.toLower := by
  rw [lowerCase, String.toList_ofList, foldCase]

/-- Such a class is kept by a text in lower case. -/
theorem forall_mem_lowerCase {p : Nat → Bool} (hp : ∀ n < 0x5B, 0x41 ≤ n → p (n + 0x20) = p n)
    {s : String} (hs : ∀ c ∈ s.toList, p c.toNat = true) :
    ∀ c ∈ (lowerCase s).toList, p c.toNat = true := by
  rw [toList_lowerCase, List.forall_mem_map]
  exact fun c hc ↦ (class_toLower hp c).trans (hs c hc)

theorem sameName_lowerCase (s name : String) : sameName (lowerCase s) name = sameName s name := by
  rw [sameName, foldCase_lowerCase, sameName]

namespace Path

variable {s : List Char} {c : Char}

/-! ### Paths -/

/-- What is in the normal form of a path was in it, is unreserved, or is the slash of an empty
path. -/
theorem mem_normalChars {http : Bool} (hc : c ∈ normalChars http s) :
    c ∈ s ∨ isUnreserved c.toNat = true ∨ c = '/' := by
  rw [normalChars] at hc
  split at hc
  · exact .inr (.inr (List.mem_singleton.1 hc))
  · have hmem := (removeDots_sublist _).subset hc
    exact (Percent.mem_or_isUnreserved_of_mem_normalizeChars hmem).imp_right .inl

theorem atSlash_iff : AtSlash s ↔ s = [] ∨ ['/'] <+: s := by
  cases s with
  | nil => simp [atSlash_nil]
  | cons c s => simp [List.cons_prefix_cons, eq_comm]

/-- A path that begins with a slash still does so, and one that is empty stays empty or becomes a
slash. -/
theorem atSlash_normalChars (http : Bool) (hs : AtSlash s) : AtSlash (normalChars http s) := by
  have hescapes : AtSlash (Percent.normalizeChars s) := by
    cases s with
    | nil => exact hs
    | cons c s =>
      obtain rfl := atSlash_cons.1 hs
      rw [Percent.normalizeChars]
      · exact atSlash_cons.2 rfl
      · rintro h l rest ⟨⟩
  rw [normalChars]
  split
  · exact atSlash_cons.2 rfl
  · exact atSlash_removeDots hescapes

end Path

namespace Url

variable {u : Url} {http : Bool}

/-! ### The parts of a normal form -/

theorem IsScheme.lowerCase {s : String} (h : IsScheme s) : IsScheme (lowerCase s) := by
  obtain ⟨c, cs, hs, hc, hcs⟩ := h
  refine ⟨c.toLower, cs.map Char.toLower, by rw [toList_lowerCase, hs, List.map_cons], ?_, ?_⟩
  · exact (class_toLower (p := isAlpha) (by decide) c).trans hc
  · rw [List.forall_mem_map]
    exact fun d hd ↦ (class_toLower (p := isSchemeChar) (by decide) d).trans (hcs d hd)

theorem IsHost.lowerCase {h : String} (hh : IsHost h) : IsHost (lowerCase h) := by
  rcases hh with ⟨hcolon, hclass⟩ | hclass
  · refine .inl ⟨?_, forall_mem_lowerCase (by decide) hclass⟩
    rw [toList_lowerCase]
    exact List.mem_map.2 ⟨':', hcolon, rfl⟩
  · exact .inr (forall_mem_lowerCase (by decide) hclass)

theorem isHttp_map_lowerCase (scheme : Option String) :
    isHttp (scheme.map lowerCase) = isHttp scheme := by
  cases scheme with
  | none => rfl
  | some s => simp only [isHttp, Option.map_some, sameName_lowerCase]

theorem isTargetChar_of_isUnreserved {n : Nat} (h : isUnreserved n = true) :
    isTargetChar n = true := by
  simp only [isUnreserved, isAlphanumeric, isAlpha, isDigit, isTargetChar, Bool.or_eq_true,
    Bool.and_eq_true, beq_iff_eq, bne_iff_ne, decide_eq_true_eq] at h ⊢
  omega

theorem mem_normalize_of_query {q : String} {c : Char} (hc : c ∈ (Percent.normalize q).toList) :
    c ∈ q.toList ∨ isUnreserved c.toNat = true := by
  rw [Percent.normalize, String.toList_ofList] at hc
  exact Percent.mem_or_isUnreserved_of_mem_normalizeChars hc

/-- A normal form has neither blanks nor controls, if the URL has none. -/
theorem WellFormed.clean_normalize (h : u.WellFormed) (http : Bool) :
    ∀ text ∈ (u.normalize http).texts, ∀ c ∈ text.toList, isTargetChar c.toNat = true := by
  obtain ⟨hscheme, huserinfo, hhost, hpath, hquery, hfragment⟩ := forall_mem_texts.1 h.clean
  have hlower (s : String) (hs : ∀ c ∈ s.toList, isTargetChar c.toNat = true) :=
    forall_mem_lowerCase (p := isTargetChar) (by decide) hs
  rw [forall_mem_texts, scheme_normalize, userinfo_normalize, host_normalize, query_normalize,
    fragment_normalize, toList_path_normalize, Option.forall_mem_map, Option.forall_mem_map,
    Option.forall_mem_map]
  refine ⟨fun s hs ↦ hlower s (hscheme s hs), huserinfo, fun s hs ↦ hlower s (hhost s hs),
    fun c hc ↦ ?_, fun q hq c hc ↦ ?_, hfragment⟩
  · rcases Path.mem_normalChars hc with hmem | hunreserved | rfl
    · exact hpath c hmem
    · exact isTargetChar_of_isUnreserved hunreserved
    · decide
  · exact (mem_normalize_of_query hc).elim (hquery q hq c) isTargetChar_of_isUnreserved

theorem WellFormed.path_normalize (h : u.WellFormed) (http : Bool) :
    ∀ c ∈ (u.normalize http).path.toList, c ∉ ['?', '#'] := by
  intro c hc hmark
  rw [toList_path_normalize] at hc
  rcases Path.mem_normalChars hc with hmem | hunreserved | rfl
  · exact h.path c hmem hmark
  · simp only [List.mem_cons, List.not_mem_nil, or_false] at hmark
    rcases hmark with rfl | rfl <;> cases hunreserved
  · exact absurd hmark (by decide)

/-- Behind a host a path still begins with a slash. -/
theorem WellFormed.rooted_normalize (h : u.WellFormed) (http : Bool) (hhost : u.host ≠ none) :
    (u.normalize http).path = "" ∨ ['/'] <+: (u.normalize http).path.toList := by
  have hpath := (h.rooted hhost).imp_left String.toList_eq_nil_iff.2
  have hnormal := Path.atSlash_normalChars http (Path.atSlash_iff.2 hpath)
  rw [← toList_path_normalize, Path.atSlash_iff] at hnormal
  exact hnormal.imp_left String.toList_eq_nil_iff.1

/-- What `http` asks for does not depend on the case of the scheme. -/
theorem WellFormed.http_normalize (h : u.WellFormed) (http : Bool)
    (hhttp : isHttp (u.normalize http).scheme = true) : (u.normalize http).userinfo = none ∧
      (u.normalize http).host ≠ none ∧ (u.normalize http).host ≠ some "" := by
  rw [scheme_normalize, isHttp_map_lowerCase] at hhttp
  obtain ⟨hnone, hsome, hempty⟩ := h.http hhttp
  rw [userinfo_normalize, host_normalize, Option.map_eq_none_iff.ne]
  refine ⟨hnone, hsome, fun heq ↦ hempty ?_⟩
  obtain ⟨s, hs, hlower⟩ := Option.map_eq_some_iff.1 heq
  have hnil := congrArg String.toList hlower
  rw [toList_lowerCase] at hnil
  rw [hs, String.toList_eq_nil_iff.1 (List.map_eq_nil_iff.1 hnil)]

theorem mem_port_of_mem_normalize {n : Nat} (hn : n ∈ (u.normalize http).port) : n ∈ u.port := by
  rw [port_normalize] at hn
  split at hn
  · cases hn
  · exact hn

/-- A normal form is well formed but for its path, which may now be taken for something else. -/
theorem WellFormed.normalize_iff (h : u.WellFormed) (http : Bool) :
    (u.normalize http).WellFormed ↔ u.normalize http ≠ default ∧
      (u.host = none → ¬ ['/', '/'] <+: (u.normalize http).path.toList) ∧
      (u.scheme = none → u.host = none →
        ':' ∉ (u.normalize http).path.toList.takeWhile (· != '/')) := by
  have hhost : (u.normalize http).host = none ↔ u.host = none := by simp
  have hscheme : (u.normalize http).scheme = none ↔ u.scheme = none := by simp
  constructor
  · intro hn
    exact ⟨hn.nonempty, fun hnone ↦ hn.notAuthority (hhost.2 hnone),
      fun hnone hnohost ↦ hn.notScheme (hscheme.2 hnone) (hhost.2 hnohost)⟩
  · rintro ⟨hnonempty, hauthority, hcolon⟩
    exact {
      clean := h.clean_normalize http
      scheme := by
        rw [scheme_normalize, Option.forall_mem_map]
        exact fun s hs ↦ (h.scheme s hs).lowerCase
      authority := by
        rw [userinfo_normalize]
        refine fun hpart ↦ hhost.not.2 (h.authority (hpart.imp_right fun hport hnone ↦ ?_))
        obtain ⟨n, hn⟩ := Option.ne_none_iff_exists'.1 hport
        cases hnone.symm.trans (mem_port_of_mem_normalize hn)
      userinfo := by
        rw [userinfo_normalize]
        exact h.userinfo
      host := by
        rw [host_normalize, Option.forall_mem_map]
        exact fun s hs ↦ (h.host s hs).lowerCase
      port := fun n hn ↦ h.port n (mem_port_of_mem_normalize hn)
      path := h.path_normalize http
      rooted := fun hsome ↦ h.rooted_normalize http (hhost.not.1 hsome)
      notAuthority := fun hnone ↦ hauthority (hhost.1 hnone)
      notScheme := fun hnone hnohost ↦ hcolon (hscheme.1 hnone) (hhost.1 hnohost)
      query := by
        rw [query_normalize, Option.forall_mem_map]
        intro q hq hmem
        exact (mem_normalize_of_query hmem).elim (h.query q hq) fun hhash ↦ by cases hhash
      http := h.http_normalize http
      nonempty := hnonempty }

/-- **What is read and then normalized can be read again exactly when something is left of it, and
what is left of the path is not taken for an authority or for a scheme.** A host rules out all
three. -/
theorem parse?_toText_normalize_iff {s : String} {u : Url} (h : parse? s = some u) (http : Bool) :
    (parse? (u.normalize http).toText = some (u.normalize http) ↔
      u.normalize http ≠ default ∧
        (u.host = none → ¬ ['/', '/'] <+: (u.normalize http).path.toList) ∧
        (u.scheme = none → u.host = none →
          ':' ∉ (u.normalize http).path.toList.takeWhile (· != '/'))) ∧
      (u.host ≠ none → parse? (u.normalize http).toText = some (u.normalize http)) := by
  have hnormal := (wellFormed_of_parse? h).normalize_iff http
  refine ⟨?_, fun hhost ↦ (hnormal.2 ⟨fun hdefault ↦ hhost ?_, fun hnone ↦ absurd hnone hhost,
    fun _ hnone ↦ absurd hnone hhost⟩).parse?_toText⟩
  · rw [← hnormal]
    exact ⟨wellFormed_of_parse?, WellFormed.parse?_toText⟩
  · have hnone := congrArg Url.host hdefault
    rw [host_normalize] at hnone
    exact Option.map_eq_none_iff.1 hnone

/-- Behind a scheme a colon may come to the front. -/
theorem parse?_toText_normalize_iff_scheme :
    parse? "s:./a:b" = some ⟨some "s", none, none, none, "./a:b", none, none⟩ ∧
      parse? ((⟨some "s", none, none, none, "./a:b", none, none⟩ : Url).normalize true).toText =
        some ((⟨some "s", none, none, none, "./a:b", none, none⟩ : Url).normalize true) := by
  have hread : parse? "s:./a:b" = some ⟨some "s", none, none, none, "./a:b", none, none⟩ := by
    decide +kernel
  have hpath : Path.normalChars true "./a:b".toList = "a:b".toList := by
    simp [Path.normalChars, Path.removeDots, Path.segments, Percent.normalizeChars]
  refine ⟨hread, (parse?_toText_normalize_iff hread true).1.2 ⟨?_, fun _ ↦ ?_, ?_⟩⟩
  · intro hdefault
    cases congrArg Url.scheme hdefault
  · rw [toList_path_normalize, hpath]
    decide
  · rintro ⟨⟩

/-- What is left may be empty, or begin with an authority or with a scheme. -/
theorem parse?_toText_normalize_ne :
    (parse? "." = some ⟨none, none, none, none, ".", none, none⟩ ∧
      parse? ((⟨none, none, none, none, ".", none, none⟩ : Url).normalize false).toText ≠
        some ((⟨none, none, none, none, ".", none, none⟩ : Url).normalize false)) ∧
    (parse? "/.//a" = some ⟨none, none, none, none, "/.//a", none, none⟩ ∧
      parse? ((⟨none, none, none, none, "/.//a", none, none⟩ : Url).normalize true).toText ≠
        some ((⟨none, none, none, none, "/.//a", none, none⟩ : Url).normalize true)) ∧
    (parse? "./a:b" = some ⟨none, none, none, none, "./a:b", none, none⟩ ∧
      parse? ((⟨none, none, none, none, "./a:b", none, none⟩ : Url).normalize true).toText ≠
        some ((⟨none, none, none, none, "./a:b", none, none⟩ : Url).normalize true)) := by
  refine ⟨⟨by decide +kernel, fun hread ↦ ?_⟩, ⟨by decide +kernel, fun hread ↦ ?_⟩,
    ⟨by decide +kernel, fun hread ↦ ?_⟩⟩
  · refine (wellFormed_of_parse? hread).nonempty ?_
    have hpath : Path.normalChars false ".".toList = [] := by
      simp [Path.normalChars, Path.removeDots, Path.segments, Percent.normalizeChars]
    exact eq_iff_fields.2 ⟨rfl, rfl, rfl, rfl, (toList_path_normalize _ _).trans hpath, rfl, rfl⟩
  · refine (wellFormed_of_parse? hread).notAuthority rfl ?_
    have hpath : Path.normalChars true "/.//a".toList = "//a".toList := by
      simp [Path.normalChars, Path.removeDots, Path.segments, Percent.normalizeChars]
    rw [toList_path_normalize, hpath]
    decide
  · refine (wellFormed_of_parse? hread).notScheme rfl rfl ?_
    have hpath : Path.normalChars true "./a:b".toList = "a:b".toList := by
      simp [Path.normalChars, Path.removeDots, Path.segments, Percent.normalizeChars]
    rw [toList_path_normalize, hpath]
    decide

end Url

end HttpFraming
