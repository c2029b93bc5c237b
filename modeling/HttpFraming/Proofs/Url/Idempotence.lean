import HttpFraming.Proofs.Url.Dots
import HttpFraming.Proofs.Url.Percent

/-!
# Normalizing a URL twice

Case, ports and dot segments are settled by one pass. Escapes are when each percent sign begins one,
and then the normal form of a URL is its own normal form. A percent sign that begins no escape may
begin one after the pass, so that in general a second pass changes a normal form exactly when an
escape in it is not in normal form (`Url.normalize_normalize_iff`).

## Part by part

A URL is its fields, and a second pass is compared with the first one field by field
(`normalize_normalize_eq_self_iff`). Scheme and host are in lower case, and a port that was not
dropped is not dropped now. Only path and query are left, and in them only escapes.

## The path

In a path two things are done one after the other, and the second might undo the first: to remove a
segment brings others together. But segments are joined at slashes, and what begins with a slash
completes no escape (`Percent.IsNormal.append`), so that escapes in normal form stay so
(`Path.isNormal_removeDots`). In the other direction, a path that a pass leaves as it is has been
changed by neither of the two steps, as both can only make it shorter
(`Path.normalChars_eq_self_iff`).

## Where one pass is not enough

In `/%4%41` the sign of `%4` begins no escape until `%41` has become the letter `A`, and then it
does: one pass gives `/%4A`, and another `/J` (`Url.normalize_normalize_ne`).
-/

namespace HttpFraming

/-! ### Paths -/

namespace Path

variable {s t : List Char} {stack : List (List Char)}

theorem isNormal_flatten (h : Resolved stack) (hstack : ∀ seg ∈ stack, Percent.IsNormal seg) :
    Percent.IsNormal stack.reverse.flatten := by
  induction h with
  | nil => exact Percent.isNormal_nil
  | first segment => simpa using hstack
  | push segment resolved ih =>
    obtain ⟨hseg, hstack⟩ := List.forall_mem_cons.1 hstack
    rw [List.reverse_cons, List.flatten_append, List.flatten_singleton]
    exact (ih hstack).append hseg (atSlash_cons.2 rfl)

/-- Segments are joined at slashes, so that no escape comes about. -/
theorem isNormal_removeDots (hs : Percent.IsNormal s) : Percent.IsNormal (removeDots s) := by
  refine isNormal_flatten (resolved_segments s) fun seg hseg ↦ ?_
  have hpiece := (mem_or_infix_of_mem_segments hseg).resolve_left (List.not_mem_nil)
  exact fun h l a b hescape ↦ hs h l a b (hescape.trans hpiece)

theorem removeDots_slash : removeDots ['/'] = ['/'] :=
  removeDots_of_isSegment (by decide)

theorem isNormal_slash : Percent.IsNormal ['/'] :=
  (Percent.isNormal_cons_of_ne (by decide)).2 Percent.isNormal_nil

/-- A pass leaves no dot segments. -/
theorem removeDots_normalChars (http : Bool) (s : List Char) :
    removeDots (normalChars http s) = normalChars http s := by
  rw [normalChars]
  split
  · exact removeDots_slash
  · exact removeDots_removeDots _

theorem normalChars_ne_nil {http : Bool} (hhttp : http = true) (s : List Char) :
    normalChars http s ≠ [] := by
  rw [normalChars]
  split
  · exact List.cons_ne_nil _ _
  · rename_i hne
    simpa [hhttp] using hne

/-- Of a path without dot segments, a pass can change nothing but the escapes. -/
theorem normalChars_eq_self_iff {http : Bool} (hdots : removeDots s = s)
    (hne : http = true → s ≠ []) : normalChars http s = s ↔ Percent.IsNormal s := by
  rw [← Percent.normalizeChars_eq_self_iff]
  constructor
  · intro hself
    rw [normalChars] at hself
    split at hself
    · rw [← hself]
      rfl
    · -- Neither step makes the path longer, so that neither has made it shorter.
      have hsub := removeDots_sublist (Percent.normalizeChars s)
      rw [hself] at hsub
      exact (hsub.eq_of_length_le (Percent.length_normalizeChars_le s)).symm
  · intro hself
    rw [normalChars, hself, hdots, if_neg]
    simpa using hne

/-- Where every percent sign of a path begins an escape, a pass settles them. -/
theorem isNormal_normalChars (http : Bool) (hs : Percent.WellEscaped s) :
    Percent.IsNormal (normalChars http s) := by
  rw [normalChars]
  split
  · exact isNormal_slash
  · exact isNormal_removeDots (Percent.isNormal_normalizeChars hs)

end Path

/-! ### URLs -/

theorem foldCase_lowerCase (s : String) : foldCase (lowerCase s) = foldCase s := by
  rw [lowerCase, foldCase, foldCase, String.toList_ofList, List.map_map]
  exact List.map_congr_left fun c _ ↦ Utf8.toLower_toLower c

@[simp] theorem lowerCase_lowerCase (s : String) : lowerCase (lowerCase s) = lowerCase s := by
  rw [lowerCase, foldCase_lowerCase, lowerCase]

namespace Url

/-- In path and query, every percent sign begins an escape. -/
def WellEscaped (u : Url) : Prop :=
  Percent.WellEscaped u.path.toList ∧ ∀ q ∈ u.query, Percent.WellEscaped q.toList

/-- In path and query, every escape is in normal form. -/
def IsNormal (u : Url) : Prop :=
  Percent.IsNormal u.path.toList ∧ ∀ q ∈ u.query, Percent.IsNormal q.toList

variable (u : Url) (http : Bool)

theorem eq_iff_fields {u v : Url} : u = v ↔ u.scheme = v.scheme ∧ u.userinfo = v.userinfo ∧
    u.host = v.host ∧ u.port = v.port ∧ u.path.toList = v.path.toList ∧ u.query = v.query ∧
      u.fragment = v.fragment := by
  cases u
  cases v
  simp [String.toList_inj]

/-- A port that one pass has left is left by the next. -/
theorem port_normalize_normalize :
    ((u.normalize http).normalize http).port = (u.normalize http).port := by
  rw [port_normalize, port_normalize, scheme_normalize]
  split
  · exact ite_self _
  · rename_i hport
    have hscheme : (u.scheme.map lowerCase).map lowerCase = u.scheme.map lowerCase := by
      simp [Function.comp_def]
    rw [hscheme, if_neg hport]

theorem map_percentNormalize_eq_self_iff {query : Option String} :
    query.map Percent.normalize = query ↔ ∀ q ∈ query, Percent.IsNormal q.toList := by
  cases query with
  | none => simp
  | some q =>
    simp only [Option.map_some, Option.some.injEq, Option.mem_def, forall_eq']
    rw [← Percent.normalizeChars_eq_self_iff, Percent.normalize, ← String.toList_inj,
      String.toList_ofList]

/-- Nothing but escapes can be changed by a second pass. -/
theorem normalize_normalize_eq_self_iff :
    (u.normalize http).normalize http = u.normalize http ↔ (u.normalize http).IsNormal := by
  have hpath : Path.normalChars http (u.normalize http).path.toList = (u.normalize http).path.toList
      ↔ Percent.IsNormal (u.normalize http).path.toList := by
    rw [toList_path_normalize]
    exact Path.normalChars_eq_self_iff (Path.removeDots_normalChars http _)
      fun hhttp ↦ Path.normalChars_ne_nil hhttp _
  rw [IsNormal, ← hpath, ← map_percentNormalize_eq_self_iff, eq_iff_fields,
    toList_path_normalize (u.normalize http), query_normalize (u.normalize http)]
  constructor
  · rintro ⟨-, -, -, -, hpath, hquery, -⟩
    exact ⟨hpath, hquery⟩
  · rintro ⟨hpath, hquery⟩
    exact ⟨by simp [Function.comp_def], by simp, by simp [Function.comp_def],
      port_normalize_normalize u http, hpath, hquery, by simp⟩

variable {u} in
/-- Where every percent sign begins an escape, one pass is enough. -/
theorem WellEscaped.isNormal_normalize (h : u.WellEscaped) : (u.normalize http).IsNormal := by
  refine ⟨?_, fun q hq ↦ ?_⟩
  · rw [toList_path_normalize]
    exact Path.isNormal_normalChars http h.1
  · rw [query_normalize] at hq
    obtain ⟨p, hp, rfl⟩ := Option.map_eq_some_iff.1 hq
    rw [Percent.normalize, String.toList_ofList]
    exact Percent.isNormal_normalizeChars (h.2 p hp)

/-- **A second pass leaves a normal form as it is exactly when the escapes in it are in normal form,
which they are if in the URL every percent sign begins an escape.** -/
theorem normalize_normalize_iff (u : Url) (http : Bool) :
    ((u.normalize http).normalize http = u.normalize http ↔ (u.normalize http).IsNormal) ∧
      (u.WellEscaped → (u.normalize http).normalize http = u.normalize http) :=
  ⟨normalize_normalize_eq_self_iff u http,
    fun h ↦ (normalize_normalize_eq_self_iff u http).2 (h.isNormal_normalize http)⟩

/-- Escapes of dots and of a percent sign, in either case. -/
theorem normalize_normalize_iff_escaped :
    (⟨some "HTTP", none, some "H", some 80, "/a/%2e%2E/%2541", some "%2f%7e", none⟩ :
        Url).WellEscaped ∧
      ((⟨some "HTTP", none, some "H", some 80, "/a/%2e%2E/%2541", some "%2f%7e", none⟩ :
        Url).normalize true).normalize true =
      (⟨some "HTTP", none, some "H", some 80, "/a/%2e%2E/%2541", some "%2f%7e", none⟩ :
        Url).normalize true := by
  have hu : (⟨some "HTTP", none, some "H", some 80, "/a/%2e%2E/%2541", some "%2f%7e", none⟩ :
      Url).WellEscaped := by
    refine ⟨by decide, ?_⟩
    rintro _ ⟨⟩
    decide
  exact ⟨hu, (normalize_normalize_iff _ true).2 hu⟩

/-- The percent sign of `%4` begins an escape as soon as the next one has become a digit: one pass
gives `/%4A`, a second `/J`. -/
theorem normalize_normalize_ne :
    ((⟨none, none, none, none, "/%4%41", none, none⟩ : Url).normalize false).normalize false ≠
      (⟨none, none, none, none, "/%4%41", none, none⟩ : Url).normalize false := by
  have hpass (before after : List Char) (hescapes : Percent.normalizeChars before = after)
      (hsegment : Path.IsSegment after) :
      (⟨none, none, none, none, String.ofList before, none, none⟩ : Url).normalize false =
        ⟨none, none, none, none, String.ofList after, none, none⟩ := by
    simp [normalize, normalizeGeneral, Path.normalize, Percent.normalize, hescapes,
      Path.removeDots_of_isSegment hsegment]
  have hfirst := hpass "/%4%41".toList "/%4A".toList (by decide) (by decide)
  have hsecond := hpass "/%4A".toList "/J".toList (by decide) (by decide)
  simp only [String.ofList_toList] at hfirst hsecond
  rw [hfirst, hsecond]
  decide

end Url

end HttpFraming
