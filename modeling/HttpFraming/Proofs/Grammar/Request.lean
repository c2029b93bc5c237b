import HttpFraming.Proofs.Grammar.Head
import HttpFraming.Proofs.Grammar.RequestLine

/-!
# The requests that a parser accepts

A parser of requests accepts exactly the octets that spell a request, if the request keeps within
its limits: `RequestParser.accepts_iff_spells`. A `RequestText` is what such octets say, as text. It
is the grammar that the parser is held against, and it knows of no lexer.

Three things are put together here, each of which is an equivalence: that a parser accepts where its
lexer comes to the end of the headers and a head can be assembled (`outcome_eq_accepted_iff`), what
leads a lexer of requests there (`Lexer.ends_request`), and what a draft holds that was told the
parts of a request (`tellRequest?_new`).

A request is assembled from its method, its target and its lines as text. A method is text in any
case, since a token is ASCII, and it names some method whatever it is (`Method.exists_parse?`). The
target may be any octets but blanks and control characters, and the values may be so too, and need
not be text. If one of them is not, the request is refused when it is assembled, and there is no
`RequestText` that spells it.

`RequestParser.accepts_iff_exists_spells` is the main result. Its limits are such that the input
cannot exceed them, so that they do not occur in the language.
-/

namespace HttpFraming

open CharClass

/-- A request head as it is written. -/
structure RequestText where
  method : String
  target : String
  version : Version
  lines : List FieldLine

namespace RequestText

/-- The octets of a request, by their parts. -/
def raw (r : RequestText) : RawRequest :=
  ⟨Utf8.encode r.method, Utf8.encode r.target, r.version, r.lines.map FieldLine.raw⟩

/-- Some octets spell a request. -/
def Spells (r : RequestText) (x : Octets) : Prop :=
  r.raw.Spells x

/-- The header fields of a request. -/
def headers (r : RequestText) : Headers :=
  .ofList (r.lines.map FieldLine.field)

/-- The request that is written, if it has a method. -/
def request? (r : RequestText) : Option Request :=
  (Method.parse? r.method).map fun method ↦ ⟨method, r.target, r.version, r.headers⟩

/-- A request keeps within some limits. -/
structure Fits (r : RequestText) (limits : Limits) : Prop where
  target : r.raw.target.length ≤ limits.target
  count : r.raw.lines.length ≤ limits.headerCount
  size : ∀ l ∈ r.raw.lines, l.size ≤ limits.header

/-- A text that is spelled keeps within limits that exceed the length of its spelling. -/
theorem Spells.fits {r : RequestText} {x : Octets} {limits : Limits} (h : r.Spells x)
    (hlimits : limits.Exceed x.length) : r.Fits limits := by
  obtain ⟨htarget, hcount, hsize⟩ := RawRequest.Spells.le_length h
  exact ⟨Nat.le_trans htarget (Nat.le_of_lt hlimits.target),
    Nat.le_trans hcount (Nat.le_of_lt hlimits.headerCount),
    fun l hl ↦ Nat.le_trans (hsize l hl) (Nat.le_of_lt hlimits.header)⟩

end RequestText

/-- A draft of a request with a start line and some header lines. -/
def HeadDraft.ofRequest (limits : Limits) (method target : Octets) (c : FieldCollector) :
    HeadDraft Request :=
  ⟨limits, ⟨method, target, []⟩, c, .reading⟩

/-- What a draft holds that was told the parts of a request. -/
theorem tellRequest?_new {limits : Limits} {q : RawRequest} {d : HeadDraft Request} :
    Lexer.tellRequest? HeadDraft.handle (.new limits) q = some d ↔
      q.target.length ≤ limits.target ∧
        ∃ c, FieldCollector.empty.addLines limits q.lines = .ok c ∧
          HeadDraft.ofRequest limits q.method q.target c = d := by
  have hmethod : Lexer.told? HeadDraft.handle (.new limits) .method q.method =
      some (.ofRequest limits q.method [] .empty) :=
    HeadDraft.told?_eq_some_iff.2 rfl
  have htarget (u : HeadDraft Request) :
      Lexer.told? HeadDraft.handle (.ofRequest limits q.method [] .empty) .target q.target =
          some u ↔
        q.target.length ≤ limits.target ∧ .ofRequest limits q.method q.target .empty = u := by
    rw [HeadDraft.told?_eq_some_iff]
    by_cases hlt : limits.target < q.target.length
    · simp [HeadDraft.collect, HeadDraft.ofRequest, hlt, Nat.not_le.2 hlt]
    · simp [HeadDraft.collect, HeadDraft.ofRequest, hlt, Nat.not_lt.1 hlt]
  have hlines := (HeadDraft.wraps_handle (.ofRequest limits q.method q.target .empty)).tellLines?
    .empty q.lines d
  rw [Lexer.tellRequest?, hmethod, Option.bind_some, Option.bind_eq_some_iff]
  simp only [htarget]
  constructor
  · rintro ⟨_, ⟨hle, rfl⟩, htell⟩
    exact ⟨hle, hlines.1 htell⟩
  · rintro ⟨hle, h⟩
    exact ⟨_, ⟨hle, rfl⟩, hlines.2 h⟩

/-- A text of one `tchar` or more names a method. -/
theorem Method.exists_parse? {s : String} (hne : Utf8.encode s ≠ [])
    (h : Only isTchar (Utf8.encode s)) : ∃ m, Method.parse? s = some m := by
  have hlist : s.toList ≠ [] := fun hnil ↦ hne (by rw [Utf8.encode, hnil]; rfl)
  have htoken : Method.isToken s = true := by
    rw [Method.isToken, Bool.and_eq_true, List.all_eq_true]
    refine ⟨?_, (Utf8.only_encode_iff lt_of_isTchar s).1 h⟩
    simpa using hlist
  rw [Method.parse?]
  cases Method.known.find? (·.name == s) with
  | some m => exact ⟨m, rfl⟩
  | none => exact ⟨.extension s, if_pos htoken⟩

/-- What spells a request has a method. -/
theorem RequestText.Spells.exists_method {r : RequestText} {x : Octets} (h : r.Spells x) :
    ∃ m, Method.parse? r.method = some m := by
  cases h with
  | mk _ hne honly => exact Method.exists_parse? hne honly

/-- A request is put together if its start line is text and its headers can be had. -/
theorem assemble_ofRequest {limits : Limits} {method target : Octets} {c : FieldCollector}
    {line : StartLine} {q : Request} :
    (HeadDraft.ofRequest limits method target c).assemble line = .ok q ↔
      ∃ s t m h, Utf8.encode s = method ∧ Utf8.encode t = target ∧ Method.parse? s = some m ∧
        c.finish = .ok h ∧ q = ⟨m, t, line.version, h⟩ := by
  constructor
  · intro hq
    simp only [HeadDraft.assemble, HeadDraft.ofRequest, ReadableHead.assemble] at hq
    rcases hm : (Utf8.decode? method).bind Method.parse? with - | m
    · rw [hm] at hq
      cases hq
    rcases ht : Utf8.decode? target with - | t
    · rw [hm, ht] at hq
      cases hq
    rw [hm, ht] at hq
    obtain ⟨s, hs, hm'⟩ := Option.bind_eq_some_iff.1 hm
    obtain ⟨h, hfinish, rfl⟩ := map_eq_ok_iff.1 hq
    exact ⟨s, t, m, h, Utf8.decode?_eq_some_iff.1 hs, Utf8.decode?_eq_some_iff.1 ht, hm',
      hfinish, rfl⟩
  · rintro ⟨s, t, m, h, rfl, rfl, hm, hfinish, rfl⟩
    simp only [HeadDraft.assemble, HeadDraft.ofRequest, ReadableHead.assemble, Utf8.decode?_encode,
      Option.bind_some, hm, hfinish]
    rfl

namespace RequestParser

variable {limits : Limits} {x y : Octets} {q : Request}

/-- **What a parser of requests accepts** is what spells a request that keeps within the limits. -/
theorem accepts_iff_spells :
    (HeadParser.new limits : RequestParser).outcome (x ++ y) = (.accepted q, x.length) ↔
      ∃ r : RequestText, r.Spells x ∧ r.Fits limits ∧ r.request? = some q := by
  rw [HeadParser.outcome_eq_accepted_iff (HeadParser.live_new limits) (by decide)]
  constructor
  · rintro ⟨z, d, line, rfl, hends, hassemble⟩
    have hstart : Lexer.Ends HeadDraft.handle ((Lexer.new .request).inPhase .requestStart)
        (.new limits) [] z d line := hends
    obtain ⟨⟨method, target, version, lines⟩, hspells, htell, rfl⟩ := Lexer.ends_request.1 hstart
    obtain ⟨htarget, c, hc, rfl⟩ := tellRequest?_new.1 htell
    obtain ⟨s, t, m, h, rfl, rfl, hm, hfinish, rfl⟩ := assemble_ofRequest.1 hassemble
    obtain ⟨fs, rfl, hcount, hsize, rfl⟩ :=
      FieldCollector.finish_addLines_empty.1 ⟨c, hc, hfinish⟩
    refine ⟨⟨s, t, version, fs⟩, hspells, ⟨htarget, hcount, hsize⟩, ?_⟩
    rw [RequestText.request?, hm]
    rfl
  · rintro ⟨⟨s, t, version, fs⟩, hspells, ⟨htarget, hcount, hsize⟩, hq⟩
    obtain ⟨m, hm, rfl⟩ := Option.map_eq_some_iff.1 hq
    obtain ⟨c, hc, hfinish⟩ := FieldCollector.finish_addLines_empty.2
      ⟨fs, rfl, hcount, hsize, rfl⟩
    obtain ⟨z, rfl⟩ := RawRequest.Spells.exists_append_lf hspells
    have htell := tellRequest?_new
      (q := ⟨Utf8.encode s, Utf8.encode t, version, fs.map FieldLine.raw⟩).2 ⟨htarget, c, hc, rfl⟩
    have hstart : Lexer.Ends HeadDraft.handle ((Lexer.new .request).inPhase .requestStart)
        (.new limits) [] z _ ⟨version, 0⟩ := Lexer.ends_request.2 ⟨_, hspells, htell, rfl⟩
    refine ⟨z, _, _, rfl, hstart, ?_⟩
    exact assemble_ofRequest.2 ⟨s, t, m, _, rfl, rfl, hm, hfinish, rfl⟩

/-- **The language of requests.** Under limits that no part of `x` can exceed, and whatever comes
after `x`, a parser of requests accepts `x` and no octet more exactly if `x` spells a request. The
request is then the one that is spelled. -/
theorem accepts_iff_exists_spells (limits : Limits) (x y : Octets)
    (hlimits : limits.Exceed x.length) :
    (((HeadParser.new limits : RequestParser).parse (x ++ y)).1.done = true ∧
        ((HeadParser.new limits : RequestParser).parse (x ++ y)).1.error? = none ∧
        ((HeadParser.new limits : RequestParser).parse (x ++ y)).2 = x.length ↔
      ∃ r : RequestText, r.Spells x) ∧
    ∀ r : RequestText, r.Spells x → ∃ method, Method.parse? r.method = some method ∧
      ((HeadParser.new limits : RequestParser).parse (x ++ y)).1.head? =
        some ⟨method, r.target, r.version, r.headers⟩ := by
  have haccepts {r : RequestText} (hr : r.Spells x) : ∃ method,
      Method.parse? r.method = some method ∧
        (HeadParser.new limits : RequestParser).outcome (x ++ y) =
          (.accepted ⟨method, r.target, r.version, r.headers⟩, x.length) := by
    obtain ⟨m, hm⟩ := hr.exists_method
    refine ⟨m, hm, accepts_iff_spells.2 ⟨r, hr, hr.fits hlimits, ?_⟩⟩
    rw [RequestText.request?, hm]
    rfl
  refine ⟨⟨?_, ?_⟩, fun r hr ↦ ?_⟩
  · rintro ⟨hdone, herror, hconsumed⟩
    obtain ⟨q, hq⟩ := HeadParser.exists_verdict_accepted hdone herror
    obtain ⟨r, hr, -⟩ := accepts_iff_spells.1 (Prod.ext hq hconsumed)
    exact ⟨r, hr⟩
  · rintro ⟨r, hr⟩
    obtain ⟨m, -, houtcome⟩ := haccepts hr
    obtain ⟨hverdict, hconsumed⟩ := Prod.mk.inj houtcome
    obtain ⟨hdone, herror, -⟩ := HeadParser.of_verdict_accepted hverdict
    exact ⟨hdone, herror, hconsumed⟩
  · obtain ⟨m, hm, houtcome⟩ := haccepts hr
    exact ⟨m, hm, (HeadParser.of_verdict_accepted (Prod.mk.inj houtcome).1).2.2⟩

/-- `G /` on a line of its own, an empty line, and one octet more. -/
theorem accepts_iff_exists_spells_short :
    Limits.standard.Exceed 5 ∧
      ∃ method, Method.parse? "G" = some method ∧
        ((HeadParser.new .standard : RequestParser).parse
          ([0x47, 0x20, 0x2F, 0x0A, 0x0A] ++ [0x58])).1.head? =
            some ⟨method, "/", .http09, .empty⟩ := by
  have hlimits : Limits.standard.Exceed 5 := ⟨by decide, by decide, by decide, by decide⟩
  have hspells : (⟨"G", "/", .http09, []⟩ : RequestText).Spells [0x47, 0x20, 0x2F, 0x0A, 0x0A] :=
    .mk (q := ⟨[0x47], [0x2F], .http09, []⟩) only_nil (List.cons_ne_nil _ _)
      (only_cons.2 ⟨by decide, only_nil⟩) (by decide) (List.cons_ne_nil _ _)
      (only_cons.2 ⟨by decide, only_nil⟩) .absent .lf .nil .lf
  exact ⟨hlimits,
    (accepts_iff_exists_spells .standard [0x47, 0x20, 0x2F, 0x0A, 0x0A] [0x58] hlimits).2 _ hspells⟩

end RequestParser

end HttpFraming
