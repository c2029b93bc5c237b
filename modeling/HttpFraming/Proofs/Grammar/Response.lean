import HttpFraming.Proofs.Grammar.Head
import HttpFraming.Proofs.Grammar.StatusLine

/-!
# The responses that a parser accepts

A parser of responses accepts exactly the octets that spell a response, if the response keeps within
its limits: `ResponseParser.accepts_iff_spells`. A `ResponseText` is what such octets say, as text.
Every one of them is a response, for a status code is no more than its three digits.

The three equivalences that are put together are those for requests, with the language of response
heads (`Lexer.ends_response`) in the place of that of request heads.

An empty reason is the one part of a message of which a handler is not told. A draft begins with an
empty reason, so that it comes to the same (`tellReason?_new`), and an empty reason keeps within any
limit, even zero. A reason that is not empty may be any octets of a field value, and need not be
text; if it is not, the response is refused when it is assembled.

The main result is `ResponseParser.accepts_iff_exists_response`.
-/

namespace HttpFraming

open CharClass

/-- A response head as it is written. -/
structure ResponseText where
  version : Version
  status : Nat
  reason : String
  lines : List FieldLine

namespace ResponseText

/-- The octets of a response, by their parts. -/
def raw (r : ResponseText) : RawResponse :=
  ⟨r.version, r.status, Utf8.encode r.reason, r.lines.map FieldLine.raw⟩

/-- Some octets spell a response. -/
def Spells (r : ResponseText) (x : Octets) : Prop :=
  r.raw.Spells x

/-- The header fields of a response. -/
def headers (r : ResponseText) : Headers :=
  .ofList (r.lines.map FieldLine.field)

/-- The response that is written. -/
def response (r : ResponseText) : Response :=
  ⟨r.status, r.reason, r.version, r.headers⟩

/-- A response keeps within some limits. -/
structure Fits (r : ResponseText) (limits : Limits) : Prop where
  reason : r.raw.reason.length ≤ limits.reason
  count : r.raw.lines.length ≤ limits.headerCount
  size : ∀ l ∈ r.raw.lines, l.size ≤ limits.header

/-- A text that is spelled keeps within limits that exceed the length of its spelling. -/
theorem Spells.fits {r : ResponseText} {x : Octets} {limits : Limits} (h : r.Spells x)
    (hlimits : limits.Exceed x.length) : r.Fits limits := by
  obtain ⟨hreason, hcount, hsize⟩ := RawResponse.Spells.le_length h
  exact ⟨Nat.le_trans hreason (Nat.le_of_lt hlimits.reason),
    Nat.le_trans hcount (Nat.le_of_lt hlimits.headerCount),
    fun l hl ↦ Nat.le_trans (hsize l hl) (Nat.le_of_lt hlimits.header)⟩

end ResponseText

/-- A draft of a response with a reason and some header lines. -/
def HeadDraft.ofResponse (limits : Limits) (reason : Octets) (c : FieldCollector) :
    HeadDraft Response :=
  ⟨limits, ⟨[], [], reason⟩, c, .reading⟩

/-- What a draft holds that was told a reason. An empty reason leaves it as it is, and keeps within
every limit. -/
theorem tellReason?_new {limits : Limits} {reason : Octets} {d : HeadDraft Response} :
    Lexer.tellReason? HeadDraft.handle (.new limits) reason = some d ↔
      reason.length ≤ limits.reason ∧ .ofResponse limits reason .empty = d := by
  cases reason with
  | nil =>
    have hnew : HeadDraft.new limits = HeadDraft.ofResponse limits [] .empty := rfl
    simp [Lexer.tellReason?, hnew]
  | cons b reason =>
    have htell : Lexer.tellReason? HeadDraft.handle (.new limits : HeadDraft Response)
        (b :: reason) = Lexer.told? HeadDraft.handle (.new limits) .reason (b :: reason) := rfl
    rw [htell, HeadDraft.told?_eq_some_iff]
    by_cases hlt : limits.reason < (b :: reason).length
    · simp only [HeadDraft.collect, HeadDraft.new, List.length_nil, Nat.zero_add, hlt, if_true]
      exact iff_of_false (fun h ↦ by cases h) fun h ↦ Nat.not_le.2 hlt h.1
    · simp only [HeadDraft.collect, HeadDraft.new, List.length_nil, Nat.zero_add, hlt, if_false,
        List.nil_append, Except.ok.injEq]
      exact (and_iff_right (Nat.not_lt.1 hlt)).symm

/-- What a draft holds that was told the parts of a response. -/
theorem tellResponse?_new {limits : Limits} {p : RawResponse} {d : HeadDraft Response} :
    Lexer.tellResponse? HeadDraft.handle (.new limits) p = some d ↔
      p.reason.length ≤ limits.reason ∧
        ∃ c, FieldCollector.empty.addLines limits p.lines = .ok c ∧
          HeadDraft.ofResponse limits p.reason c = d := by
  have hlines := (HeadDraft.wraps_handle (.ofResponse limits p.reason .empty)).tellLines?
    .empty p.lines d
  rw [Lexer.tellResponse?, Option.bind_eq_some_iff]
  simp only [tellReason?_new]
  constructor
  · rintro ⟨_, ⟨hle, rfl⟩, htell⟩
    exact ⟨hle, hlines.1 htell⟩
  · rintro ⟨hle, h⟩
    exact ⟨_, ⟨hle, rfl⟩, hlines.2 h⟩

/-- A response is put together if its reason is text and its headers can be had. -/
theorem assemble_ofResponse {limits : Limits} {reason : Octets} {c : FieldCollector}
    {line : StartLine} {p : Response} :
    (HeadDraft.ofResponse limits reason c).assemble line = .ok p ↔
      ∃ t h, Utf8.encode t = reason ∧ c.finish = .ok h ∧
        p = ⟨line.status, t, line.version, h⟩ := by
  constructor
  · intro hp
    simp only [HeadDraft.assemble, HeadDraft.ofResponse, ReadableHead.assemble] at hp
    rcases ht : Utf8.decode? reason with - | t
    · rw [ht] at hp
      cases hp
    rw [ht] at hp
    obtain ⟨h, hfinish, rfl⟩ := map_eq_ok_iff.1 hp
    exact ⟨t, h, Utf8.decode?_eq_some_iff.1 ht, hfinish, rfl⟩
  · rintro ⟨t, h, rfl, hfinish, rfl⟩
    simp only [HeadDraft.assemble, HeadDraft.ofResponse, ReadableHead.assemble, Utf8.decode?_encode,
      hfinish]
    rfl

namespace ResponseParser

variable {limits : Limits} {x y : Octets} {p : Response}

/-- **What a parser of responses accepts** is what spells a response that keeps within the limits.
-/
theorem accepts_iff_spells :
    (HeadParser.new limits : ResponseParser).outcome (x ++ y) = (.accepted p, x.length) ↔
      ∃ r : ResponseText, r.Spells x ∧ r.Fits limits ∧ r.response = p := by
  rw [HeadParser.outcome_eq_accepted_iff (HeadParser.live_new limits) (by decide)]
  constructor
  · rintro ⟨z, d, line, rfl, hends, hassemble⟩
    have hstart : Lexer.Ends HeadDraft.handle ((Lexer.new .response).inPhase .responseStart)
        (.new limits) [] z d line := hends
    obtain ⟨⟨version, status, reason, lines⟩, hspells, htell, rfl⟩ :=
      Lexer.ends_response.1 hstart
    obtain ⟨hreason, c, hc, rfl⟩ := tellResponse?_new.1 htell
    obtain ⟨t, h, rfl, hfinish, rfl⟩ := assemble_ofResponse.1 hassemble
    obtain ⟨fs, rfl, hcount, hsize, rfl⟩ :=
      FieldCollector.finish_addLines_empty.1 ⟨c, hc, hfinish⟩
    exact ⟨⟨version, status, t, fs⟩, hspells, ⟨hreason, hcount, hsize⟩, rfl⟩
  · rintro ⟨⟨version, status, t, fs⟩, hspells, ⟨hreason, hcount, hsize⟩, rfl⟩
    obtain ⟨c, hc, hfinish⟩ := FieldCollector.finish_addLines_empty.2
      ⟨fs, rfl, hcount, hsize, rfl⟩
    obtain ⟨z, rfl⟩ := RawResponse.Spells.exists_append_lf hspells
    have htell := tellResponse?_new
      (p := ⟨version, status, Utf8.encode t, fs.map FieldLine.raw⟩).2 ⟨hreason, c, hc, rfl⟩
    have hstart : Lexer.Ends HeadDraft.handle ((Lexer.new .response).inPhase .responseStart)
        (.new limits) [] z _ ⟨version, status⟩ := Lexer.ends_response.2 ⟨_, hspells, htell, rfl⟩
    exact ⟨z, _, _, rfl, hstart, assemble_ofResponse.2 ⟨t, _, rfl, hfinish, rfl⟩⟩

/-- **The language of responses.** Under limits that no part of `x` can exceed, and whatever comes
after `x`, a parser of responses accepts `x` and no octet more exactly if `x` spells a response. The
response is then the one that is spelled. -/
theorem accepts_iff_exists_response (limits : Limits) (x y : Octets)
    (hlimits : limits.Exceed x.length) :
    (((HeadParser.new limits : ResponseParser).parse (x ++ y)).1.done = true ∧
        ((HeadParser.new limits : ResponseParser).parse (x ++ y)).1.error? = none ∧
        ((HeadParser.new limits : ResponseParser).parse (x ++ y)).2 = x.length ↔
      ∃ r : ResponseText, r.Spells x) ∧
    ∀ r : ResponseText, r.Spells x →
      ((HeadParser.new limits : ResponseParser).parse (x ++ y)).1.head? =
        some ⟨r.status, r.reason, r.version, r.headers⟩ := by
  have haccepts {r : ResponseText} (hr : r.Spells x) :
      (HeadParser.new limits : ResponseParser).outcome (x ++ y) =
        (.accepted r.response, x.length) :=
    accepts_iff_spells.2 ⟨r, hr, hr.fits hlimits, rfl⟩
  refine ⟨?_, fun r hr ↦ (HeadParser.of_verdict_accepted (Prod.mk.inj (haccepts hr)).1).2.2⟩
  rw [← HeadParser.exists_outcome_accepted_iff]
  constructor
  · rintro ⟨p, hp⟩
    obtain ⟨r, hr, -⟩ := accepts_iff_spells.1 hp
    exact ⟨r, hr⟩
  · rintro ⟨r, hr⟩
    exact ⟨r.response, haccepts hr⟩

/-- `HTTP/1.1 007` and two spaces, the second of which is the reason, an empty line, and one octet
more. -/
theorem accepts_iff_exists_response_blank :
    Limits.standard.Exceed 16 ∧
      ((HeadParser.new .standard : ResponseParser).parse
        ([0x48, 0x54, 0x54, 0x50, 0x2F, 0x31, 0x2E, 0x31, 0x20, 0x30, 0x30, 0x37, 0x20, 0x20, 0x0A,
          0x0A] ++ [0x58])).1.head? = some ⟨7, " ", .http11, .empty⟩ := by
  have hlimits : Limits.standard.Exceed 16 := ⟨by decide, by decide, by decide, by decide⟩
  have hone : Radix.decimal.Spells 1000 1 [0x31] :=
    ⟨List.cons_ne_nil _ _, by decide, by decide, by decide⟩
  have hstatus : SpellsStatus 7 [0x30, 0x30, 0x37] := ⟨rfl, by decide, by decide⟩
  have hspells : (⟨.http11, 7, " ", []⟩ : ResponseText).Spells
      [0x48, 0x54, 0x54, 0x50, 0x2F, 0x31, 0x2E, 0x31, 0x20, 0x30, 0x30, 0x37, 0x20, 0x20, 0x0A,
        0x0A] :=
    .mk (p := ⟨.http11, 7, [0x20], []⟩) only_nil (.mk (v := .http11) hone hone) hstatus
      (.given (by decide)) .lf .nil .lf
  refine ⟨hlimits, (accepts_iff_exists_response .standard _ [0x58] ?_).2 _ hspells⟩
  exact hlimits

end ResponseParser

end HttpFraming
