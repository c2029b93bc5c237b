import HttpFraming.Proofs.Fragmentation.Body
import HttpFraming.Proofs.Grammar.Chunk
import HttpFraming.Proofs.Grammar.Fields

/-!
# The chunked bodies that a decoder accepts

A decoder of chunked bodies accepts exactly the octets that spell a chunked body, if the trailer
keeps within its limits: `ChunkedDecoder.accepts_iff_spells`. What it hands out then is the data of
all chunks. A `ChunkedText` is what such octets say, with the trailer as text.

The decoder is called until it makes no more progress, and each call stops behind a window. What is
known of all calls together is that they come to one run of a gathering (`settles_decode`), and a
gathering is a handler like any other: it goes through the language of `Lexer.ends_chunked`, with
the data put together in one place. This is the only use that is made of the loop.

Limits concern the trailer only. The size of a chunk is bounded by the grammar, and no limit by the
length of the data.

`ChunkedDecoder.decodes_iff_exists_spells` is the main result. It says in one statement that the
octets that are accepted are those that spell a body, and what is handed out for any spelling of
them.
-/

namespace HttpFraming

/-- A chunked body as it is written. -/
structure ChunkedText where
  /-- The data of each chunk but the last, which has none. -/
  chunks : List Octets
  lines : List FieldLine

namespace ChunkedText

/-- The octets of a chunked body, by their parts. -/
def raw (t : ChunkedText) : RawChunked :=
  ⟨t.chunks, t.lines.map FieldLine.raw⟩

/-- Some octets spell a chunked body. -/
def Spells (t : ChunkedText) (x : Octets) : Prop :=
  t.raw.Spells x

/-- The data of all chunks. -/
def body (t : ChunkedText) : Octets :=
  t.chunks.flatten

/-- The fields of the trailer. -/
def trailers (t : ChunkedText) : Headers :=
  .ofList (t.lines.map FieldLine.field)

/-- The trailer of a chunked body keeps within some limits. -/
structure Fits (t : ChunkedText) (limits : Limits) : Prop where
  count : t.raw.lines.length ≤ limits.headerCount
  size : ∀ l ∈ t.raw.lines, l.size ≤ limits.header

/-- A body that is spelled keeps within limits that exceed the length of its spelling. -/
theorem Spells.fits {t : ChunkedText} {x : Octets} {limits : Limits} (h : t.Spells x)
    (hheader : x.length < limits.header) (hcount : x.length < limits.headerCount) :
    t.Fits limits := by
  obtain ⟨hcount', hsize⟩ := RawChunked.Spells.le_length h
  exact ⟨Nat.le_trans hcount' (Nat.le_of_lt hcount),
    fun l hl ↦ Nat.le_trans (hsize l hl) (Nat.le_of_lt hheader)⟩

end ChunkedText

namespace BodyGathering

/-- A gathering goes on after a piece if it collects the piece. -/
theorem told?_eq_some_iff {g g' : BodyGathering} {span : Span} {piece : Octets} :
    Lexer.told? handle g span piece = some g' ↔ g.collect span piece = .ok g' :=
  gathers_handle.told?_eq_some_iff

/-- A gathering passes trailer lines on to its collector. -/
theorem wraps_handle (g : BodyGathering) :
    FieldCollector.Wraps g.draft.limits handle g.withFields where
  name c piece g' := by
    rw [told?_eq_some_iff]
    exact map_eq_ok_iff
  value c piece g' := by
    rw [told?_eq_some_iff]
    exact map_eq_ok_iff

/-- What a gathering holds that was told the data of some chunks. -/
theorem tellChunks? (d : BodyDraft) (body : Octets) (chunks : List Octets) :
    Lexer.tellChunks? handle ⟨d, body⟩ chunks = some ⟨d, body ++ chunks.flatten⟩ := by
  induction chunks generalizing body with
  | nil => simp [Lexer.tellChunks?]
  | cons data chunks ih =>
    rw [Lexer.tellChunks?, List.foldlM_cons, List.flatten_cons, ← List.append_assoc]
    exact ih (body ++ data)

/-- What a gathering holds that was told the parts of a chunked body. -/
theorem tellChunked?_new {limits : Limits} {c : RawChunked} {g : BodyGathering} :
    Lexer.tellChunked? handle ⟨.new limits, []⟩ c = some g ↔
      ∃ fields, FieldCollector.empty.addLines limits c.lines = .ok fields ∧
        withFields ⟨.new limits, c.chunks.flatten⟩ fields = g := by
  have hlines := (wraps_handle ⟨.new limits, c.chunks.flatten⟩).tellLines? .empty c.lines g
  rw [Lexer.tellChunked?, tellChunks?, Option.bind_some]
  exact hlines

end BodyGathering

namespace ChunkedDecoder

open Lexer (Config Fed)

variable {d : ChunkedDecoder} {x y : Octets} {trailers : Headers}

/-- At the end of the trailer, all depends on whether the fields can be had. -/
theorem runOutcome_atBodyEnd (l : Lexer .chunkedBody) (g : BodyGathering) (n : Nat) :
    runOutcome (Lexer.atBodyEnd BodyGathering.handle (l.inPhase .bodyDone) g n) =
        (match g.draft.fields.finish with
        | .ok trailers => (.accepted trailers, n)
        | .error e => (.refused e, n)) ∧
      (Lexer.atBodyEnd BodyGathering.handle (l.inPhase .bodyDone) g n).state.body = g.body := by
  rw [Lexer.atBodyEnd, BodyGathering.handle]
  · simp only [BodyDraft.handle]
    cases g.draft.fields.finish <;> exact ⟨rfl, trivial⟩
  · intro octets h
    cases h

/-- A run that comes to trailers has come to the end of the body. -/
theorem phase_of_runOutcome {data body : Octets} {n : Nat} (hd : Ready d)
    (h : runOutcome (d.gather body data) = (.accepted trailers, n)) :
    (d.gather body data).lexer.phase = .bodyDone := by
  have hverdict := (Prod.mk.inj h).1
  rw [verdict_conclude] at hverdict
  rcases runEnd_gather hd body data with ⟨hready, -⟩ | ⟨cause, hstage, hphase⟩ |
    ⟨e, hstage, hphase⟩ | ⟨hstage, hphase⟩
  · rw [Lexer.error?_of_isFinal hready.isFinal, hready.stage] at hverdict
    cases hverdict
  · rw [Lexer.error?_of_phase hphase, hstage] at hverdict
    cases hverdict
  · rw [Lexer.error?_of_phase hphase, hstage] at hverdict
    cases hverdict
  · exact hphase

/-- **What a decoder accepts**, if a body is all of `x`. -/
theorem outcome_eq_accepted_iff (hd : Live d) {body : Octets} :
    (d.decode (x ++ y)).outcome = (.accepted trailers, x.length) ∧ (d.decode (x ++ y)).body = body ↔
      ∃ z g line, x = z ++ [0x0A] ∧
        Lexer.Ends BodyGathering.handle d.resumed.lexer ⟨d.resumed.draft, []⟩ [] z g line ∧
          g.draft.fields.finish = .ok trailers ∧ g.body = body := by
  rw [outcome_decode hd, body_decode hd]
  constructor
  · rintro ⟨h, hbody⟩
    have hphase := phase_of_runOutcome hd.resumed h
    obtain ⟨z, rest, c, hsplit, hc, hc', hrun⟩ := Config.exists_of_run_done
      BodyGathering.gathers_handle (hd.resumed.coherent []) (.inr hphase)
    obtain ⟨houtcome, hgathered⟩ := runOutcome_atBodyEnd c.lexer c.state (0 + z.length + 1)
    rw [gather, hrun, Config.run_lf_body hc'] at h hbody
    rw [houtcome] at h
    rw [hgathered] at hbody
    rcases hfinish : c.state.draft.fields.finish with e | trailers'
    · rw [hfinish] at h
      cases h
    · rw [hfinish] at h
      obtain ⟨rfl, hlength⟩ : trailers' = trailers ∧ z.length + 1 = x.length := by simpa using h
      have hsplit' : x ++ y = (z ++ [0x0A]) ++ rest := by simpa using hsplit
      -- The body ends where the run ends, so that what follows is not read.
      have hx : x = z ++ [0x0A] := (List.append_inj hsplit' (by simp [hlength])).1
      exact ⟨z, c.state, c.lexer.startLine, hx, ⟨c, hc, hc', rfl, rfl⟩, hfinish, hbody⟩
  · rintro ⟨z, g, line, rfl, ⟨c, hc, hphase, rfl, rfl⟩, hfinish, hbody⟩
    obtain ⟨houtcome, hgathered⟩ := runOutcome_atBodyEnd c.lexer c.state (0 + z.length + 1)
    have hrun : d.resumed.gather [] (z ++ [0x0A] ++ y) = Lexer.atBodyEnd BodyGathering.handle
        (c.lexer.inPhase .bodyDone) c.state (0 + z.length + 1) := by
      rw [List.append_assoc]
      exact (Config.run_append_of_after? hc 0).trans (Config.run_lf_body hphase)
    rw [hrun, houtcome, hfinish, hgathered, hbody, List.length_append, Nat.zero_add]
    exact ⟨rfl, rfl⟩

variable {limits : Limits} {body : Octets}

/-- **What a decoder of chunked bodies accepts** is what spells a chunked body of which the trailer
keeps within the limits. -/
theorem accepts_iff_spells :
    ((new limits).decode (x ++ y)).outcome = (.accepted trailers, x.length) ∧
        ((new limits).decode (x ++ y)).body = body ↔
      ∃ t : ChunkedText, t.Spells x ∧ t.Fits limits ∧ t.trailers = trailers ∧ t.body = body := by
  rw [outcome_eq_accepted_iff (live_new limits)]
  constructor
  · rintro ⟨z, g, line, rfl, hends, hfinish, rfl⟩
    have hstart : Lexer.Ends BodyGathering.handle ((Lexer.new .chunkedBody).inPhase .sizeStart)
        ⟨.new limits, []⟩ [] z g line := hends
    obtain ⟨⟨chunks, lines⟩, hspells, htell, -⟩ := Lexer.ends_chunked.1 hstart
    obtain ⟨c, hc, rfl⟩ := BodyGathering.tellChunked?_new.1 htell
    obtain ⟨fs, rfl, hcount, hsize, rfl⟩ :=
      FieldCollector.finish_addLines_empty.1 ⟨c, hc, hfinish⟩
    exact ⟨⟨chunks, fs⟩, hspells, ⟨hcount, hsize⟩, rfl, rfl⟩
  · rintro ⟨⟨chunks, fs⟩, hspells, ⟨hcount, hsize⟩, rfl, rfl⟩
    obtain ⟨c, hc, hfinish⟩ := FieldCollector.finish_addLines_empty.2 ⟨fs, rfl, hcount, hsize, rfl⟩
    obtain ⟨z, rfl⟩ := RawChunked.Spells.exists_append_lf hspells
    have htell := (BodyGathering.tellChunked?_new (c := ⟨chunks, fs.map FieldLine.raw⟩)).2
      ⟨c, hc, rfl⟩
    have hstart : Lexer.Ends BodyGathering.handle ((Lexer.new .chunkedBody).inPhase .sizeStart)
        ⟨.new limits, []⟩ [] z _ (Lexer.new .chunkedBody).startLine :=
      Lexer.ends_chunked.2 ⟨_, hspells, htell, rfl⟩
    exact ⟨z, _, _, rfl, hstart, hfinish, rfl⟩

/-- **The language of chunked bodies.** Under limits that no part of `x` can exceed, and whatever
comes after `x`, a decoder accepts `x` and no octet more exactly if `x` spells a chunked body. The
data that it hands out is then the data of all chunks, and the trailers are those that are spelled.
-/
theorem decodes_iff_exists_spells (limits : Limits) (x y : Octets)
    (hheader : x.length < limits.header) (hcount : x.length < limits.headerCount) :
    (((new limits).decode (x ++ y)).decoder.done = true ∧
        ((new limits).decode (x ++ y)).decoder.error? = none ∧
        ((new limits).decode (x ++ y)).consumed = x.length ↔
      ∃ t : ChunkedText, t.Spells x) ∧
    ∀ t : ChunkedText, t.Spells x → ((new limits).decode (x ++ y)).body = t.body ∧
      ((new limits).decode (x ++ y)).decoder.trailers = t.trailers := by
  have haccepts {t : ChunkedText} (ht : t.Spells x) :
      ((new limits).decode (x ++ y)).outcome = (.accepted t.trailers, x.length) ∧
        ((new limits).decode (x ++ y)).body = t.body :=
    accepts_iff_spells.2 ⟨t, ht, ht.fits hheader hcount, rfl, rfl⟩
  refine ⟨⟨?_, ?_⟩, fun t ht ↦ ?_⟩
  · rintro ⟨hdone, herror, hconsumed⟩
    have hverdict := verdict_of_done hdone herror
    obtain ⟨t, ht, -⟩ := accepts_iff_spells.1 ⟨Prod.ext hverdict hconsumed, rfl⟩
    exact ⟨t, ht⟩
  · rintro ⟨t, ht⟩
    obtain ⟨hverdict, hconsumed⟩ := Prod.mk.inj (haccepts ht).1
    obtain ⟨hdone, herror, -⟩ := of_verdict_accepted hverdict
    exact ⟨hdone, herror, hconsumed⟩
  · obtain ⟨houtcome, hbody⟩ := haccepts ht
    exact ⟨hbody, (of_verdict_accepted (Prod.mk.inj houtcome).1).2.2⟩

/-- A chunk with the data `ab` and a size with a leading zero, the last chunk, and one octet more.
-/
theorem decodes_iff_exists_spells_one_chunk :
    9 < Limits.standard.header ∧ 9 < Limits.standard.headerCount ∧
      ((new .standard).decode
        ([0x30, 0x32, 0x0A, 0x61, 0x62, 0x0A, 0x30, 0x0A, 0x0A] ++ [0x58])).body =
          [0x61, 0x62] := by
  have htwo : Radix.hexadecimal.Spells UInt64.size 2 [0x30, 0x32] :=
    ⟨List.cons_ne_nil _ _, only_cons.2 ⟨by decide, only_cons.2 ⟨by decide, only_nil⟩⟩,
      by decide, by decide⟩
  have hzero : Radix.hexadecimal.Spells UInt64.size 0 [0x30] :=
    ⟨List.cons_ne_nil _ _, only_cons.2 ⟨by decide, only_nil⟩, by decide, by decide⟩
  have hsize : SpellsSize 2 [0x30, 0x32, 0x0A] := .mk htwo .absent .lf
  have hlast : SpellsSize 0 [0x30, 0x0A] := .mk hzero .absent .lf
  have hspells : (⟨[[0x61, 0x62]], []⟩ : ChunkedText).Spells
      [0x30, 0x32, 0x0A, 0x61, 0x62, 0x0A, 0x30, 0x0A, 0x0A] :=
    .mk (c := ⟨[[0x61, 0x62]], []⟩) (.cons (List.cons_ne_nil _ _) hsize .lf .nil) hlast .nil .lf
  refine ⟨by decide, by decide, ?_⟩
  exact ((decodes_iff_exists_spells .standard
    [0x30, 0x32, 0x0A, 0x61, 0x62, 0x0A, 0x30, 0x0A, 0x0A] [0x58] (by decide) (by decide)).2
      _ hspells).1

end ChunkedDecoder

end HttpFraming
