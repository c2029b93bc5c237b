import HttpFraming.Proofs.Fragmentation.Head
import HttpFraming.Proofs.Grammar.Fields

/-!
# The language of a head parser

A head parser accepts what leads its lexer to the end of the headers and a line feed there, if a
head can be put together of what was collected: `HeadParser.outcome_eq_accepted_iff`. What comes
after the line feed does not matter.

`HeadParser.Accepts` says of one call what it means to accept.

This is where runs, which are about calls, and `Lexer.Ends`, which is about a grammar, meet. In one
direction, a run that ends with a head has gone through all of it but the last line feed
(`Lexer.Config.exists_of_run_done`), and the configuration there is a witness for `Lexer.Ends`. In
the other, that configuration is where the run goes on, and the line feed is all that is left.

The languages of requests and of responses follow from here, each by its own start line, and neither
looks at a run again.
-/

namespace HttpFraming

namespace HeadDraft

variable {H : Type} [ReadableHead H]

/-- A draft goes on after a piece if it collects the piece. -/
theorem told?_eq_some_iff {d d' : HeadDraft H} {span : Span} {piece : Octets} :
    Lexer.told? handle d span piece = some d' ↔ d.collect span piece = .ok d' :=
  gathers_handle.told?_eq_some_iff

/-- A draft passes header lines on to its collector. -/
theorem wraps_handle (d : HeadDraft H) :
    FieldCollector.Wraps d.limits handle fun c ↦ { d with fields := c } where
  name c piece d' := by
    rw [told?_eq_some_iff]
    exact map_eq_ok_iff
  value c piece d' := by
    rw [told?_eq_some_iff]
    exact map_eq_ok_iff

end HeadDraft

namespace HeadParser

open Lexer (Config)

variable {H : Type} [ReadableHead H] {p : HeadParser H} {x y : Octets} {head : H}

/-- At the end of the headers, all depends on whether a head can be put together. -/
theorem runVerdict_atHeadEnd (l : Lexer (ReadableHead.part H)) (d : HeadDraft H) (n : Nat) :
    runVerdict (Lexer.atHeadEnd HeadDraft.handle (l.inPhase .headDone) d n) =
      match d.assemble l.startLine with
      | .ok head => (.accepted head, n + 1)
      | .error e => (.refused e, n) := by
  have hline : (l.inPhase .headDone).startLine = l.startLine := rfl
  rw [Lexer.atHeadEnd, HeadDraft.handle, hline]
  cases d.assemble l.startLine <;> rfl

/-- A run that comes to a head has come to its end. -/
theorem phase_of_runVerdict {data : Octets} {n : Nat} (hp : Live p)
    (hpart : ReadableHead.part H ≠ .chunkedBody)
    (h : runVerdict (p.run data) = (.accepted head, n)) :
    (p.run data).lexer.phase = .headDone := by
  rw [runVerdict] at h
  rcases runEnd_run hp hpart data with ⟨hstage, hfinal, -, -⟩ | ⟨cause, hstage, hphase⟩ |
    ⟨e, hstage, hphase⟩ | ⟨_, _, _, hphase, _⟩
  · rw [hstage, Lexer.error?_of_isFinal hfinal] at h
    cases h
  · rw [hstage, Lexer.error?_of_phase hphase] at h
    cases h
  · rw [hstage] at h
    cases h
  · exact hphase

/-- **What a head parser accepts**, if a head is all of `x`. -/
theorem outcome_eq_accepted_iff (hp : Live p) (hpart : ReadableHead.part H ≠ .chunkedBody) :
    p.outcome (x ++ y) = (.accepted head, x.length) ↔
      ∃ z d line, x = z ++ [0x0A] ∧
        Lexer.Ends HeadDraft.handle p.lexer p.draft [] z d line ∧ d.assemble line = .ok head := by
  rw [outcome_eq hp hpart]
  constructor
  · intro h
    have hphase := phase_of_runVerdict hp hpart h
    obtain ⟨z, rest, c, hsplit, hc, hc', hrun⟩ := Config.exists_of_run_done
      HeadDraft.gathers_handle (Config.coherent_start hp.isFinal p.draft) (.inl hphase)
    rw [run, hrun, Config.run_lf_head hc' hpart, runVerdict_atHeadEnd, Nat.zero_add] at h
    rcases hassemble : c.state.assemble c.lexer.startLine with e | head'
    · rw [hassemble] at h
      cases h
    · rw [hassemble] at h
      obtain ⟨rfl, hlength⟩ : head' = head ∧ z.length + 1 = x.length := by simpa using h
      have hsplit' : x ++ y = (z ++ [0x0A]) ++ rest := by simpa using hsplit
      have hx : x = z ++ [0x0A] := (List.append_inj hsplit' (by simp [hlength])).1
      exact ⟨z, c.state, c.lexer.startLine, hx, ⟨c, hc, hc', rfl, rfl⟩, hassemble⟩
  · rintro ⟨z, d, line, rfl, ⟨c, hc, hphase, rfl, rfl⟩, hassemble⟩
    have hrun : p.run (z ++ [0x0A] ++ y) =
        Lexer.atHeadEnd HeadDraft.handle (c.lexer.inPhase .headDone) c.state (0 + z.length) := by
      rw [List.append_assoc]
      exact (Config.run_append_of_after? hc 0).trans (Config.run_lf_head hphase hpart)
    rw [hrun, runVerdict_atHeadEnd, hassemble, List.length_append, Nat.zero_add]
    rfl

/-- A new parser is fed some octets in one call. It takes `n` of them, is done without an error, and
gives a head. -/
structure Accepts (limits : Limits) (data : Octets) (head : H) (n : Nat) : Prop where
  consumed : ((new limits : HeadParser H).parse data).2 = n
  done : ((new limits : HeadParser H).parse data).1.done = true
  error? : ((new limits : HeadParser H).parse data).1.error? = none
  head? : ((new limits : HeadParser H).parse data).1.head? = some head

/-- To accept a head is to have it as outcome. -/
theorem accepts_iff_outcome {limits : Limits} {data : Octets} {n : Nat} :
    Accepts limits data head n ↔ (new limits).outcome data = (.accepted head, n) := by
  constructor
  · exact fun h ↦ Prod.ext (verdict_eq_accepted_iff.2 h.head?) h.consumed
  · intro h
    obtain ⟨hverdict, hconsumed⟩ := Prod.mk.inj h
    obtain ⟨hdone, herror, hhead⟩ := of_verdict_accepted hverdict
    exact ⟨hconsumed, hdone, herror, hhead⟩

end HeadParser

end HttpFraming
