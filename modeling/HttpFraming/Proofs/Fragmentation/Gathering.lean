import HttpFraming.Proofs.Fragmentation.FieldCollector
import HttpFraming.Proofs.Lexer.Pieces
import HttpFraming.Wire.ChunkedDecoder

/-!
# A decoder that does not stop at data

A decoder pauses its lexer at each run of data, so that `ChunkedDecoder.decode` is many runs of the
lexer. A `BodyGathering` takes the same reports and adds the data to the body it has so far. It
never pauses before the body ends. `ChunkedDecoder.settles_decode` shows that the many runs come to
the one run of a gathering over the whole input, so that whatever is known of a run holds of the
loop.

## Why the loop is not compared with itself

Two cuts of an input divide the data into different windows, and the calls that hand them out are
not calls at the same places. There is no octet at which both loops can be looked at together. A
gathering takes no notice of windows, and what is known of runs of a lexer over two pieces
(`Lexer.Gathers`) applies to it, as it applies to a draft of a head.

## The two main results

* `ChunkedDecoder.parse_cases` is one call next to a gathering over the same input. Either no data
  is found, and both come to the same; or the call stops behind a window, and the gathering is where
  the next call begins. It rests on `callEnd_run`, an induction over the octets with one case for
  each effect of a step, and on `ChunkedDecoder.runEnd_gather`, which names the four ways in which a
  run can end.
* `ChunkedDecoder.settles_decode` is the induction over the calls. What it carries is the body so
  far: the gathering that the rest of the calls is compared with begins with all the windows that
  were handed out before.

## States between calls

`ChunkedDecoder.Live` describes a decoder that may be called again, and `ChunkedDecoder.Ready` one
that has been resumed: the window of the call before is gone, and its lexer is not paused. Every
call resumes, so that two decoders that are equal once they are resumed have the same future. For
this reason `Settles` compares decoders as `resumed` leaves them.
-/

namespace HttpFraming

/-- A draft of a body together with the data found so far. -/
structure BodyGathering where
  draft : BodyDraft
  body : Octets

namespace BodyGathering

def withFields (g : BodyGathering) (fields : FieldCollector) : BodyGathering :=
  { g with draft := { g.draft with fields := fields } }

/-- Takes a piece of a part, within the limits. -/
def collect (g : BodyGathering) (span : Span) (piece : Octets) :
    Except ParseError BodyGathering :=
  match span with
  | .chunkData => .ok { g with body := g.body ++ piece }
  | .fieldName => (g.draft.fields.addName g.draft.limits piece).map g.withFields
  | .fieldValue => (g.draft.fields.addValue g.draft.limits piece).map g.withFields
  | .method | .target | .reason => .ok g

/-- A gathering that is given up for a reason. -/
def refuse (g : BodyGathering) (e : ParseError) : BodyGathering :=
  { g with draft := { g.draft with stage := .failed e } }

/-- Takes what the lexer reports as a draft does, but goes on after data. -/
def handle (g : BodyGathering) : Event → BodyGathering × Flow
  | .piece .chunkData octets => ({ g with body := g.body ++ octets }, .proceed)
  | event => (⟨(g.draft.handle event).1, g.body⟩, (g.draft.handle event).2)

/-- What a gathering has to show: how far it is, the trailers and the body. -/
def view (g : BodyGathering) : BodyStage × Headers × Octets :=
  (g.draft.stage, g.draft.trailers, g.body)

variable {g g' : BodyGathering} {span : Span} {a : Octets}

/-- A part in two pieces is the part in one. -/
theorem collect_append (g : BodyGathering) (span : Span) (a b : Octets) :
    g.collect span (a ++ b) = (g.collect span a).bind fun g' ↦ g'.collect span b := by
  cases span with
  | chunkData =>
    simp only [collect, Except.bind, List.append_assoc]
  | fieldName =>
    simp only [collect]
    rw [FieldCollector.addName_append]
    cases g.draft.fields.addName g.draft.limits a <;> rfl
  | fieldValue =>
    simp only [collect]
    rw [FieldCollector.addValue_append]
    cases g.draft.fields.addValue g.draft.limits a <;> rfl
  | method | target | reason => rfl

/-- To collect a piece changes no more than the fields, and the body if the piece is data. -/
theorem eq_of_collect (h : g.collect span a = .ok g') :
    ∃ fields, g'.draft = { g.draft with fields := fields } ∧
      (span ≠ .chunkData → g'.body = g.body) := by
  cases span with
  | chunkData =>
    obtain rfl := Except.ok.inj h
    exact ⟨g.draft.fields, rfl, fun hne ↦ absurd rfl hne⟩
  | fieldName | fieldValue =>
    obtain ⟨fields, -, rfl⟩ := map_eq_ok_iff.1 h
    exact ⟨fields, rfl, fun _ ↦ rfl⟩
  | method | target | reason =>
    obtain rfl := Except.ok.inj h
    exact ⟨g.draft.fields, rfl, fun _ ↦ rfl⟩

/-- A part is never refused for the grammar, of which the lexer takes care. -/
theorem collect_ne_malformed (g : BodyGathering) (span : Span) (a : Octets)
    (cause : SyntaxError) : g.collect span a ≠ .error (.malformed cause) := by
  cases span with
  | fieldName =>
    exact fun h ↦ g.draft.fields.addName_ne_malformed g.draft.limits a cause (map_eq_error_iff.1 h)
  | fieldValue =>
    exact fun h ↦ g.draft.fields.addValue_ne_malformed g.draft.limits a cause (map_eq_error_iff.1 h)
  | chunkData | method | target | reason =>
    intro h
    cases h

/-- A gathering takes the parts of a message as `Lexer.Gathers` describes it. -/
theorem gathers_handle : Lexer.Gathers handle collect refuse view where
  handle_piece g span piece := by
    cases span with
    | fieldName =>
      simp only [collect, handle, BodyDraft.handle]
      cases g.draft.fields.addName g.draft.limits piece <;> rfl
    | fieldValue =>
      simp only [collect, handle, BodyDraft.handle]
      cases g.draft.fields.addValue g.draft.limits piece <;> rfl
    | chunkData | method | target | reason => rfl
  collect_append := collect_append
  collect_chunkData g piece e h := by cases h
  view_collect hspan h := by
    obtain ⟨fields, hdraft, hbody⟩ := eq_of_collect h
    rw [view, view, hdraft, hbody hspan]
  view_refuse e h := by
    rw [view, view, Prod.mk.injEq, Prod.mk.injEq] at h
    rw [view, view, refuse, refuse, h.2.1, h.2.2]

/-- What is told a draft that is not data, a gathering passes on to it. -/
theorem handle_of_ne (hspan : span ≠ .chunkData) (d : BodyDraft) (body piece : Octets) :
    handle ⟨d, body⟩ (.piece span piece) =
      (⟨(d.handle (.piece span piece)).1, body⟩, (d.handle (.piece span piece)).2) := by
  cases span with
  | chunkData => exact absurd rfl hspan
  | fieldName | fieldValue | method | target | reason => rfl

end BodyGathering

/-- What is told a draft that is not data leaves the window alone. The draft goes on in its stage,
or gives up. -/
theorem BodyDraft.handle_of_ne {span : Span} (hspan : span ≠ .chunkData) (d : BodyDraft)
    (piece : Octets) :
    (d.handle (.piece span piece)).1.window? = d.window? ∧
      ((d.handle (.piece span piece)).2 = .abort ∨
        (d.handle (.piece span piece)).2 = .proceed ∧
          (d.handle (.piece span piece)).1.stage = d.stage) := by
  cases span with
  | chunkData => exact absurd rfl hspan
  | fieldName =>
    rw [handle]
    cases d.fields.addName d.limits piece with
    | ok fields => exact ⟨rfl, .inr ⟨rfl, rfl⟩⟩
    | error e => exact ⟨rfl, .inl rfl⟩
  | fieldValue =>
    rw [handle]
    cases d.fields.addValue d.limits piece with
    | ok fields => exact ⟨rfl, .inr ⟨rfl, rfl⟩⟩
    | error e => exact ⟨rfl, .inl rfl⟩
  | method | target | reason => exact ⟨rfl, .inr ⟨rfl, rfl⟩⟩

/-- The end of the body is told without a window. -/
theorem BodyDraft.window?_handle_bodyEnd (d : BodyDraft) :
    (d.handle .bodyEnd).1.window? = d.window? := by
  rw [handle]
  cases d.fields.finish <;> rfl

/-! ### One call -/

namespace Lexer

variable {part : MessagePart} {σ : Type}

/-- What comes of a lexer after a handler was told a piece and gave its answer. -/
def goOn (handle : σ → Event → σ × Flow) (l : Lexer part) (answer : σ × Flow) (n : Nat)
    (rest : Octets) : Fed part σ :=
  match answer with
  | (s, .proceed) => run handle l s [] n rest
  | (s, flow) => ⟨l.obey flow, s, n⟩

variable {handle : σ → Event → σ × Flow} {l l' : Lexer part} {s : σ} {opened rest : Octets}
  {span : Span} {b : UInt8} {n : Nat}

/-- At the end of the input, a part that is open is told. -/
theorem run_nil_eq_goOn (hspan : l.phase.span? = some span) (hopened : opened ≠ []) :
    run handle l s opened n [] = goOn handle l (handle s (.piece span opened.reverse)) n [] := by
  rw [run_nil_of_span? hspan hopened]
  rcases handle s (.piece span opened.reverse) with ⟨s', flow⟩
  cases flow with
  | proceed => exact run_nil_nil.symm
  | pause | abort => rfl

/-- An octet behind a part tells the part, and the run goes on from the answer. -/
theorem run_cons_close_eq_goOn (h : l.step b = .ok (l', .close span)) :
    run handle l s opened n (b :: rest) =
      goOn handle l' (handle s (.piece span opened.reverse)) (n + 1) rest := by
  simp only [run, h]
  rcases handle s (.piece span opened.reverse) with ⟨s', flow⟩
  cases flow <;> rfl

/-- An octet that completes a part tells the part, and the run goes on from the answer. -/
theorem run_cons_complete_eq_goOn (h : l.step b = .ok (l', .complete span)) :
    run handle l s opened n (b :: rest) =
      goOn handle l' (handle s (.piece span (b :: opened).reverse)) (n + 1) rest := by
  simp only [run, h]
  rcases handle s (.piece span (b :: opened).reverse) with ⟨s', flow⟩
  cases flow <;> rfl

/-- The octet that ends a body is the last one that a run reads. -/
theorem run_cons_endBody (h : l.step b = .ok (l', .endBody)) :
    run handle l s opened n (b :: rest) =
      ⟨l'.obey (handle s .bodyEnd).2, (handle s .bodyEnd).1, n + 1⟩ := by
  rw [run, h]

end Lexer

open Lexer (Config Fed goOn)

namespace ChunkedDecoder

/-- A decoder at the boundary of two calls that is not done. -/
structure Live (d : ChunkedDecoder) : Prop where
  stage : d.draft.stage = .reading
  isFinal : d.lexer.phase.isFinal = false

/-- A decoder that goes on: no window of an earlier call is left in it. -/
structure Ready (d : ChunkedDecoder) : Prop extends Live d where
  paused : d.lexer.paused = false
  window : d.draft.window? = none

/-- A decoder as it goes on in its next call. -/
def resumed (d : ChunkedDecoder) : ChunkedDecoder :=
  ⟨d.lexer.resume, { d.draft with window? := none }⟩

theorem live_new (limits : Limits) : Live (.new limits) where
  stage := rfl
  isFinal := rfl

/-- A decoder that may be called is ready once it is resumed. -/
theorem Live.resumed {d : ChunkedDecoder} (h : Live d) : Ready d.resumed where
  stage := h.stage
  isFinal := h.isFinal
  paused := rfl
  window := rfl

theorem Ready.resumed_eq {d : ChunkedDecoder} (h : Ready d) : d.resumed = d := by
  obtain ⟨⟨phase, version, status, paused⟩, ⟨limits, fields, trailers, window, stage⟩⟩ := d
  obtain rfl : paused = false := h.paused
  obtain rfl : window = none := h.window
  rfl

/-- Where a gathering begins that has `body` so far. -/
def config (d : ChunkedDecoder) (body : Octets) : Config .chunkedBody BodyGathering :=
  .start d.lexer ⟨d.draft, body⟩

/-- A gathering begins in a place where runs are known. -/
theorem Live.coherent {d : ChunkedDecoder} (h : Live d) (body : Octets) :
    (d.config body).Coherent :=
  Config.coherent_start h.isFinal _

/-- The run of a gathering that has `body` so far, over some input. -/
def gather (d : ChunkedDecoder) (body data : Octets) : Fed .chunkedBody BodyGathering :=
  (d.config body).run BodyGathering.handle 0 data

end ChunkedDecoder

open ChunkedDecoder (Ready)

/-- What the run of a call, which stops at data, has to do with the run of a gathering that has
`body` so far. Both begin after `n` octets and read `data`. -/
inductive CallEnd (body : Octets) (n : Nat) (data : Octets) :
    Fed .chunkedBody BodyDraft → Fed .chunkedBody BodyGathering → Prop
  /-- No data is found, and both come to the same. -/
  | whole (l : Lexer .chunkedBody) (d : BodyDraft) (m : Nat) (window : d.window? = none) :
    CallEnd body n data ⟨l, d, m⟩ ⟨l, ⟨d, body⟩, m⟩
  /-- The call stops after a window, where the gathering goes on. -/
  | window (l : Lexer .chunkedBody) (d : BodyDraft) (window before rest : Octets)
    (ready : Ready ⟨l, d⟩) (split : data = before ++ rest) :
    CallEnd body n data ⟨l.pause, { d with window? := some window }, n + before.length⟩
      (Lexer.run BodyGathering.handle l ⟨d, body ++ window⟩ [] (n + before.length) rest)

namespace CallEnd

variable {body rest opened : Octets} {n : Nat} {b : UInt8} {l : Lexer .chunkedBody}
  {d : BodyDraft}

/-- One more octet in front of the input leaves the relation between the two runs as it is. -/
theorem cons {r : Fed .chunkedBody BodyDraft} {f : Fed .chunkedBody BodyGathering}
    (h : CallEnd body (n + 1) rest r f) : CallEnd body n (b :: rest) r f := by
  cases h with
  | whole l d m window => exact .whole l d m window
  | window l d window before rest ready split =>
    have hlength : n + 1 + before.length = n + (b :: before).length := by
      rw [List.length_cons, Nat.add_assoc, Nat.add_comm 1]
    rw [hlength]
    exact .window l d window (b :: before) rest ready (congrArg (b :: ·) split)

/-- After a piece the two runs are at one place, unless the piece is data. -/
theorem of_piece (ready : Ready ⟨l, d⟩)
    (ih : ∀ d', Ready ⟨l, d'⟩ →
      CallEnd body n rest (Lexer.run BodyDraft.handle l d' [] n rest)
        (Lexer.run BodyGathering.handle l ⟨d', body⟩ [] n rest))
    (span : Span) (piece : Octets) :
    CallEnd body n rest (goOn BodyDraft.handle l (d.handle (.piece span piece)) n rest)
      (goOn BodyGathering.handle l (BodyGathering.handle ⟨d, body⟩ (.piece span piece)) n
        rest) := by
  by_cases hspan : span = .chunkData
  -- The call stops here, so that nothing has to be known of what follows.
  · subst hspan
    exact .window l d piece [] rest ready rfl
  · obtain ⟨hwindow, hflow⟩ := BodyDraft.handle_of_ne hspan d piece
    rw [BodyGathering.handle_of_ne hspan]
    generalize d.handle (.piece span piece) = answer at hwindow hflow ⊢
    obtain ⟨d', flow⟩ := answer
    have hwindow' : d'.window? = none := hwindow.trans ready.window
    rcases hflow with hflow | ⟨hflow, hstage⟩
    · obtain rfl : flow = .abort := hflow
      exact .whole _ d' n hwindow'
    · obtain rfl : flow = .proceed := hflow
      exact ih d' ⟨⟨hstage.trans ready.stage, ready.isFinal⟩, ready.paused, hwindow'⟩

end CallEnd

/-- **A call and a gathering run together** until the call stops. -/
theorem callEnd_run (body : Octets) (data : Octets) :
    ∀ {l : Lexer .chunkedBody} {d : BodyDraft} (opened : Octets) (n : Nat), Ready ⟨l, d⟩ →
      CallEnd body n data (Lexer.run BodyDraft.handle l d opened n data)
        (Lexer.run BodyGathering.handle l ⟨d, body⟩ opened n data) := by
  induction data with
  | nil =>
    intro l d opened n ready
    have hnil (d' : BodyDraft) (hd' : Ready ⟨l, d'⟩) :
        CallEnd body n [] (Lexer.run BodyDraft.handle l d' [] n [])
          (Lexer.run BodyGathering.handle l ⟨d', body⟩ [] n []) := by
      rw [Lexer.run_nil_nil, Lexer.run_nil_nil]
      exact .whole l d' n hd'.window
    by_cases hopened : opened = []
    · rw [hopened]
      exact hnil d ready
    rcases hspan : l.phase.span? with - | span
    · rw [Lexer.run_nil_of_span?_eq_none hspan, Lexer.run_nil_of_span?_eq_none hspan]
      exact .whole l d n ready.window
    · rw [Lexer.run_nil_eq_goOn hspan hopened, Lexer.run_nil_eq_goOn hspan hopened]
      exact .of_piece ready hnil span _
  | cons b rest ih =>
    intro l d opened n ready
    rcases hstep : l.step b with cause | ⟨l', effect⟩
    · rw [Lexer.run_cons_error hstep, Lexer.run_cons_error hstep]
      exact .whole _ d n ready.window
    · obtain ⟨hpaused, hties⟩ := Lexer.ties_of_step hstep
      have hready (hfinal : l'.phase.isFinal = false) : Ready ⟨l', d⟩ :=
        ⟨⟨ready.stage, hfinal⟩, hpaused.trans ready.paused, ready.window⟩
      cases effect with
      | skip =>
        rw [Lexer.run_cons_skip hstep, Lexer.run_cons_skip hstep]
        exact (ih [] (n + 1) (hready hties.2)).cons
      | extend =>
        obtain ⟨span, hspan, -⟩ := hties
        rw [Lexer.run_cons_extend hstep, Lexer.run_cons_extend hstep]
        exact (ih (b :: opened) (n + 1) (hready (Phase.isFinal_of_span? hspan))).cons
      | close span =>
        rw [Lexer.run_cons_close_eq_goOn hstep, Lexer.run_cons_close_eq_goOn hstep]
        exact (CallEnd.of_piece (hready hties.2) (fun _ ↦ ih [] (n + 1)) span _).cons
      | complete span =>
        rw [Lexer.run_cons_complete_eq_goOn hstep, Lexer.run_cons_complete_eq_goOn hstep]
        exact (CallEnd.of_piece (hready hties.2) (fun _ ↦ ih [] (n + 1)) span _).cons
      | endHead => exact absurd rfl hties.2.2.2
      | endBody =>
        rw [Lexer.run_cons_endBody hstep, Lexer.run_cons_endBody hstep]
        exact .whole _ (d.handle .bodyEnd).1 _
          ((BodyDraft.window?_handle_bodyEnd d).trans ready.window)

/-! ### How a gathering ends -/

/-- How a run over `total` octets ends. -/
inductive BodyGathering.RunEnd (total : Nat) (f : Fed .chunkedBody BodyGathering) : Prop
  /-- All is read, and more is needed. -/
  | unfinished (ready : Ready ⟨f.lexer, f.state.draft⟩) (consumed : f.consumed = total)
  /-- An octet breaks the grammar. -/
  | rejected (cause : SyntaxError) (stage : f.state.draft.stage = .reading)
    (phase : f.lexer.phase = .failed cause)
  /-- A trailer is refused. -/
  | refused (e : ParseError) (stage : f.state.draft.stage = .failed e)
    (phase : f.lexer.phase = .failed .aborted)
  | complete (stage : f.state.draft.stage = .complete) (phase : f.lexer.phase = .bodyDone)

namespace ChunkedDecoder

variable {d : ChunkedDecoder} {body data : Octets}

/-- A decoder is ready as long as its run goes on. -/
theorem ready_of_after? {c c' : Config .chunkedBody BodyGathering}
    (hc : Ready ⟨c.lexer, c.state.draft⟩) (hfinal : c'.lexer.phase.isFinal = false)
    (h : c.after? BodyGathering.handle data = some c') : Ready ⟨c'.lexer, c'.state.draft⟩ := by
  have hstate : c'.state.draft.stage = .reading ∧ c'.state.draft.window? = none := by
    refine BodyGathering.gathers_handle.state_of_after?
      (P := fun g ↦ g.draft.stage = .reading ∧ g.draft.window? = none) ?_ h ⟨hc.stage, hc.window⟩
    intro g g' span piece hcollect hg
    obtain ⟨fields, hdraft, -⟩ := BodyGathering.eq_of_collect hcollect
    rw [hdraft]
    exact hg
  exact ⟨⟨hstate.1, hfinal⟩, (Config.paused_of_after? h).trans hc.paused, hstate.2⟩

/-- **A run of a gathering ends in one of four ways.** A refusal of the trailers as a whole, at the
end of the body, ends it as the refusal of one of them does. -/
theorem runEnd_gather (hd : Ready d) (body data : Octets) :
    BodyGathering.RunEnd data.length (d.gather body data) := by
  have G := BodyGathering.gathers_handle
  have hc := hd.coherent body
  rcases Config.run_cases BodyGathering.handle (d.config body) data with
    ⟨c', hc'⟩ | ⟨before, b, rest, ⟨l, g, opened⟩, rfl, hc', hb⟩
  · have hready : Ready ⟨c'.lexer, c'.state.draft⟩ := ready_of_after? hd (hc.after? hc').1 hc'
    have hspent := Config.spent_of_after? G hc hc' 0
    rw [Nat.zero_add] at hspent
    rw [gather]
    generalize Config.run BodyGathering.handle (d.config body) 0 data = f at hspent ⊢
    -- All is read. Only a part that is open at the end of the input is still to be told, and it may
    -- be refused.
    cases hspent with
    | closed => exact .unfinished hready rfl
    | @taken span g' _ _ hcollect =>
      obtain ⟨fields, hdraft, -⟩ := BodyGathering.eq_of_collect hcollect
      refine .unfinished ?_ rfl
      show Ready ⟨c'.lexer, g'.draft⟩
      rw [hdraft]
      exact ⟨⟨hready.stage, hready.isFinal⟩, hready.paused, hready.window⟩
    | refused => exact .refused _ rfl rfl
  · have hready : Ready ⟨l, g.draft⟩ := ready_of_after? hd (hc.after? hc').1 hc'
    rw [gather, Config.run_append_of_after? hc', Config.run_cons_of_advance?_none hb]
    have hhalt := Config.halt_of_advance?_none G hb (n := 0 + before.length)
    generalize Config.run BodyGathering.handle ⟨l, g, opened⟩ (0 + before.length) [b] = f at hhalt ⊢
    -- The run halts at the octet `b`, and for one of the four reasons there are.
    cases hhalt with
    | rejected => exact .rejected _ hready.stage rfl
    | refused => exact .refused _ rfl rfl
    | headEnd hstep => exact absurd rfl (Lexer.ties_of_step hstep).2.2.2.2
    | @bodyEnd l' hstep =>
      obtain ⟨-, -, hphase, -⟩ := Lexer.ties_of_step hstep
      rcases hfinish : g.draft.fields.finish with e | trailers
      · have hhandle : g.handle .bodyEnd = (g.refuse e, .abort) := by
          simp only [BodyGathering.handle, BodyDraft.handle, hfinish]
          rfl
        rw [Lexer.atBodyEnd, hhandle]
        exact .refused e rfl rfl
      · have hhandle : g.handle .bodyEnd =
            (⟨{ g.draft with fields := .empty, trailers := trailers, stage := .complete }, g.body⟩,
              .pause) := by
          simp only [BodyGathering.handle, BodyDraft.handle, hfinish]
        rw [Lexer.atBodyEnd, hhandle]
        exact .complete rfl hphase

/-! ### All calls -/

/-- The decoder at the end of a run. -/
def conclude (f : Fed .chunkedBody BodyGathering) : ChunkedDecoder :=
  match f.lexer.error?, f.state.draft.stage with
  | some cause, .reading => withStage ⟨f.lexer, f.state.draft⟩ (.failed (.malformed cause))
  | _, _ => ⟨f.lexer, f.state.draft⟩

/-- While more is needed, the decoder is what the run has left. -/
theorem conclude_of_isFinal {f : Fed .chunkedBody BodyGathering}
    (h : f.lexer.phase.isFinal = false) : conclude f = ⟨f.lexer, f.state.draft⟩ := by
  rw [conclude, Lexer.error?_of_isFinal h]

theorem gather_nil (d : ChunkedDecoder) (body : Octets) :
    d.gather body [] = ⟨d.lexer, ⟨d.draft, body⟩, 0⟩ := by
  rw [gather, Config.run]
  exact Lexer.run_nil_nil

/-- What a call makes of the run of its lexer. -/
def ofRun (r : Fed .chunkedBody BodyDraft) : Decoded :=
  match r.state.stage, r.lexer.error? with
  | .failed e, _ => ⟨⟨r.lexer, r.state⟩, r.consumed, .error e⟩
  | _, some e =>
    ⟨withStage ⟨r.lexer, r.state⟩ (.failed (.malformed e)), r.consumed, .error (.malformed e)⟩
  | _, none =>
    match r.state.window? with
    | some window => ⟨⟨r.lexer, r.state⟩, r.consumed, .data window⟩
    | none => ⟨⟨r.lexer, r.state⟩, r.consumed, .none⟩

theorem consumed_ofRun (r : Fed .chunkedBody BodyDraft) : (ofRun r).consumed = r.consumed := by
  unfold ofRun
  (repeat' split) <;> rfl

/-- What is found does not matter to the decoder that a run leaves behind. -/
theorem decoder_ofRun (r : Fed .chunkedBody BodyDraft) :
    (ofRun r).decoder =
      match r.state.stage, r.lexer.error? with
      | .failed _, _ | _, none => ⟨r.lexer, r.state⟩
      | _, some cause => withStage ⟨r.lexer, r.state⟩ (.failed (.malformed cause)) := by
  unfold ofRun
  cases r.state.stage <;> cases r.lexer.error? <;> cases r.state.window? <;> rfl

/-- A call is a run from the decoder as it is resumed. -/
theorem parse_eq (hd : Live d) (data : Octets) :
    d.parse data =
      ofRun (Lexer.run BodyDraft.handle d.resumed.lexer d.resumed.draft [] 0 data) := by
  have herror : d.lexer.resume.error? = none := Lexer.error?_of_isFinal hd.isFinal
  rw [parse, hd.stage, Lexer.feed, herror]
  rfl

/-- A call that finds no data. -/
theorem ofRun_eq {total : Nat} {l : Lexer .chunkedBody} {draft : BodyDraft} {m : Nat}
    (hwindow : draft.window? = none) (hend : BodyGathering.RunEnd total ⟨l, ⟨draft, body⟩, m⟩) :
    (ofRun ⟨l, draft, m⟩).decoder = conclude ⟨l, ⟨draft, body⟩, m⟩ ∧
      (ofRun ⟨l, draft, m⟩).consumed = m ∧ (ofRun ⟨l, draft, m⟩).window = [] ∧
        ((conclude ⟨l, ⟨draft, body⟩, m⟩).done = false → m = total) := by
  rcases hend with ⟨hready, hconsumed⟩ | ⟨cause, hstage, hphase⟩ | ⟨e, hstage, hphase⟩ |
    ⟨hstage, hphase⟩
  · have herror : l.error? = none := Lexer.error?_of_isFinal hready.isFinal
    have hstage : draft.stage = .reading := hready.stage
    simp only [ofRun, conclude, herror, hstage, hwindow]
    exact ⟨trivial, trivial, rfl, fun _ ↦ hconsumed⟩
  · have herror : l.error? = some cause := Lexer.error?_of_phase hphase
    simp only at hstage
    simp only [ofRun, conclude, herror, hstage]
    exact ⟨trivial, trivial, rfl, fun h ↦ by cases h⟩
  · have herror : l.error? = some .aborted := Lexer.error?_of_phase hphase
    simp only at hstage
    simp only [ofRun, conclude, herror, hstage, done]
    exact ⟨trivial, trivial, rfl, fun h ↦ by cases h⟩
  · have herror : l.error? = none := by rw [Lexer.error?, hphase]
    simp only at hstage
    simp only [ofRun, conclude, herror, hstage, hwindow, done]
    exact ⟨trivial, trivial, rfl, fun h ↦ by cases h⟩

/-- A decoder that has handed out a window and is to go on as `d`. -/
def withWindow (d : ChunkedDecoder) (window : Octets) : ChunkedDecoder :=
  ⟨d.lexer.pause, { d.draft with window? := some window }⟩

/-- A decoder that has handed out a window may be called again. -/
theorem Ready.live_withWindow (h : Ready d) (window : Octets) : Live (d.withWindow window) where
  stage := h.stage
  isFinal := h.isFinal

/-- To resume a decoder takes back the window that was handed out. -/
theorem Ready.resumed_withWindow (h : Ready d) (window : Octets) :
    (d.withWindow window).resumed = d :=
  h.resumed_eq

/-- A decoder that may be called is not done. -/
theorem done_of_live (h : Live d) : d.done = false := by
  rw [done, h.stage]

/-- **One call**, next to a gathering over the same input. -/
theorem parse_cases (hd : Live d) (body data : Octets) :
    ((d.parse data).decoder = conclude (d.resumed.gather body data) ∧
      (d.parse data).consumed = (d.resumed.gather body data).consumed ∧
      (d.parse data).window = [] ∧ (d.resumed.gather body data).state.body = body ∧
      ((d.parse data).decoder.done = false → (d.parse data).consumed = data.length)) ∨
    ∃ (d' : ChunkedDecoder) (window before rest : Octets), Ready d' ∧ data = before ++ rest ∧
      d.parse data = ⟨d'.withWindow window, before.length, .data window⟩ ∧
      d.resumed.gather body data =
        ⟨(d'.gather (body ++ window) rest).lexer, (d'.gather (body ++ window) rest).state,
          before.length + (d'.gather (body ++ window) rest).consumed⟩ := by
  have hend := runEnd_gather hd.resumed body data
  have hcall : CallEnd body 0 data
      (Lexer.run BodyDraft.handle d.resumed.lexer d.resumed.draft [] 0 data)
      (d.resumed.gather body data) := callEnd_run body data [] 0 hd.resumed
  rw [parse_eq hd]
  generalize Lexer.run BodyDraft.handle d.resumed.lexer d.resumed.draft [] 0 data = r at hcall ⊢
  generalize d.resumed.gather body data = f at hcall hend ⊢
  cases hcall with
  | whole l draft m hwindow =>
    obtain ⟨hdecoder, hconsumed, hbody, htotal⟩ := ofRun_eq hwindow hend
    exact .inl ⟨hdecoder, hconsumed, hbody, rfl, fun h ↦ hconsumed.trans (htotal (hdecoder ▸ h))⟩
  | window l draft window before rest hready hsplit =>
    refine .inr ⟨⟨l, draft⟩, window, before, rest, hready, hsplit, ?_, ?_⟩
    · have herror : l.pause.error? = none := Lexer.error?_of_isFinal hready.isFinal
      have hstage : draft.stage = .reading := hready.stage
      simp only [ofRun, withWindow, herror, hstage, Nat.zero_add]
    · rw [Nat.zero_add]
      exact Config.run_add BodyGathering.handle (.start l ⟨draft, body ++ window⟩) before.length 0
        rest

/-- A run of a gathering that began with `body` comes to what the calls come to. -/
structure Settles (body : Octets) (P : Progress) (f : Fed .chunkedBody BodyGathering) : Prop where
  decoder : P.decoder.resumed = (conclude f).resumed
  consumed : P.consumed = f.consumed
  body : body ++ P.body = f.state.body

theorem Progress.append_stay (P : Progress) : P.append P.decoder.stay = P := by
  simp [Progress.append, stay]

theorem decode_nil (d : ChunkedDecoder) : d.decode [] = d.stay := by
  rw [decode, dif_pos (.inl rfl)]

namespace Settles

variable {f : Fed .chunkedBody BodyGathering}

/-- A call without data comes to its run. -/
theorem of_call {r : Decoded} (hdecoder : r.decoder = conclude f)
    (hconsumed : r.consumed = f.consumed) (hwindow : r.window = []) (hbody : f.state.body = body) :
    Settles body r.toProgress f where
  decoder := congrArg resumed hdecoder
  consumed := hconsumed
  body := by
    show body ++ r.window = f.state.body
    rw [hwindow, hbody, List.append_nil]

/-- Before calls that come to a run, a window may be handed out. -/
theorem append_window {window : Octets} {later : Progress} (h : Settles (body ++ window) later f)
    (d : ChunkedDecoder) (n : Nat) :
    Settles body ((⟨d, n, .data window⟩ : Decoded).toProgress.append later)
      ⟨f.lexer, f.state, n + f.consumed⟩ where
  decoder := h.decoder
  consumed := congrArg (n + ·) h.consumed
  body := by
    show body ++ (window ++ later.body) = f.state.body
    rw [← List.append_assoc]
    exact h.body

end Settles

/-- **The calls come to one run** that data does not stop. -/
theorem settles_decode (hd : Live d) (body data : Octets) :
    Settles body (d.decode data) (d.resumed.gather body data) := by
  fun_induction decode d data generalizing body with
  | case1 d data hstop =>
    obtain rfl : data = [] := hstop.resolve_right (by simp [done_of_live hd])
    rw [gather_nil]
    refine ⟨?_, rfl, List.append_nil body⟩
    rw [conclude_of_isFinal hd.isFinal]
    rfl
  | case2 d data hstop r hdone =>
    rcases parse_cases hd body data with ⟨hdecoder, hconsumed, hwindow, hbody, -⟩ |
      ⟨d', window, before, rest, hready, -, hparse, -⟩
    · exact .of_call hdecoder hconsumed hwindow hbody
    -- No call that hands out data is the last one.
    · have hr : r = ⟨d'.withWindow window, before.length, .data window⟩ := hparse
      rw [hr, done_of_live (hready.live_withWindow window)] at hdone
      cases hdone
  | case3 d data hstop r hdone ih =>
    have hd' : r.decoder.done = false := eq_false_of_ne_true hdone
    rcases parse_cases hd body data with ⟨hdecoder, hconsumed, hwindow, hbody, htotal⟩ |
      ⟨d', window, before, rest, hready, rfl, hparse, hgather⟩
    -- All is read, and the calls end here.
    · have hnil : data.drop r.consumed = [] :=
        List.drop_of_length_le (Nat.le_of_eq (htotal hd').symm)
      have hsettles := Settles.of_call hdecoder hconsumed hwindow hbody
      rw [hnil, decode_nil]
      exact (Progress.append_stay r.toProgress).symm ▸ hsettles
    -- A window was found. The next call goes on in `d'`, from where the gathering goes on too.
    · have hr : r = ⟨d'.withWindow window, before.length, .data window⟩ := hparse
      rw [hr, List.drop_left] at ih
      rw [hr, List.drop_left, hgather]
      have hlater := ih (hready.live_withWindow window) (body ++ window)
      rw [hready.resumed_withWindow window] at hlater
      exact hlater.append_window _ _

end ChunkedDecoder

end HttpFraming
