import HttpFraming.Proofs.Fragmentation.Head
import HttpFraming.Proofs.Message.ResponseBuilder
import HttpFraming.Wire.ChunkedDecoder

/-!
# Where headers come from

Headers come from nothing, from a head parser, from the trailers of a chunked body or from a
response builder, and from other headers by the operations on them. Parsers and builders know no
other way to change headers than these operations, which is what this module proves of them: at any
time, in whatever pieces their input came and however it ended, what they hold is built
(`Headers.Reachable.built`).

So whatever is true of headers that the operations build is true of all headers that anybody can
come by. `Headers.Reachable.consistent` says what that is: the fields make sense, the count of
values is right and never runs below zero, and the text has one line for each value.

## How it goes through a parser

A parser holds headers in two places, in the collector of its draft and, when it is done, in what it
gives out. `Sound` says that both are built. A run of a lexer changes the state of its handler by
reports alone, so that what every report keeps is kept by a call (`Lexer.state_feed`), and nothing
has to be known of the lexer. By induction over the calls it holds of every parser that can be
reached, also of one that has failed.

`HeadParser.Reached` and `ChunkedDecoder.Reached` are defined here. They are what other modules mean
by any calls with any input.

## Lawful heads

A head is assembled from headers by a function of its own, which could do anything with them. That
it keeps them as they are is asked of a kind of head by the class `LawfulHead`, of which requests
and responses are instances.
-/

namespace HttpFraming

/-! ### Header lines -/

namespace FieldCollector

variable {c c' : FieldCollector} {limits : Limits} {piece : Octets}

/-- To store a line builds headers. -/
theorem built_flush (hc : c.headers.Built) (h : c.flush = .ok c') : c'.headers.Built := by
  unfold flush store at h
  split at h
  · split at h
    · cases h
    · split at h <;> cases h
      exact hc.insert _ _
  · cases h
    exact hc

/-- To take a piece of a name stores the line before, and no more. -/
theorem built_addName (hc : c.headers.Built) (h : c.addName limits piece = .ok c') :
    c'.headers.Built := by
  unfold addName at h
  split at h
  · cases h
  · rename_i c₀ hflush
    have hflushed := built_flush hc hflush
    (repeat' split at h) <;> cases h
    exact hflushed

/-- To take a piece of a value stores nothing. -/
theorem built_addValue (hc : c.headers.Built) (h : c.addValue limits piece = .ok c') :
    c'.headers.Built := by
  unfold addValue at h
  split at h <;> cases h
  exact hc

/-- Headers that are finished are built. -/
theorem built_finish {h : Headers} (hc : c.headers.Built) (hfinish : c.finish = .ok h) :
    h.Built := by
  unfold finish at hfinish
  split at hfinish
  · cases hfinish
  · rename_i c₀ hflush
    cases hfinish
    exact built_flush hc hflush

end FieldCollector

/-! ### Heads -/

/-- A head that is put together has the headers it is given. -/
class LawfulHead (H : Type) [ReadableHead H] [MessageHead H] : Prop where
  headers_assemble {raw : RawStartLine} {line : StartLine} {withHeaders : Headers → H}
    (h : ReadableHead.assemble raw line = .ok withHeaders) (headers : Headers) :
    MessageHead.headers (withHeaders headers) = headers

instance : LawfulHead Request where
  headers_assemble {raw line withHeaders} h headers := by
    simp only [ReadableHead.assemble] at h
    (repeat' split at h) <;> cases h
    rfl

instance : LawfulHead Response where
  headers_assemble {raw line withHeaders} h headers := by
    simp only [ReadableHead.assemble] at h
    split at h <;> cases h
    rfl

/-- The head that a stage holds. -/
def Stage.held? {H : Type} : Stage H → Option H
  | awaitingLf head | complete head => some head
  | reading | failed _ => none

section Heads

variable {H : Type} [MessageHead H]

/-- The headers in a draft are built. -/
structure HeadDraft.Sound (d : HeadDraft H) : Prop where
  fields : d.fields.headers.Built
  held : ∀ head, d.stage.held? = some head → (MessageHead.headers head).Built

namespace HeadDraft

variable {d d' : HeadDraft H} {span : Span} {piece : Octets}

theorem sound_new (limits : Limits) : Sound (.new limits : HeadDraft H) :=
  ⟨.empty, by rintro _ ⟨⟩⟩

theorem Sound.refuse (hd : d.Sound) (e : ParseError) : Sound (d.refuse e) :=
  ⟨hd.fields, by rintro _ ⟨⟩⟩

/-- To collect a piece builds headers. -/
theorem Sound.collect (hd : d.Sound) (h : d.collect span piece = .ok d') : d'.Sound := by
  refine ⟨?_, by rw [(stage_limits_of_collect h).1]; exact hd.held⟩
  cases span with
  | method | chunkData =>
    cases h
    exact hd.fields
  | target | reason =>
    simp only [HeadDraft.collect] at h
    split at h <;> cases h
    exact hd.fields
  | fieldName =>
    obtain ⟨fields, hfields, rfl⟩ := map_eq_ok_iff.1 h
    exact FieldCollector.built_addName hd.fields hfields
  | fieldValue =>
    obtain ⟨fields, hfields, rfl⟩ := map_eq_ok_iff.1 h
    exact FieldCollector.built_addValue hd.fields hfields

variable [ReadableHead H] [LawfulHead H]

/-- The headers of a head that is assembled are built. -/
theorem Sound.built_assemble (hd : d.Sound) {line : StartLine} {head : H}
    (h : d.assemble line = .ok head) : (MessageHead.headers head).Built := by
  unfold assemble at h
  split at h
  · cases h
  · rename_i withHeaders hassemble
    obtain ⟨headers, hfinish, rfl⟩ := map_eq_ok_iff.1 h
    rw [LawfulHead.headers_assemble hassemble]
    exact FieldCollector.built_finish hd.fields hfinish

/-- **What a draft is told** builds headers. -/
theorem Sound.handle (hd : d.Sound) (event : Event) : Sound (d.handle event).1 := by
  cases event with
  | piece span piece =>
    rw [HeadDraft.handle]
    split
    · rename_i d' hcollect
      exact hd.collect hcollect
    · exact hd.refuse _
  | headEnd line =>
    rw [HeadDraft.handle]
    split
    · rename_i head hassemble
      refine ⟨hd.fields, ?_⟩
      rintro _ ⟨⟩
      exact hd.built_assemble hassemble
    · exact hd.refuse _
  | bodyEnd => exact hd

end HeadDraft

namespace HeadParser

variable [ReadableHead H] {p : HeadParser H}

/-- A parser after any calls, with whatever input. -/
inductive Reached : HeadParser H → Prop
  | new (limits : Limits) : Reached (.new limits)
  | parse {p : HeadParser H} (reached : Reached p) (data : Octets) : Reached (p.parse data).1

/-- The stage of a draft matters only for the head that it holds. -/
theorem sound_withStage (hp : p.draft.Sound) {stage : Stage H}
    (hstage : ∀ head, stage.held? = some head → (MessageHead.headers head).Built) :
    (p.withStage stage).draft.Sound :=
  ⟨hp.fields, hstage⟩

/-- To take the last line feed hands out a head that was held. -/
theorem sound_takeLf (hp : p.draft.Sound) {head : H} (hhead : (MessageHead.headers head).Built)
    (data : Octets) (n : Nat) : (p.takeLf head data n).1.draft.Sound := by
  unfold takeLf
  split
  · exact hp
  · split
    · refine sound_withStage hp ?_
      rintro _ ⟨⟩
      exact hhead
    · exact sound_withStage hp (by rintro _ ⟨⟩)

/-- **What a call keeps.** -/
theorem sound_parse [LawfulHead H] (hp : p.draft.Sound) (data : Octets) :
    (p.parse data).1.draft.Sound := by
  have hfed : (p.lexer.feed HeadDraft.handle p.draft data).state.Sound :=
    Lexer.state_feed (fun _ event hd ↦ hd.handle event) p.lexer hp data
  unfold parse
  split
  · exact sound_withStage hp (by rintro _ ⟨⟩)
  · exact sound_withStage hp (by rintro _ ⟨⟩)
  · rename_i head hstage
    exact sound_takeLf hp (hp.held head (congrArg Stage.held? hstage)) data 0
  · simp only
    split
    · exact hfed
    · exact sound_withStage hfed (by rintro _ ⟨⟩)
    · rename_i head hstage herror
      exact sound_takeLf hfed (hfed.held head (congrArg Stage.held? hstage)) data _
    · exact hfed

/-- **What any calls keep.** -/
theorem Reached.sound [LawfulHead H] (hp : p.Reached) : p.draft.Sound := by
  induction hp with
  | new limits => exact HeadDraft.sound_new limits
  | parse _ data ih => exact sound_parse ih data

/-- The headers of a head that is given out are built. -/
theorem Reached.built_head? [LawfulHead H] (hp : p.Reached) {head : H} (h : p.head? = some head) :
    (MessageHead.headers head).Built := by
  refine hp.sound.held head ?_
  unfold head? at h
  split at h <;> cases h
  rename_i hstage
  exact congrArg Stage.held? hstage

end HeadParser

end Heads

/-! ### Chunked bodies -/

/-- The headers in a draft of a body are built. -/
structure BodyDraft.Sound (d : BodyDraft) : Prop where
  fields : d.fields.headers.Built
  trailers : d.trailers.Built

namespace BodyDraft

variable {d : BodyDraft}

theorem sound_new (limits : Limits) : Sound (.new limits) :=
  ⟨.empty, .empty⟩

theorem Sound.withFields (hd : d.Sound) {r : Except ParseError FieldCollector}
    (hr : ∀ c, r = .ok c → c.headers.Built) : Sound (d.withFields r).1 := by
  cases r with
  | ok c => exact ⟨hr c rfl, hd.trailers⟩
  | error e => exact ⟨hd.fields, hd.trailers⟩

/-- **What a draft of a body is told** builds headers. -/
theorem Sound.handle (hd : d.Sound) (event : Event) : Sound (d.handle event).1 := by
  cases event with
  | piece span octets =>
    cases span with
    | fieldName => exact hd.withFields fun _ h ↦ FieldCollector.built_addName hd.fields h
    | fieldValue => exact hd.withFields fun _ h ↦ FieldCollector.built_addValue hd.fields h
    | chunkData => exact ⟨hd.fields, hd.trailers⟩
    | method | target | reason => exact hd
  | headEnd line => exact hd
  | bodyEnd =>
    rw [BodyDraft.handle]
    split
    · rename_i trailers hfinish
      exact ⟨.empty, FieldCollector.built_finish hd.fields hfinish⟩
    · exact ⟨hd.fields, hd.trailers⟩

end BodyDraft

namespace ChunkedDecoder

variable {d : ChunkedDecoder}

/-- A decoder after any calls, with whatever input. -/
inductive Reached : ChunkedDecoder → Prop
  | new (limits : Limits) : Reached (.new limits)
  | parse {d : ChunkedDecoder} (reached : Reached d) (data : Octets) :
    Reached (d.parse data).decoder

theorem sound_withStage (hd : d.draft.Sound) (stage : BodyStage) :
    (d.withStage stage).draft.Sound :=
  ⟨hd.fields, hd.trailers⟩

/-- **What a call of a decoder keeps.** -/
theorem sound_parse (hd : d.draft.Sound) (data : Octets) :
    (d.parse data).decoder.draft.Sound := by
  have hstart : BodyDraft.Sound { d.draft with window? := none } := ⟨hd.fields, hd.trailers⟩
  have hfed : (d.afterFed data).draft.Sound :=
    Lexer.state_feed (fun _ event hd ↦ hd.handle event) d.lexer.resume hstart data
  have hreturns := d.returns_parse data
  generalize d.parse data = r at hreturns ⊢
  cases hreturns with
  | refused => exact sound_withStage hd _
  | malformed => exact sound_withStage hfed _
  | failed | data | none => exact hfed

/-- **What any calls of a decoder keep.** -/
theorem Reached.sound (hd : d.Reached) : d.draft.Sound := by
  induction hd with
  | new limits => exact BodyDraft.sound_new limits
  | parse _ data ih => exact sound_parse ih data

end ChunkedDecoder

/-! ### Responses -/

namespace ResponseBuilder

variable {b : ResponseBuilder} {h : Headers}

/-- The headers that are added to a builder are built. -/
theorem built_headers_after_new (steps : List Step) : (new.after steps).headers.Built := by
  rw [headers_after]
  exact Headers.Built.empty.insertList _

/-- To say how a body is framed builds headers. -/
theorem built_announceBody (hh : h.Built) : (b.announceBody h).Built := by
  unfold announceBody
  split
  · exact hh.replace _ _
  · exact hh.insert _ _
  · exact hh
  · exact hh

/-- To say what becomes of the connection builds headers. -/
theorem built_announceConnection (hh : h.Built) : (b.announceConnection h).Built := by
  unfold announceConnection
  (repeat' split) <;> first | exact hh | exact hh.replace _ _

end ResponseBuilder

/-! ### All headers -/

namespace Headers

variable {h : Headers}

/-- Headers that anybody can come by. -/
inductive Reachable : Headers → Prop
  | empty : Reachable .empty
  | insertAll {h : Headers} (reachable : Reachable h) (name : String) (values : List String) :
    Reachable (h.insertAll name values)
  | replace {h : Headers} (reachable : Reachable h) (name : String) (values : List String) :
    Reachable (h.replace name values)
  | erase {h : Headers} (reachable : Reachable h) (name : String) : Reachable (h.erase name)
  /-- A parser has gathered them so far. -/
  | gathered {H : Type} [ReadableHead H] [MessageHead H] [LawfulHead H] {p : HeadParser H}
    (reached : p.Reached) : Reachable p.draft.fields.headers
  /-- A parser hands them out with a head. -/
  | parsed {H : Type} [ReadableHead H] [MessageHead H] [LawfulHead H] {p : HeadParser H} {head : H}
    (reached : p.Reached) (complete : p.head? = some head) : Reachable (MessageHead.headers head)
  /-- A decoder has gathered them so far. -/
  | trailing {d : ChunkedDecoder} (reached : d.Reached) : Reachable d.draft.fields.headers
  /-- A decoder hands them out as trailers. -/
  | trailers {d : ChunkedDecoder} (reached : d.Reached) : Reachable d.trailers
  /-- They are added to a builder. -/
  | added (steps : List ResponseBuilder.Step) :
    Reachable (ResponseBuilder.new.after steps).headers
  /-- They are in a built response. -/
  | response (steps : List ResponseBuilder.Step) (code : Nat) (reason : String) :
    Reachable ((ResponseBuilder.new.after steps).build code reason).headers

/-- All headers come about by the operations on them. -/
theorem Reachable.built (hh : h.Reachable) : h.Built := by
  induction hh with
  | empty => exact .empty
  | insertAll _ name values ih => exact ih.insertAll name values
  | replace _ name values ih => exact ih.replace name values
  | erase _ name ih => exact ih.erase name
  | gathered reached => exact reached.sound.fields
  | parsed reached complete => exact reached.built_head? complete
  | trailing reached => exact reached.sound.fields
  | trailers reached => exact reached.sound.trailers
  | added steps => exact ResponseBuilder.built_headers_after_new steps
  | response steps code reason =>
    exact ResponseBuilder.built_announceConnection
      (ResponseBuilder.built_announceBody (ResponseBuilder.built_headers_after_new steps))

/-- What is kept in headers agrees with itself and with what is written of it. -/
structure Consistent (h : Headers) : Prop where
  /-- Names differ in more than their case. -/
  names : h.fields.Pairwise fun f g ↦ sameName f.name g.name = false
  values : ∀ f ∈ h.fields, f.values ≠ []
  size : h.size = Field.count h.fields
  /-- What an operation takes from the count is in it. -/
  length_le : ∀ name old, h.getAll? name = some old → old.length ≤ h.size
  isEmpty : h.isEmpty = true ↔ h.fields = []
  text : h.toText = String.join (h.lines.map lineText)
  length_lines : h.lines.length = h.size
  /-- Each value is in one line. -/
  perm_lines : h.lines.Perm (h.fields.flatMap Field.lines)
  lines_of_host : ∀ f ∈ h.fields, sameName f.name "Host" = true →
    h.lines = f.lines ++ (h.fields.filter (!sameName ·.name "Host")).flatMap Field.lines
  lines_of_absent : Field.Absent "Host" h.fields → h.lines = h.fields.flatMap Field.lines

/-- **All headers are consistent**, whoever made them. -/
theorem Reachable.consistent (hh : h.Reachable) : h.Consistent where
  names := hh.built.regular.fields.pairwise
  values := hh.built.regular.fields.values_ne_nil
  size := hh.built.regular.size
  length_le name old hget := by
    rw [hh.built.regular.size]
    exact Field.length_le_count hget
  isEmpty := hh.built.regular.isEmpty_iff
  text := rfl
  length_lines := hh.built.regular.length_lines
  perm_lines := h.perm_lines
  lines_of_host _ hf hhost := hh.built.regular.lines_of_host hf hhost
  lines_of_absent hhost := Headers.lines_of_absent hhost

/-- Values of one name in two casings, with a host between them. -/
def hostBetween : List ResponseBuilder.Step :=
  [.addHeader "accept" "a", .addHeader "Host" "h", .addHeader "Accept" "b", .chunked]

/-- The headers of a built response are consistent, and remain so when a name is dropped. -/
theorem Reachable.consistent_hostBetween :
    let h := ((ResponseBuilder.new.after hostBetween).build 200 "OK").headers.erase "ACCEPT"
    h.Reachable ∧ h.Consistent :=
  have reachable := (Reachable.response hostBetween 200 "OK").erase "ACCEPT"
  ⟨reachable, reachable.consistent⟩

end Headers

end HttpFraming
