import HttpFraming.Proofs.Lexer.Invariant
import HttpFraming.Proofs.Message.Provenance

/-!
# How much a parser holds

A parser that is fed octets without end must not keep them without end, and a line that never ends
must be stopped while it arrives. So what a parser holds is within its limits at any time, and not
only when it is done (`holdsAtMost_of_calls`).

Neither the lexer nor the draft knows that alone. Only the lexer counts the octets of a method, and
a collector checks the number of values when a name comes in, before it has stored the line: that
the later store stays within the limit is so because values only follow names. `Phase.methodLength?`
and `Phase.isInValue` are what has to be known of the lexer, and `Span.ReportedBetween` is what its
steps have to say about them.

## From one octet to any calls

1. `Lexer.leads_of_step` looks at all phases once, and says how an octet changes the two things that
are known of a phase. 2. For each operation of a collector and of a draft there is a law that it
keeps `Within`, from the phase before to the phase after. 3. `HeadDraft.invariant_beside` and
`BodyDraft.invariant_beside` put these together: one octet keeps that a draft is within its limits
`Beside` its lexer. By `Lexer.Invariant` a call then keeps it, wherever it stops. 4.
`holdsAtMost_afterCalls` is the induction over the calls.

## Two ways to say how much

`Within` is what can be carried along. It bounds the number of values by the counter that a
collector keeps, and mentions phases. `HoldsAtMost` is what is to be shown: lengths and numbers of
what is really there, among them the number of values that would be stored if the line in progress
were. From the first to the second it takes that the counter is right (`Headers.Built`), which is
known of all headers that come from a parser.
-/

namespace HttpFraming

open Lexer (Invariant Keeps)

/-! ### What the lexer knows -/

namespace Phase

/-- The number of octets of the method that have been read, unless the method has ended. -/
def methodLength? : Phase → Option Nat
  | requestStart => some 0
  | method n => some n
  | _ => none

/-- Whether a header value is what goes on. -/
def isInValue : Phase → Bool
  | valueStart | fieldValue => true
  | _ => false

end Phase

/-- What two phases have to do with a part of which a piece is reported between them. -/
@[mk_iff]
structure Span.ReportedBetween (span : Span) (p q : Phase) : Prop where
  methodLength_isSome : span = .method → p.methodLength?.isSome = true
  methodLength_eq : ∀ n, q.methodLength? = some n → p.methodLength? = some n
  isInValue : span = .fieldValue → p.isInValue = true
  of_isInValue : q.isInValue = true → p.isInValue = true ∨ span = .fieldName

/-- How the effect of an octet takes a phase `p` to a phase `q`, as to methods and values. A method
goes on with octets of it only, up to its greatest length, and a value begins only after a name. -/
def Effect.Leads (p q : Phase) : Effect → Prop
  | skip =>
    (∀ n, q.methodLength? = some n → p.methodLength? = some n) ∧
      (q.isInValue = true → p.isInValue = true)
  | extend =>
    (∀ n, q.methodLength? = some n →
      ∃ m, p.methodLength? = some m ∧ n = m + 1 ∧ n ≤ Lexer.maxMethodLength) ∧
      (q.isInValue = true → p.isInValue = true)
  | complete span => span = .chunkData ∧ span.ReportedBetween p q
  | close span => span.ReportedBetween p q
  | endHead | endBody => q.methodLength? = none ∧ q.isInValue = false

namespace Lexer

variable {part : MessagePart} {l l' : Lexer part} {b : UInt8} {effect : Effect} {span : Span}

/-- **What an octet does** to the length of a method and to being in a value. -/
theorem leads_of_step (h : l.step b = .ok (l', effect)) : effect.Leads l.phase l'.phase := by
  cases hp : l.phase <;> simp only [step, hp, endHeaders_eq, enter, afterSize] at h <;>
    (repeat' split at h) <;> cases h <;>
    simp_all [Effect.Leads, Phase.methodLength?, Phase.isInValue, Span.reportedBetween_iff,
      maxMethodLength, Nat.succ_le_iff]

/-- A piece that is reported where the input ends is one of the part that goes on. -/
theorem reportedBetween_of_span? (h : l.phase.span? = some span) :
    span.ReportedBetween l.phase l.phase := by
  rw [Span.reportedBetween_iff]
  cases hp : l.phase <;> rw [hp] at h <;> cases h <;> simp [Phase.methodLength?, Phase.isInValue]

end Lexer

/-! ### Header lines -/

namespace FieldCollector

variable {c c' : FieldCollector} {limits : Limits} {p q : Phase} {piece : Octets}

/-- Header lines within limits, of which the last is at the phase `p`. -/
structure Within (limits : Limits) (p : Phase) (c : FieldCollector) : Prop where
  line : c.name.length + c.value.length ≤ limits.header
  value : c.pending = false → c.value = []
  size : c.headers.size ≤ limits.headerCount
  /-- A line whose value has begun can be stored. -/
  room : c.pending = true ∨ p.isInValue = true → c.headers.size < limits.headerCount

/-- No lines are within any limits, outside a value. -/
theorem within_empty (hp : p.isInValue = false) : Within limits p .empty where
  line := Nat.zero_le _
  value _ := rfl
  size := Nat.zero_le _
  room h := by
    rw [hp] at h
    rcases h with ⟨⟨⟩⟩ | ⟨⟨⟩⟩

/-- Lines within limits remain so where no value begins. -/
theorem Within.mono (hc : c.Within limits p) (hq : q.isInValue = true → p.isInValue = true) :
    c.Within limits q :=
  ⟨hc.line, hc.value, hc.size, fun h ↦ hc.room (h.imp_right hq)⟩

/-- Between two lines there is no value. -/
theorem Within.flush (hc : c.Within limits p) (h : c.flush = .ok c') :
    c'.Within limits .fieldStart ∧ c'.value = [] := by
  unfold FieldCollector.flush store at h
  split at h
  · rename_i hpending
    have hroom := hc.room (.inl hpending)
    split at h
    · cases h
    · split at h <;> cases h
      refine ⟨⟨Nat.zero_le _, fun _ ↦ rfl, hroom, ?_⟩, rfl⟩
      rintro (⟨⟨⟩⟩ | ⟨⟨⟩⟩)
  · rename_i hpending
    cases h
    exact ⟨hc.mono (by rintro ⟨⟩), hc.value (Bool.eq_false_iff.2 hpending)⟩

/-- A name comes in only where its line can be stored. -/
theorem Within.addName (hc : c.Within limits p) (h : c.addName limits piece = .ok c') :
    c'.Within limits q := by
  unfold FieldCollector.addName at h
  split at h
  · cases h
  · rename_i c₀ hflush
    obtain ⟨hc₀, hvalue⟩ := hc.flush hflush
    split at h
    · cases h
    · split at h <;> cases h
      rename_i hcount hlength
      refine ⟨?_, fun _ ↦ hvalue, hc₀.size, fun _ ↦ Nat.lt_of_not_le hcount⟩
      simp only [hvalue, List.length_append, List.length_nil, Nat.add_zero]
      exact Nat.le_of_not_lt hlength

/-- A piece of a value is taken only if the line remains within its limit. -/
theorem Within.addValue (hc : c.Within limits p) (hp : p.isInValue = true)
    (h : c.addValue limits piece = .ok c') : c'.Within limits q := by
  unfold FieldCollector.addValue at h
  split at h <;> cases h
  rename_i hlength
  refine ⟨?_, by rintro ⟨⟩, hc.size, fun _ ↦ hc.room (.inr hp)⟩
  simp only [List.length_append, ← Nat.add_assoc]
  exact Nat.le_of_not_lt hlength

/-- Headers that are finished are within the limit on their number. -/
theorem Within.finish (hc : c.Within limits p) {h : Headers} (hfinish : c.finish = .ok h) :
    h.size ≤ limits.headerCount := by
  unfold FieldCollector.finish at hfinish
  split at hfinish
  · cases hfinish
  · rename_i c₀ hflush
    cases hfinish
    exact (hc.flush hflush).1.size

/-- How much header lines take: the line in progress, and the values that are stored, also when
that line will be. -/
structure HoldsAtMost (limits : Limits) (c : FieldCollector) : Prop where
  line : c.name.length + c.value.length ≤ limits.header
  stored : Field.count c.headers.fields ≤ limits.headerCount
  flushed : ∀ c', c.flush = .ok c' → Field.count c'.headers.fields ≤ limits.headerCount

/-- Lines within limits hold no more than that. -/
theorem Within.holdsAtMost (hc : c.Within limits p) (hbuilt : c.headers.Built) :
    c.HoldsAtMost limits where
  line := hc.line
  stored := hbuilt.regular.size ▸ hc.size
  flushed _ h := (built_flush hbuilt h).regular.size ▸ (hc.flush h).1.size

end FieldCollector

/-! ### Heads -/

section Heads

variable {H : Type} [MessageHead H]

namespace HeadDraft

variable {d d' : HeadDraft H} {limits : Limits} {p q : Phase} {span : Span} {opened piece : Octets}

/-- A draft within limits, where the lexer is at the phase `p` and `opened` is open. -/
structure Within (limits : Limits) (p : Phase) (opened : Octets) (d : HeadDraft H) : Prop where
  limits_eq : d.limits = limits
  method : d.raw.method.length ≤ Lexer.maxMethodLength
  methodLength : ∀ n, p.methodLength? = some n →
    d.raw.method.length + opened.length ≤ n ∧ n ≤ Lexer.maxMethodLength
  target : d.raw.target.length ≤ limits.target
  reason : d.raw.reason.length ≤ limits.reason
  fields : d.fields.Within limits p
  held : ∀ head, d.stage.held? = some head →
    (MessageHead.headers head).size ≤ limits.headerCount

/-- A new draft is within its limits. -/
theorem within_new (limits : Limits) (part : MessagePart) :
    Within limits (Lexer.startPhase part) [] (.new limits : HeadDraft H) where
  limits_eq := rfl
  method := Nat.zero_le _
  methodLength n h := by
    cases part with
    | request =>
      obtain rfl := Option.some.inj h
      exact ⟨Nat.le_refl 0, Nat.zero_le _⟩
    | response | chunkedBody => cases h
  target := Nat.zero_le _
  reason := Nat.zero_le _
  fields := FieldCollector.within_empty (by cases part <;> rfl)
  held := by rintro _ ⟨⟩

/-- What is no longer open may be forgotten. -/
theorem Within.methodLength_nil (hd : d.Within limits p opened)
    (hmethod : ∀ n, q.methodLength? = some n → p.methodLength? = some n) (n : Nat)
    (h : q.methodLength? = some n) : d.raw.method.length ≤ n ∧ n ≤ Lexer.maxMethodLength := by
  obtain ⟨hle, hmax⟩ := hd.methodLength n (hmethod n h)
  exact ⟨Nat.le_trans (Nat.le_add_right _ _) hle, hmax⟩

/-- A draft within limits remains so where no method goes on and no value begins. -/
theorem Within.mono (hd : d.Within limits p opened)
    (hmethod : ∀ n, q.methodLength? = some n → p.methodLength? = some n)
    (hvalue : q.isInValue = true → p.isInValue = true) : d.Within limits q [] where
  limits_eq := hd.limits_eq
  method := hd.method
  methodLength := hd.methodLength_nil hmethod
  target := hd.target
  reason := hd.reason
  fields := hd.fields.mono hvalue
  held := hd.held

theorem Within.withStage (hd : d.Within limits p opened) {stage : Stage H}
    (hstage : ∀ head, stage.held? = some head →
      (MessageHead.headers head).size ≤ limits.headerCount) :
    Within limits p opened { d with stage := stage } :=
  ⟨hd.limits_eq, hd.method, hd.methodLength, hd.target, hd.reason, hd.fields, hstage⟩

/-- **A piece that is collected** leaves the draft within its limits. -/
theorem Within.collect (hd : d.Within limits p opened) (hspan : span.ReportedBetween p q)
    (hpiece : span = .method → piece.length = opened.length) (h : d.collect span piece = .ok d') :
    d'.Within limits q [] := by
  -- But for a name, after which a value may begin, nothing that is known of the phase is lost.
  have hother (hname : span ≠ .fieldName) : d.Within limits q [] :=
    hd.mono hspan.methodLength_eq fun hq ↦ (hspan.of_isInValue hq).resolve_right hname
  have hlimits := hd.limits_eq
  cases span with
  | method =>
    cases h
    have hlength : (d.raw.method ++ piece).length = d.raw.method.length + opened.length := by
      rw [List.length_append, hpiece rfl]
    obtain ⟨n, hn⟩ := Option.isSome_iff_exists.1 (hspan.methodLength_isSome rfl)
    refine { hother (by decide) with
      method := hlength ▸ Nat.le_trans (hd.methodLength n hn).1 (hd.methodLength n hn).2
      methodLength := fun m hm ↦ ?_ }
    exact hlength ▸ hd.methodLength m (hspan.methodLength_eq m hm)
  | target =>
    simp only [HeadDraft.collect] at h
    split at h <;> cases h
    rename_i hle
    rw [hlimits] at hle
    exact { hother (by decide) with
      target := List.length_append ▸ Nat.le_of_not_lt hle }
  | reason =>
    simp only [HeadDraft.collect] at h
    split at h <;> cases h
    rename_i hle
    rw [hlimits] at hle
    exact { hother (by decide) with
      reason := List.length_append ▸ Nat.le_of_not_lt hle }
  | fieldName =>
    obtain ⟨fields, hfields, rfl⟩ := map_eq_ok_iff.1 h
    rw [hlimits] at hfields
    exact ⟨hlimits, hd.method, hd.methodLength_nil hspan.methodLength_eq, hd.target, hd.reason,
      hd.fields.addName hfields, hd.held⟩
  | fieldValue =>
    obtain ⟨fields, hfields, rfl⟩ := map_eq_ok_iff.1 h
    rw [hlimits] at hfields
    exact { hother (by decide) with
      fields := hd.fields.addValue (hspan.isInValue rfl) hfields }
  | chunkData =>
    cases h
    exact hother (by decide)

/-- One more octet of the open part. -/
theorem Within.extend (hd : d.Within limits p opened) {b : UInt8}
    (hmethod : ∀ n, q.methodLength? = some n →
      ∃ m, p.methodLength? = some m ∧ n = m + 1 ∧ n ≤ Lexer.maxMethodLength)
    (hvalue : q.isInValue = true → p.isInValue = true) : d.Within limits q (b :: opened) where
  limits_eq := hd.limits_eq
  method := hd.method
  methodLength n h := by
    obtain ⟨m, hm, rfl, hmax⟩ := hmethod n h
    have hle := (hd.methodLength m hm).1
    exact ⟨by rw [List.length_cons]; omega, hmax⟩
  target := hd.target
  reason := hd.reason
  fields := hd.fields.mono hvalue
  held := hd.held

theorem Within.fail (hd : d.Within limits p opened) (e : SyntaxError) :
    d.Within limits (.failed e) [] :=
  hd.mono (by rintro _ ⟨⟩) (by rintro ⟨⟩)

theorem Within.refuse (hd : d.Within limits p opened) (e : ParseError) (cause : SyntaxError) :
    (d.refuse e).Within limits (.failed cause) [] :=
  (hd.fail cause).withStage (by rintro _ ⟨⟩)

/-- How much a draft takes: what it has of the start line, its header lines, and the headers of a
head that it holds. -/
structure HoldsAtMost (limits : Limits) (d : HeadDraft H) : Prop where
  method : d.raw.method.length ≤ 32
  target : d.raw.target.length ≤ limits.target
  reason : d.raw.reason.length ≤ limits.reason
  fields : d.fields.HoldsAtMost limits
  held : ∀ head, d.stage.held? = some head →
    Field.count (MessageHead.headers head).fields ≤ limits.headerCount

/-- A draft within limits holds no more than that. -/
theorem Within.holdsAtMost (hd : d.Within limits p opened) (hsound : d.Sound) :
    d.HoldsAtMost limits where
  method := hd.method
  target := hd.target
  reason := hd.reason
  fields := hd.fields.holdsAtMost hsound.fields
  held head h := (hsound.held head h).regular.size ▸ hd.held head h

variable {part : MessagePart} {l : Lexer part}

/-- A draft within limits beside a lexer. -/
def Beside (limits : Limits) (l : Lexer part) (opened : Octets) (d : HeadDraft H) : Prop :=
  d.Within limits l.phase opened

variable [ReadableHead H]

/-- The answer to a piece keeps a draft within its limits. -/
theorem Within.keeps_piece (hd : d.Within limits p opened)
    (hspan : span.ReportedBetween p l.phase)
    (hpiece : span = .method → piece.length = opened.length) :
    Keeps (Beside limits) l (d.handle (.piece span piece)) := by
  rw [handle]
  split
  · rename_i d' hcollect
    exact hd.collect hspan hpiece hcollect
  · exact hd.refuse _ _

variable [LawfulHead H]

/-- A head has no more headers than its draft. -/
theorem Within.size_assemble (hd : d.Within limits p opened) {line : StartLine} {head : H}
    (h : d.assemble line = .ok head) :
    (MessageHead.headers head).size ≤ limits.headerCount := by
  unfold assemble at h
  split at h
  · cases h
  · rename_i withHeaders hassemble
    obtain ⟨headers, hfinish, rfl⟩ := map_eq_ok_iff.1 h
    rw [LawfulHead.headers_assemble hassemble]
    exact hd.fields.finish hfinish

/-- The answer to the end of a head keeps a draft within its limits. -/
theorem Within.keeps_headEnd (hd : d.Within limits l.phase []) (line : StartLine) :
    Keeps (Beside limits) l (d.handle (.headEnd line)) := by
  rw [handle]
  split
  · rename_i head hassemble
    refine hd.withStage ?_
    rintro _ ⟨⟩
    exact hd.size_assemble hassemble
  · exact hd.refuse _ _

/-- **What one octet keeps**: the draft of a head remains within its limits. -/
theorem invariant_beside (limits : Limits) :
    Invariant handle (Beside limits : Lexer part → Octets → HeadDraft H → Prop) where
  forget hd := hd.mono (fun _ ↦ id) id
  fail e hd := hd.fail e
  pause hd := hd
  skip hstep hd := by
    obtain ⟨hmethod, hvalue⟩ := Lexer.leads_of_step hstep
    exact hd.mono hmethod hvalue
  extend hstep hd := by
    obtain ⟨hmethod, hvalue⟩ := Lexer.leads_of_step hstep
    exact hd.extend hmethod hvalue
  report {l l' b effect event opened d} hstep hevent hd := by
    -- A piece of a method has the length that the lexer has counted: nothing else of it is open.
    have hleads := Lexer.leads_of_step hstep
    cases effect with
    | skip | extend => cases hevent
    | close span =>
      cases hevent
      exact hd.keeps_piece hleads fun _ ↦ List.length_reverse
    | complete span =>
      cases hevent
      obtain ⟨rfl, hbetween⟩ := hleads
      exact hd.keeps_piece hbetween (by rintro ⟨⟩)
    | endHead =>
      cases hevent
      exact Within.keeps_headEnd (hd.mono (by simp [hleads.1]) (by simp [hleads.2])) _
    | endBody =>
      cases hevent
      exact hd.mono (by simp [hleads.1]) (by simp [hleads.2])
  suspend hspan hd := hd.keeps_piece (Lexer.reportedBetween_of_span? hspan) fun _ ↦
    List.length_reverse

end HeadDraft

namespace HeadParser

variable [ReadableHead H] {p : HeadParser H} {limits : Limits}

/-- A parser after some calls. -/
def afterCalls (p : HeadParser H) (inputs : List Octets) : HeadParser H :=
  inputs.foldl (fun p data ↦ (p.parse data).1) p

/-- A parser within limits between two calls. -/
def Within (limits : Limits) (p : HeadParser H) : Prop :=
  p.draft.Beside limits p.lexer []

/-- To take the last line feed changes neither draft nor limits. -/
theorem within_takeLf (hp : p.Within limits) {head : H}
    (hhead : (MessageHead.headers head).size ≤ limits.headerCount) (data : Octets) (n : Nat) :
    (p.takeLf head data n).1.Within limits := by
  unfold takeLf
  split
  · exact hp
  · split
    · refine HeadDraft.Within.withStage hp ?_
      rintro _ ⟨⟩
      exact hhead
    · exact HeadDraft.Within.withStage hp (by rintro _ ⟨⟩)

variable [LawfulHead H]

/-- **What one call keeps.** -/
theorem Within.parse (hp : p.Within limits) (data : Octets) : (p.parse data).1.Within limits := by
  have hfed := (HeadDraft.invariant_beside limits).feed hp data
  unfold HeadParser.parse
  split
  · exact HeadDraft.Within.withStage hp (by rintro _ ⟨⟩)
  · exact HeadDraft.Within.withStage hp (by rintro _ ⟨⟩)
  · rename_i head hstage
    exact within_takeLf hp (hp.held head (congrArg Stage.held? hstage)) data 0
  · generalize p.lexer.feed HeadDraft.handle p.draft data = fed at hfed ⊢
    have hfed' : HeadParser.Within limits ⟨fed.lexer, fed.state⟩ := hfed
    simp only
    split
    · exact hfed'
    · exact HeadDraft.Within.withStage hfed' (by rintro _ ⟨⟩)
    · rename_i head hstage herror
      exact within_takeLf hfed' (hfed.held head (congrArg Stage.held? hstage)) data _
    · exact hfed'

/-- **What any calls keep.** -/
theorem holdsAtMost_afterCalls (limits : Limits) (inputs : List Octets) :
    ((new limits : HeadParser H).afterCalls inputs).draft.HoldsAtMost limits := by
  have hkept : ∀ inputs (p : HeadParser H), p.Within limits → p.draft.Sound →
      (p.afterCalls inputs).Within limits ∧ (p.afterCalls inputs).draft.Sound := by
    intro inputs
    induction inputs with
    | nil => exact fun p hp hsound ↦ ⟨hp, hsound⟩
    | cons data inputs ih => exact fun p hp hsound ↦ ih _ (hp.parse data) (sound_parse hsound data)
  obtain ⟨hwithin, hsound⟩ := hkept inputs (new limits) (HeadDraft.within_new limits _)
    (HeadDraft.sound_new limits)
  exact HeadDraft.Within.holdsAtMost hwithin hsound

end HeadParser

end Heads

/-! ### Chunked bodies -/

namespace BodyDraft

variable {d : BodyDraft} {limits : Limits} {p q : Phase}

/-- A draft of a body within limits, where the lexer is at the phase `p`. -/
structure Within (limits : Limits) (p : Phase) (d : BodyDraft) : Prop where
  limits_eq : d.limits = limits
  fields : d.fields.Within limits p
  trailers : d.trailers.size ≤ limits.headerCount

theorem within_new (limits : Limits) : Within limits .sizeStart (.new limits) :=
  ⟨rfl, FieldCollector.within_empty rfl, Nat.zero_le _⟩

/-- A draft of a body within limits remains so where no value begins. -/
theorem Within.mono (hd : d.Within limits p) (hvalue : q.isInValue = true → p.isInValue = true) :
    d.Within limits q :=
  ⟨hd.limits_eq, hd.fields.mono hvalue, hd.trailers⟩

variable {part : MessagePart} {l : Lexer part}

/-- A draft of a body within limits beside a lexer. What is open does not matter. -/
def Beside (limits : Limits) (l : Lexer part) (_opened : Octets) (d : BodyDraft) : Prop :=
  d.Within limits l.phase

/-- The answer of a draft that has asked its collector. -/
theorem Within.withFields (hd : d.Within limits p) {fields : Except ParseError FieldCollector}
    (hfields : ∀ c, fields = .ok c → c.Within limits l.phase) :
    Keeps (Beside limits) l (d.withFields fields) := by
  cases fields with
  | ok c => exact ⟨hd.limits_eq, hfields c rfl, hd.trailers⟩
  | error e => exact ⟨hd.limits_eq, hd.fields.mono (by rintro ⟨⟩), hd.trailers⟩

/-- The answer to a piece keeps a draft of a body within its limits. -/
theorem Within.keeps_piece (hd : d.Within limits p) {span : Span}
    (hspan : span.ReportedBetween p l.phase) (piece : Octets) :
    Keeps (Beside limits) l (d.handle (.piece span piece)) := by
  have hother (hname : span ≠ .fieldName) : d.Within limits l.phase :=
    hd.mono fun hq ↦ (hspan.of_isInValue hq).resolve_right hname
  have hlimits := hd.limits_eq
  cases span with
  | chunkData =>
    have hd' := hother (by decide)
    exact ⟨hd'.limits_eq, hd'.fields, hd'.trailers⟩
  | fieldName =>
    refine hd.withFields fun c hc ↦ ?_
    rw [hlimits] at hc
    exact hd.fields.addName hc
  | fieldValue =>
    refine hd.withFields fun c hc ↦ ?_
    rw [hlimits] at hc
    exact hd.fields.addValue (hspan.isInValue rfl) hc
  | method | target | reason => exact hother (by decide)

/-- The answer to the end of a body keeps the draft within its limits. -/
theorem Within.keeps_bodyEnd (hd : d.Within limits p) (hphase : l.phase.isInValue = false) :
    Keeps (Beside limits) l (d.handle .bodyEnd) := by
  rw [handle]
  split
  · rename_i trailers hfinish
    exact ⟨hd.limits_eq, FieldCollector.within_empty hphase, hd.fields.finish hfinish⟩
  · exact ⟨hd.limits_eq, hd.fields.mono (by rintro ⟨⟩), hd.trailers⟩

/-- **What one octet keeps**: the draft of a body remains within its limits. -/
theorem invariant_beside (limits : Limits) :
    Invariant handle (Beside limits : Lexer part → Octets → BodyDraft → Prop) where
  forget hd := hd
  fail e hd := hd.mono (by rintro ⟨⟩)
  pause hd := hd
  skip hstep hd := hd.mono (Lexer.leads_of_step hstep).2
  extend hstep hd := hd.mono (Lexer.leads_of_step hstep).2
  report {l l' b effect event opened d} hstep hevent hd := by
    have hleads := Lexer.leads_of_step hstep
    cases effect with
    | skip | extend => cases hevent
    | close span =>
      cases hevent
      exact hd.keeps_piece hleads _
    | complete span =>
      cases hevent
      exact hd.keeps_piece hleads.2 _
    | endHead =>
      cases hevent
      exact hd.mono (by simp [hleads.2])
    | endBody =>
      cases hevent
      exact hd.keeps_bodyEnd hleads.2
  suspend hspan hd := hd.keeps_piece (Lexer.reportedBetween_of_span? hspan) _

/-- How much a draft of a body takes: its trailer lines, and the trailers that it holds. -/
structure HoldsAtMost (limits : Limits) (d : BodyDraft) : Prop where
  fields : d.fields.HoldsAtMost limits
  trailers : Field.count d.trailers.fields ≤ limits.headerCount

/-- A draft of a body within limits holds no more than that. -/
theorem Within.holdsAtMost (hd : d.Within limits p) (hsound : d.Sound) : d.HoldsAtMost limits where
  fields := hd.fields.holdsAtMost hsound.fields
  trailers := hsound.trailers.regular.size ▸ hd.trailers

end BodyDraft

namespace ChunkedDecoder

variable {d : ChunkedDecoder} {limits : Limits}

/-- A decoder after some calls. -/
def afterCalls (d : ChunkedDecoder) (inputs : List Octets) : ChunkedDecoder :=
  inputs.foldl (fun d data ↦ (d.parse data).decoder) d

/-- A decoder within limits between two calls. -/
def Within (limits : Limits) (d : ChunkedDecoder) : Prop :=
  d.draft.Within limits d.lexer.phase

/-- **What one call keeps.** -/
theorem Within.parse (hd : d.Within limits) (data : Octets) :
    (d.parse data).decoder.Within limits := by
  have hstart : BodyDraft.Beside limits d.lexer.resume [] { d.draft with window? := none } :=
    ⟨hd.limits_eq, hd.fields, hd.trailers⟩
  have hfed : (d.afterFed data).Within limits :=
    (BodyDraft.invariant_beside limits).feed hstart data
  have hreturns := d.returns_parse data
  generalize d.parse data = r at hreturns ⊢
  cases hreturns with
  | refused => exact ⟨hd.limits_eq, hd.fields, hd.trailers⟩
  | malformed => exact ⟨hfed.limits_eq, hfed.fields, hfed.trailers⟩
  | failed | data | none => exact hfed

/-- **What any calls keep.** -/
theorem holdsAtMost_afterCalls (limits : Limits) (inputs : List Octets) :
    ((new limits).afterCalls inputs).draft.HoldsAtMost limits := by
  have hkept : ∀ inputs (d : ChunkedDecoder), d.Within limits → d.draft.Sound →
      (d.afterCalls inputs).Within limits ∧ (d.afterCalls inputs).draft.Sound := by
    intro inputs
    induction inputs with
    | nil => exact fun d hd hsound ↦ ⟨hd, hsound⟩
    | cons data inputs ih => exact fun d hd hsound ↦ ih _ (hd.parse data) (sound_parse hsound data)
  obtain ⟨hwithin, hsound⟩ := hkept inputs (new limits) (BodyDraft.within_new limits)
    (BodyDraft.sound_new limits)
  exact hwithin.holdsAtMost hsound

end ChunkedDecoder

/-- **Parsers hold no more than their limits allow**, after any calls with whatever octets. -/
theorem holdsAtMost_of_calls (limits : Limits) (inputs : List Octets) :
    ((HeadParser.new limits : RequestParser).afterCalls inputs).draft.HoldsAtMost limits ∧
      ((HeadParser.new limits : ResponseParser).afterCalls inputs).draft.HoldsAtMost limits ∧
      ((ChunkedDecoder.new limits).afterCalls inputs).draft.HoldsAtMost limits :=
  ⟨HeadParser.holdsAtMost_afterCalls limits inputs, HeadParser.holdsAtMost_afterCalls limits inputs,
    ChunkedDecoder.holdsAtMost_afterCalls limits inputs⟩

end HttpFraming
