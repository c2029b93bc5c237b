import HttpFraming.Proofs.Scanner.Run

/-!
# Nothing goes wrong in a scanner

A scanner is called with one piece of input after the other, and resumed whenever its caller likes.
`Scanner.Safe` says what may be relied on after such calls, and in each round of the call that comes
next: that numbers and places keep to their bounds, that no operation leaves its range, and that a
size is refused for its value exactly at the digit with which it does not fit in 64 bits any more.
That size may have been read in many calls, so its digits are looked for in all that was consumed.
`Scanner.safe_of_calls` says that a scanner is safe after any calls.

## Results, and that there are some

All operations of a scanner have no result where they would leave their range. So a statement about
the result of calls must not be of the form that if there is one, it is right. `safe_of_calls` says
that there is one, for any list of calls and any handler, and that the scanner it leaves is safe.
What is asked of an input is that its length can be told with 64 bits (`Input`), for otherwise no
machine has a place in it.

## Why a size is refused

That a size is refused where it does not fit is known of one octet. In a round it could be refused
besides: a handler may abort, which is another error, and an action may fail for another reason.
`exists_reject` says that a round fails with anything but an abortion only where the scanner has
refused the octet of this round. With it the equivalence for an octet becomes one for a round
(`overflow_iff`).
-/

namespace HttpFraming.Scanner

open Radix (hexadecimal)

variable {part : MessagePart} {σ : Type} {handle : σ → Event → σ × Flow} {t t' : Scanner part}
  {s : σ} {taken data : Octets} {c : Scan part σ} {b : UInt8} {r : Scanned part σ}

/-! ### Where a size is refused -/

/-- A scanner has not failed, unless a handler has aborted it. -/
def Unrefused (t : Scanner part) : Prop :=
  t.error? = none ∨ t.error? = some .aborted

theorem unrefused_obey (h : t.error? = none) (flow : Flow) : (t.obey flow).Unrefused := by
  cases flow with
  | proceed | pause => exact .inl h
  | abort => exact .inr rfl

/-- A round that asks the handler refuses nothing by itself. -/
theorem unrefused_of_answered {mark : Option Nat} {stop : Nat} {answer : σ × Flow}
    (h : t.error? = none) (hround : answered t mark stop answer = .leave r) :
    r.scanner.Unrefused := by
  obtain ⟨s, flow⟩ := answer
  cases flow with
  | proceed => cases hround
  | pause | abort =>
    cases hround
    exact unrefused_obey h _

/-- No octet is refused in the data of a chunk. -/
theorem unrefused_of_takeData (hc : Bounded c.scanner) (hplace : c.scanner.place = .chunkData)
    (hround : takeData handle data c = some (.leave r)) : r.scanner.Unrefused := by
  have halive : c.scanner.error? = none := hc.error.2 (by rw [hplace]; rintro ⟨⟩)
  obtain ⟨left, -, hround⟩ := Option.bind_eq_some_iff.1 hround
  obtain ⟨available, -, hround⟩ := Option.bind_eq_some_iff.1 hround
  obtain ⟨remaining, -, hround⟩ := Option.bind_eq_some_iff.1 hround
  obtain ⟨octets, -, hround⟩ := Option.map_eq_some_iff.1 hround
  exact unrefused_of_answered (t := c.scanner.afterData remaining) halive hround

/-- The end of the headers refuses nothing. -/
theorem unrefused_endHeaders (h : c.scanner.error? = none) :
    (endHeaders handle c).scanner.Unrefused := by
  rw [endHeaders, atBodyEnd, atHeadEnd]
  split
  · exact unrefused_obey (t := c.scanner.enter .bodyDone) h _
  · split
    · exact .inr rfl
    · exact .inl h

/-- A scanner that closes a part has not failed. -/
theorem error?_of_close {span : Span} (ht' : Bounded t')
    (hstep : t.toLexer.step b = .ok (t'.toLexer, .close span)) : t'.error? = none :=
  error?_toLexer ht' ▸ Lexer.error?_of_isFinal (Lexer.ties_of_step hstep).2.2

/-- **A round refuses an octet** only because the scanner does. -/
theorem exists_reject (hc : c.InRange taken data) (hb : data[c.place]? = some b)
    (hround : round handle data c = some (.leave r)) (hr : ¬r.scanner.Unrefused) :
    ∃ t' cause, c.scanner.act b = some (.reject t' cause) ∧ r.scanner = t'.fail cause := by
  have hmatches := matches_act hc.bounded b
  rw [round, hb] at hround
  obtain ⟨action, hact, hround⟩ := Option.bind_eq_some_iff.1 hround
  rw [hact] at hmatches
  -- After any other action the scan is left because of the handler's answer, if at all.
  cases action with
  | pass | mark => cases hround
  | close span t' =>
    obtain ⟨octets, -, hround⟩ := Option.map_eq_some_iff.1 hround
    exact absurd (unrefused_of_answered (error?_of_close hmatches.1 hmatches.2.2.2) hround) hr
  | closeEmpty span t' =>
    exact absurd (unrefused_of_answered (error?_of_close hmatches.1 hmatches.2.2.2)
      (Option.some.inj hround)) hr
  | takeData => exact absurd (unrefused_of_takeData hc.bounded hmatches hround) hr
  | endHeaders =>
    have halive := hc.bounded.error.2 (ne_dead_of_endHeaders hmatches.2)
    cases hround
    exact absurd (unrefused_endHeaders halive) hr
  | reject t' cause =>
    cases hround
    exact ⟨t', cause, hact, rfl⟩

/-- What the lexer refuses, the scanner refuses. -/
theorem exists_reject_of_step (ht : Bounded t) {e : SyntaxError}
    (hstep : t.toLexer.step b = .error e) : ∃ t', t.act b = some (.reject t' e) := by
  have hmatches := matches_act ht b
  cases hact : t.act b with
  | none =>
    rw [hact] at hmatches
    exact hmatches.elim
  | some action =>
    rw [hact] at hmatches
    cases action with
    | pass => cases hstep.symm.trans hmatches.2.2
    | mark | close | closeEmpty => cases hstep.symm.trans hmatches.2.2.2
    | takeData =>
      have hspan : t.toLexer.phase.span? = some .chunkData := by
        rw [Matches] at hmatches
        simp only [toLexer, phase, hmatches, Phase.span?]
      exact absurd hstep (Lexer.step_chunkData_ne_error hspan e)
    | endHeaders =>
      rw [hmatches.2, Lexer.endHeaders_eq] at hstep
      split at hstep <;> cases hstep
    | reject t' cause =>
      cases hstep.symm.trans hmatches.2.2
      exact ⟨t', rfl⟩

/-- **A size is refused for its value** at the digit with which it reaches the bound, and nothing
else is refused for that. -/
theorem overflow_iff (hc : c.InRange taken data) (hb : data[c.place]? = some b) :
    (∃ r, round handle data c = some (.leave r) ∧ r.scanner.error? = some .chunkSizeOverflow) ↔
      c.scanner.place = .size ∧ hexadecimal.isDigit b.toNat = true ∧
        2 ^ 64 ≤ hexadecimal.value (lastDigits (taken ++ data.take c.place) ++ [b]) := by
  have hmatches := matches_act hc.bounded b
  have hplace : c.scanner.place = .size ↔ ∃ n, c.scanner.toLexer.phase = .size n := by
    cases hp : c.scanner.place <;> simp [toLexer, phase, hp]
  rw [hplace, ← hc.size.step_eq_overflow_iff]
  constructor
  · rintro ⟨r, hround, herror⟩
    have hr : ¬r.scanner.Unrefused := by
      rw [Unrefused, herror]
      rintro (h | h) <;> cases h
    obtain ⟨t', cause, hact, ht'⟩ := exists_reject hc hb hround hr
    rw [hact] at hmatches
    rw [ht'] at herror
    cases herror
    exact hmatches.2.2
  · intro hstep
    obtain ⟨t', hact⟩ := exists_reject_of_step hc.bounded hstep
    refine ⟨⟨t'.fail .chunkSizeOverflow, c.state, c.place⟩, ?_, rfl⟩
    rw [round, hb]
    simp only [hact, Option.bind_some, perform]

/-! ### All calls -/

/-- Some octets that a machine with places of 64 bits can hold. -/
structure Input where
  octets : Octets
  length_lt : octets.length < 2 ^ 64

/-- A call of a scanner. -/
inductive Call where
  | resume
  | execute (input : Input)

/-- What comes of some calls: the scanner and the handler's state, and all octets that were
consumed. -/
structure Reached (part : MessagePart) (σ : Type) where
  scanner : Scanner part
  state : σ
  taken : Octets

/-- What comes of a call, together with what it consumed. -/
def call? (handle : σ → Event → σ × Flow) (r : Reached part σ) : Call → Checked (Reached part σ)
  | .resume => some { r with scanner := r.scanner.resume }
  | .execute input =>
    (r.scanner.execute? handle r.state input.octets).map fun x ↦
      ⟨x.scanner, x.state, r.taken ++ input.octets.take x.consumed⟩

/-- What comes of some calls, one after another. -/
def calls? (handle : σ → Event → σ × Flow) (r : Reached part σ) (calls : List Call) :
    Checked (Reached part σ) :=
  calls.foldlM (call? handle) r

/-- A scanner is safe to go on with. The next call has a result, which is that of the lexer, and
each round of it is in the input, has a result, and refuses exactly the sizes that do not fit. -/
structure Safe (handle : σ → Event → σ × Flow) (r : Reached part σ) : Prop where
  bounded : Bounded r.scanner
  fed : ∀ input : Input, ∃ x, r.scanner.execute? handle r.state input.octets = some x ∧
    x.toFed = Lexer.feed handle r.scanner.toLexer r.state input.octets
  inRange : ∀ (input : Input) (c : Scan part σ),
    Loop.Visits (round handle input.octets) (r.scanner.begin r.state) c →
      c.InRange r.taken input.octets ∧ round handle input.octets c ≠ none
  overflow : ∀ (input : Input) (c : Scan part σ) (b : UInt8),
    Loop.Visits (round handle input.octets) (r.scanner.begin r.state) c →
      input.octets[c.place]? = some b →
        ((∃ x, round handle input.octets c = some (.leave x) ∧
            x.scanner.error? = some .chunkSizeOverflow) ↔
          c.scanner.place = .size ∧ hexadecimal.isDigit b.toNat = true ∧
            2 ^ 64 ≤
              hexadecimal.value (lastDigits (r.taken ++ input.octets.take c.place) ++ [b]))

/-- A scanner within its bounds is safe, if it knows the size in which it stands. -/
theorem safe_of_bounded {r : Reached part σ} (hr : Bounded r.scanner)
    (hsize : KnowsSize r.taken r.scanner.toLexer.phase) : Safe handle r := by
  have hmoves (input : Input) (c : Scan part σ) (hc : c.InRange r.taken input.octets) :
      c.Moves handle r.taken input.octets :=
    moves_of_inRange input.length_lt hc
  have hvisits (input : Input) (c : Scan part σ)
      (h : Loop.Visits (round handle input.octets) (r.scanner.begin r.state) c) :
      c.InRange r.taken input.octets :=
    Loop.inv_of_visits (fun hc ↦ (hmoves input _ hc).inv_of_again)
      (inRange_begin hr hsize r.state input.octets) h
  refine ⟨hr, fun input ↦ ?_,
    fun input c h ↦ ⟨hvisits input c h, (hmoves input c (hvisits input c h)).ne_none⟩,
    fun input c b h hb ↦ overflow_iff (hvisits input c h) hb⟩
  obtain ⟨x, hx, -, -, hfed⟩ := exists_execute? hr hsize handle r.state input.length_lt
  exact ⟨x, hx, hfed⟩

/-- A call keeps a scanner safe. -/
theorem exists_call? {r : Reached part σ} (hr : Bounded r.scanner)
    (hsize : KnowsSize r.taken r.scanner.toLexer.phase) (call : Call) :
    ∃ r', call? handle r call = some r' ∧ Bounded r'.scanner ∧
      KnowsSize r'.taken r'.scanner.toLexer.phase := by
  cases call with
  | resume => exact ⟨_, rfl, hr.resume, hsize⟩
  | execute input =>
    obtain ⟨x, hx, hbounded, hsize', -⟩ :=
      exists_execute? hr hsize handle r.state input.length_lt
    refine ⟨⟨x.scanner, x.state, r.taken ++ input.octets.take x.consumed⟩, ?_, hbounded, hsize'⟩
    rw [call?, hx, Option.map_some]

/-- **Calls keep a scanner safe.** -/
theorem exists_calls? {r : Reached part σ} (hr : Bounded r.scanner)
    (hsize : KnowsSize r.taken r.scanner.toLexer.phase) (calls : List Call) :
    ∃ r', calls? handle r calls = some r' ∧ Bounded r'.scanner ∧
      KnowsSize r'.taken r'.scanner.toLexer.phase := by
  induction calls generalizing r with
  | nil => exact ⟨r, rfl, hr, hsize⟩
  | cons call calls ih =>
    obtain ⟨r', hr', hbounded, hsize'⟩ := exists_call? hr hsize call
    rw [calls?, List.foldlM_cons, hr']
    exact ih hbounded hsize'

theorem bounded_new (part : MessagePart) : Bounded (new part) := by
  cases part <;> simp [bounded_iff, new, startPlace, Place.ofChunks]

theorem toLexer_new (part : MessagePart) : (new part).toLexer = Lexer.new part := by
  cases part <;> rfl

/-- **Nothing goes wrong in a scanner.** Whatever it reads, in whatever pieces, whatever a handler
asks for and whenever it is resumed, all calls have a result, and it is safe to go on. -/
theorem safe_of_calls (part : MessagePart) (handle : σ → Event → σ × Flow) (s : σ)
    (calls : List Call) :
    ∃ r, calls? handle ⟨new part, s, []⟩ calls = some r ∧ Safe handle r := by
  obtain ⟨r, hr, hbounded, hsize⟩ :=
    exists_calls? (r := ⟨new part, s, []⟩) (bounded_new part)
      (toLexer_new part ▸ KnowsSize.of_startPhase part) calls
  exact ⟨r, hr, safe_of_bounded hbounded hsize⟩

end HttpFraming.Scanner
