import HttpFraming.Proofs.Fragmentation.Gathering
import HttpFraming.Proofs.Loop
import HttpFraming.Proofs.Scanner.Octet
import HttpFraming.Proofs.Scanner.Size

/-!
# What a scanner makes of its input

A scanner goes through its input in rounds. In each it takes an octet, of which it keeps no more
than the place, or the data of a chunk as far as the input has them. `Scan.InRange` is what is true
before each round, and `Scanner.moves_of_inRange` that a round has a result and keeps it. The rounds
have to come to what `Lexer.run` comes to, which has the octets of the open part in a list: this
list is what the input has between the mark and the place (`Scan.opened`). The data of a chunk are
many octets for the lexer, which `Scanner.run_chunkData` takes together.

So a call has a result, and it is that of the lexer (`Scanner.exists_execute?`).

## One round

What a scanner does with an octet is one of seven actions. There is a lemma for each but the last,
which is to fail, with the comparison of `Scanner.Matches` as hypothesis. They have one conclusion,
`Scan.Moves`: the round has a result, and either the loop is left with what the run of the lexer
comes to, or the scan is still in its input, nearer to its end, and has the same run before it. So
the invariant, termination and the specification are settled together, and `Loop.exists_within`
gives the loop.

Rounds after which the handler is asked are alike whatever was reported, and `moves_of_answered` is
the one place where its answer is looked at.

## Marks

A part that goes on is not copied. A scan marks where it began in the input, or at the beginning of
the input if it began before, and cuts the part out when it ends. That a cut is always inside the
input is what `InRange` says of mark and place, and that there is a mark exactly inside a part is
what makes `Scan.opened` the open part of the lexer.

## The data of a chunk

They are the one thing of which a scanner takes many octets in one round: as many as are missing, or
as there are. The lexer takes them one by one and reports them at the last. The induction of
`run_chunkData` is over the input, and its statement is about all that is open so far.
-/

namespace HttpFraming.Scanner

variable {part : MessagePart} {σ : Type} {handle : σ → Event → σ × Flow} {t : Scanner part} {s : σ}
  {taken data : Octets} {c : Scan part σ} {b : UInt8}

/-! ### Scanners and what they are -/

theorem knowsSize_obey (h : KnowsSize taken t.toLexer.phase) (flow : Flow) :
    KnowsSize taken (t.obey flow).toLexer.phase := by
  cases flow with
  | proceed | pause => exact h
  | abort => exact .of_isFinal rfl

theorem toLexer_obey (t : Scanner part) (flow : Flow) :
    (t.obey flow).toLexer = t.toLexer.obey flow := by
  cases flow <;> rfl

theorem span?_toLexer {span : Span} (h : t.place.span? = some span) :
    t.toLexer.phase.span? = some span := by
  cases hp : t.place <;> simp_all [toLexer, phase, Place.span?, Phase.span?]

theorem Bounded.fail (ht : Bounded t) (e : SyntaxError) : Bounded (t.fail e) := by
  have h := (bounded_iff t).1 ht
  simp_all [bounded_iff, Scanner.fail, Place.ofChunks]

theorem Bounded.pause (ht : Bounded t) : Bounded t.pause :=
  { ht with }

theorem Bounded.resume (ht : Bounded t) : Bounded t.resume :=
  { ht with }

theorem Bounded.obey (ht : Bounded t) (flow : Flow) : Bounded (t.obey flow) := by
  cases flow with
  | proceed => exact ht
  | pause => exact ht.pause
  | abort => exact ht.fail .aborted

/-! ### The data of a chunk -/

/-- The phase before the last `n` octets of the data of a chunk. -/
def phaseBefore (n : Nat) : Phase :=
  if n = 0 then .dataEnd else .chunkData n

/-- **A lexer goes through the data of a chunk** octet by octet, but comes to the same as if it took
at once what the input has of them. -/
theorem run_chunkData {l : Lexer part} {n m : Nat} {opened rest : Octets}
    (hphase : l.phase = .chunkData n) (hn : 0 < n) (h : opened ≠ [] ∨ rest ≠ []) :
    Lexer.run handle l s opened m rest =
      Lexer.goOn handle { l with phase := phaseBefore (n - min n rest.length) }
        (handle s (.piece .chunkData (opened.reverse ++ rest.take (min n rest.length))))
        (m + min n rest.length) (rest.drop (min n rest.length)) := by
  -- Each octet goes to the open part, and the data to come become fewer by it.
  induction rest generalizing l n m opened with
  | nil =>
    have hopened : opened ≠ [] := h.resolve_right (absurd rfl)
    have hspan : l.phase.span? = some .chunkData := by rw [hphase]; rfl
    have hsame : { l with phase := phaseBefore (n - 0) } = l := by
      rw [Nat.sub_zero, phaseBefore, if_neg (Nat.pos_iff_ne_zero.1 hn), ← hphase]
    rw [Lexer.run_nil_eq_goOn hspan hopened, List.length_nil, Nat.min_zero, hsame, List.take_nil,
      List.append_nil, List.drop_nil]
    rfl
  | cons b rest ih =>
    -- With its last octet the part is reported, and the lexer goes on behind it.
    by_cases hlast : n ≤ 1
    · obtain rfl : n = 1 := Nat.le_antisymm hlast hn
      have hstep : l.step b = .ok ({ l with phase := .dataEnd }, .complete .chunkData) := by
        simp [Lexer.step, hphase, Lexer.enter]
      rw [Lexer.run_cons_complete_eq_goOn hstep]
      simp [phaseBefore]
    · have hstep : l.step b = .ok ({ l with phase := .chunkData (n - 1) }, .extend) := by
        simp [Lexer.step, hphase, Lexer.enter, hlast]
      obtain ⟨k, rfl⟩ : ∃ k, n = k + 1 := ⟨n - 1, by omega⟩
      rw [Lexer.run_cons_extend hstep, ih rfl (by omega) (.inl (List.cons_ne_nil b opened))]
      simp [Nat.add_assoc, Nat.add_comm 1]

/-! ### Scans -/

namespace Scan

/-- What is true of a scan of some input before each of its rounds, if `taken` was consumed before
the input. It is in the input, it has marked where the open part begins exactly if there is one, and
it knows the size in which it stands. -/
structure InRange (taken data : Octets) (c : Scan part σ) : Prop where
  bounded : Bounded c.scanner
  place_le : c.place ≤ data.length
  mark_le : ∀ start, c.mark = some start → start ≤ c.place
  isSome_mark : c.mark.isSome = c.scanner.place.span?.isSome
  size : KnowsSize (taken ++ data.take c.place) c.scanner.toLexer.phase

/-- What the input has brought of the open part, the latest octet first. -/
def opened (data : Octets) (c : Scan part σ) : Octets :=
  match c.mark with
  | some start => ((data.take c.place).drop start).reverse
  | none => []

/-- A scan comes to what a run of the lexer comes to, and keeps to the bounds. -/
structure ComesTo (handle : σ → Event → σ × Flow) (taken data : Octets) (c : Scan part σ)
    (r : Scanned part σ) : Prop where
  bounded : Bounded r.scanner
  size : KnowsSize (taken ++ data.take r.consumed) r.scanner.toLexer.phase
  fed : r.toFed =
    Lexer.run handle c.scanner.toLexer c.state (c.opened data) c.place (data.drop c.place)

/-- Outside a part there is no mark. -/
theorem InRange.mark_eq_none (h : c.InRange taken data) (hspan : c.scanner.place.span? = none) :
    c.mark = none := by
  rw [← Option.not_isSome_iff_eq_none, h.isSome_mark, hspan]
  exact Bool.false_ne_true

/-- Inside a part there is a mark, which is not behind the place. -/
theorem InRange.exists_mark (h : c.InRange taken data) {span : Span}
    (hspan : c.scanner.place.span? = some span) :
    ∃ start, c.mark = some start ∧ start ≤ c.place := by
  obtain ⟨start, hstart⟩ := Option.isSome_iff_exists.1
    (h.isSome_mark.trans (by rw [hspan]; rfl : c.scanner.place.span?.isSome = true))
  exact ⟨start, hstart, h.mark_le start hstart⟩

theorem opened_of_none (h : c.mark = none) : c.opened data = [] := by
  rw [opened, h]

/-- What is open is what the input has behind the mark. -/
theorem opened_of_some {start : Nat} (h : c.mark = some start) :
    c.opened data = ((data.take c.place).drop start).reverse := by
  rw [opened, h]

end Scan

/-- One octet more of the input is one more that is open. -/
theorem reverse_drop_take {n start : Nat} (hb : data[n]? = some b) (hstart : start ≤ n) :
    ((data.take (n + 1)).drop start).reverse = b :: ((data.take n).drop start).reverse := by
  obtain ⟨hlt, -⟩ := List.getElem?_eq_some_iff.1 hb
  have htake : start ≤ (data.take n).length := by
    rw [List.length_take]
    omega
  rw [List.take_add_one, hb, Option.toList_some, List.drop_append_of_le_length htake,
    List.reverse_append]
  rfl

/-! ### One round -/

/-- What a round does to a scan that is in its input. -/
abbrev Scan.Moves (handle : σ → Event → σ × Flow) (taken data : Octets) (c : Scan part σ) : Prop :=
  Loop.Moves (round handle data) (Scan.InRange taken data) (Scan.ComesTo handle taken data)
    (fun c ↦ data.length - c.place) c

/-- A round after which the handler is asked. -/
theorem moves_of_answered {mark : Option Nat} {stop : Nat} {answer : σ × Flow} (ht : Bounded t)
    (hmark : mark = none) (hclosed : t.place.span? = none) (hlt : c.place < stop)
    (hle : stop ≤ data.length) (hsize : KnowsSize (taken ++ data.take stop) t.toLexer.phase)
    (hround : round handle data c = some (answered t mark stop answer))
    (hrun : Lexer.run handle c.scanner.toLexer c.state (c.opened data) c.place (data.drop c.place) =
      Lexer.goOn handle t.toLexer answer stop (data.drop stop)) :
    c.Moves handle taken data := by
  obtain ⟨s, flow⟩ := answer
  -- Whether the handler pauses or aborts, the scan is left behind what was reported.
  have hleave (hround : round handle data c = some (.leave ⟨t.obey flow, s, stop⟩))
      (hrun' : Lexer.goOn handle t.toLexer (s, flow) stop (data.drop stop) =
        ⟨t.toLexer.obey flow, s, stop⟩) : c.Moves handle taken data := by
    refine .leave hround ⟨ht.obey flow, knowsSize_obey hsize flow, ?_⟩
    rw [hrun, hrun', Scanned.toFed, toLexer_obey]
  cases flow with
  | proceed =>
    have hnone : (Scan.mk t s mark stop).opened data = [] := Scan.opened_of_none hmark
    refine .again hround ⟨ht, hle, fun start h ↦ ?_, ?_, hsize⟩ ?_
      fun r hr ↦ ⟨hr.bounded, hr.size, ?_⟩
    · cases hmark.symm.trans h
    · simp only [hmark, hclosed, Option.isSome_none]
    · simp only
      omega
    · rw [hr.fed, hrun, hnone]
      rfl
  | pause | abort => exact hleave hround rfl

/-- One more octet of the input is known of a size. -/
theorem Scan.InRange.size_next {t' : Scanner part} {effect : Effect} (hc : c.InRange taken data)
    (hb : data[c.place]? = some b) (hstep : c.scanner.toLexer.step b = .ok (t'.toLexer, effect)) :
    KnowsSize (taken ++ data.take (c.place + 1)) t'.toLexer.phase := by
  rw [List.take_add_one, hb, Option.toList_some, ← List.append_assoc]
  exact hc.size.step hstep

theorem drop_of_getElem? {n : Nat} (hb : data[n]? = some b) :
    data.drop n = b :: data.drop (n + 1) := by
  obtain ⟨hlt, rfl⟩ := List.getElem?_eq_some_iff.1 hb
  exact List.drop_eq_getElem_cons hlt

/-- A round that takes an octet of the open part, if there is one. -/
theorem moves_of_pass {t' : Scanner part} (hc : c.InRange taken data) (hb : data[c.place]? = some b)
    (ht' : Bounded t') (hspan : t'.place.span? = c.scanner.place.span?)
    (hstep : c.scanner.toLexer.step b =
      .ok (t'.toLexer, if c.scanner.place.span?.isSome then .extend else .skip))
    (hround : round handle data c =
      some (.again { c with scanner := t', place := c.place + 1 })) :
    c.Moves handle taken data := by
  obtain ⟨hlt, -⟩ := List.getElem?_eq_some_iff.1 hb
  refine .again hround ⟨ht', hlt, fun start h ↦ Nat.le_succ_of_le (hc.mark_le start h), ?_,
    hc.size_next hb hstep⟩ (by simp only; omega) fun r hr ↦ ⟨hr.bounded, hr.size, ?_⟩
  · rw [hspan]
    exact hc.isSome_mark
  · rw [hr.fed, drop_of_getElem? hb]
    cases hopen : c.scanner.place.span? with
    | none =>
      have hmark := hc.mark_eq_none hopen
      rw [hopen] at hstep
      rw [Lexer.run_cons_skip hstep,
        Scan.opened_of_none (c := ⟨t', c.state, c.mark, c.place + 1⟩) hmark]
    | some span =>
      obtain ⟨start, hmark, hstart⟩ := hc.exists_mark hopen
      rw [hopen] at hstep
      rw [Lexer.run_cons_extend hstep, Scan.opened_of_some hmark,
        Scan.opened_of_some (c := ⟨t', c.state, c.mark, c.place + 1⟩) hmark,
        reverse_drop_take hb hstart]

/-- A round that marks where a part begins. -/
theorem moves_of_mark {t' : Scanner part} (hc : c.InRange taken data) (hb : data[c.place]? = some b)
    (ht' : Bounded t') (hclosed : c.scanner.place.span? = none)
    (hopen : t'.place.span?.isSome = true)
    (hstep : c.scanner.toLexer.step b = .ok (t'.toLexer, .extend))
    (hround : round handle data c =
      some (.again { c with scanner := t', mark := some c.place, place := c.place + 1 })) :
    c.Moves handle taken data := by
  obtain ⟨hlt, -⟩ := List.getElem?_eq_some_iff.1 hb
  refine .again hround ⟨ht', hlt, fun start h ↦ ?_, hopen.symm, hc.size_next hb hstep⟩
    (by simp only; omega) fun r hr ↦ ⟨hr.bounded, hr.size, ?_⟩
  · obtain rfl : c.place = start := Option.some.inj h
    exact Nat.le_succ c.place
  · rw [hr.fed, drop_of_getElem? hb, Lexer.run_cons_extend hstep,
      Scan.opened_of_none (hc.mark_eq_none hclosed), Scan.opened_of_some rfl,
      reverse_drop_take hb (Nat.le_refl _), List.drop_of_length_le (List.length_take_le _ _)]
    rfl

/-- A round that reports the open part. -/
theorem moves_of_close {t' : Scanner part} {span : Span} (hc : c.InRange taken data)
    (hb : data[c.place]? = some b) (ht' : Bounded t')
    (hopen : c.scanner.place.span? = some span) (hclosed : t'.place.span? = none)
    (hstep : c.scanner.toLexer.step b = .ok (t'.toLexer, .close span))
    (hround : round handle data c = perform handle data c (.close span t')) :
    c.Moves handle taken data := by
  obtain ⟨hlt, -⟩ := List.getElem?_eq_some_iff.1 hb
  obtain ⟨start, hmark, hstart⟩ := hc.exists_mark hopen
  have hslice : Checked.slice? data (c.mark.getD 0) c.place = some (c.opened data).reverse := by
    rw [Scan.opened_of_some hmark, hmark, List.reverse_reverse]
    exact Checked.slice?_of_le hstart hc.place_le
  rw [perform, hslice, Option.map_some] at hround
  refine moves_of_answered ht' rfl hclosed (Nat.lt_succ_self _) hlt (hc.size_next hb hstep)
    hround ?_
  rw [drop_of_getElem? hb, Lexer.run_cons_close_eq_goOn hstep]

/-- A round that reports a part without octets. -/
theorem moves_of_closeEmpty {t' : Scanner part} {span : Span} (hc : c.InRange taken data)
    (hb : data[c.place]? = some b) (ht' : Bounded t')
    (hopen : c.scanner.place.span? = none) (hclosed : t'.place.span? = none)
    (hstep : c.scanner.toLexer.step b = .ok (t'.toLexer, .close span))
    (hround : round handle data c = perform handle data c (.closeEmpty span t')) :
    c.Moves handle taken data := by
  obtain ⟨hlt, -⟩ := List.getElem?_eq_some_iff.1 hb
  have hmark := hc.mark_eq_none hopen
  refine moves_of_answered ht' hmark hclosed (Nat.lt_succ_self _) hlt (hc.size_next hb hstep)
    hround ?_
  rw [drop_of_getElem? hb, Lexer.run_cons_close_eq_goOn hstep, Scan.opened_of_none hmark]
  rfl

theorem toNat_lesser {w : Nat} (a b : BitVec w) : (lesser a b).toNat = min a.toNat b.toNat := by
  rw [lesser, Nat.min_def, apply_ite BitVec.toNat]
  rfl

/-- After some of the data of a chunk, there is none or more of them. -/
theorem afterData_cases (t : Scanner part) (remaining : BitVec 64) :
    (remaining = 0 ∧ t.afterData remaining = { t with remaining := 0, place := .dataEnd }) ∨
      (0 < remaining.toNat ∧
        t.afterData remaining = { t with remaining := remaining, place := .chunkData }) := by
  by_cases h : remaining = 0
  · exact .inl ⟨h, by rw [h]; rfl⟩
  · exact .inr ⟨Nat.pos_of_ne_zero fun hzero ↦ h (BitVec.toNat_inj.1 hzero),
      by rw [afterData, if_neg h]⟩

/-- After some of the data, the lexer stands before the rest of them. -/
theorem toLexer_afterData (t : Scanner part) (remaining : BitVec 64) :
    (t.afterData remaining).toLexer = { t.toLexer with phase := phaseBefore remaining.toNat } := by
  obtain ⟨rfl, h⟩ | ⟨hpos, h⟩ := t.afterData_cases remaining
  · rw [h]
    rfl
  · rw [h, phaseBefore, if_neg (Nat.pos_iff_ne_zero.1 hpos)]
    rfl

/-- Data are told at once, and no part is open behind them. -/
theorem span?_afterData (t : Scanner part) (remaining : BitVec 64) :
    (t.afterData remaining).place.span? = none := by
  obtain ⟨-, h⟩ | ⟨-, h⟩ := t.afterData_cases remaining <;> rw [h] <;> rfl

/-- In the data of a chunk no digit is read. -/
theorem knowsSize_afterData (t : Scanner part) (remaining : BitVec 64) :
    KnowsSize taken (t.afterData remaining).toLexer.phase := by
  rw [toLexer_afterData, phaseBefore]
  split <;> refine ⟨fun h ↦ ?_, fun n h ↦ ?_⟩ <;> cases h

theorem Bounded.afterData (ht : Bounded t) (hplace : t.place = .chunkData)
    (remaining : BitVec 64) : Bounded (t.afterData remaining) := by
  have h := (bounded_iff t).1 ht
  obtain ⟨-, heq⟩ | ⟨hpos, heq⟩ := t.afterData_cases remaining <;> rw [heq] <;>
    simp_all [bounded_iff, Place.ofChunks]

/-- A round that takes the data of a chunk. -/
theorem moves_of_takeData (hlength : data.length < 2 ^ 64) (hc : c.InRange taken data)
    (hlt : c.place < data.length) (hplace : c.scanner.place = .chunkData)
    (hround : round handle data c = takeData handle data c) : c.Moves handle taken data := by
  have hpos := hc.bounded.chunkData hplace
  have hmark : c.mark = none := hc.mark_eq_none (by rw [hplace]; rfl)
  have hphase : c.scanner.toLexer.phase = .chunkData c.scanner.remaining.toNat := by
    simp only [toLexer, phase, hplace]
  have hleft := Checked.before?_of_le (Nat.le_of_lt hlt)
  -- What the input has left is less than two to the power of 64, as its length is.
  obtain ⟨available, havailable, hvalue⟩ :=
    Checked.exists_ofNat? (w := 64) (n := data.length - c.place) (by omega)
  have hmin := toNat_lesser c.scanner.remaining available
  rw [hvalue] at hmin
  obtain ⟨remaining, hremaining, hrest⟩ :=
    Checked.exists_sub? (a := c.scanner.remaining) (b := lesser c.scanner.remaining available)
      (by omega)
  have hstop : c.place + (lesser c.scanner.remaining available).toNat ≤ data.length := by omega
  have hslice := Checked.slice?_of_le (Nat.le_add_right c.place _) hstop
  simp only [takeData, hleft, havailable, hremaining, hslice, Option.bind_some,
    Option.map_some] at hround
  refine moves_of_answered (hc.bounded.afterData hplace remaining) hmark ?_ ?_ ?_
    (knowsSize_afterData _ _) hround ?_
  · exact span?_afterData c.scanner remaining
  · omega
  · omega
  · have hrest' : data.drop c.place ≠ [] := fun h ↦ Nat.not_le_of_lt hlt (List.drop_eq_nil_iff.1 h)
    rw [run_chunkData hphase hpos (.inr hrest'), Scan.opened_of_none hmark, toLexer_afterData,
      hrest, hmin, List.length_drop, List.drop_drop, List.drop_take, Nat.add_sub_cancel_left]
    rfl

theorem Bounded.enter_done (ht : Bounded t) (halive : t.place ≠ .dead) {place : Place}
    (hplace : place = .headDone ∨ place = .bodyDone) : Bounded (t.enter place) := by
  have h := (bounded_iff t).1 ht
  obtain rfl | rfl := hplace <;> simp_all [bounded_iff, enter, Place.ofChunks]

/-- A scanner that ends the headers has not failed. -/
theorem ne_dead_of_endHeaders (hstep : t.toLexer.step b = t.toLexer.endHeaders) :
    t.place ≠ .dead := by
  intro hdead
  have herror : t.toLexer.step b = .error .closed := by
    simp only [Lexer.step, toLexer, phase, hdead]
  rw [herror, Lexer.endHeaders_eq] at hstep
  split at hstep <;> cases hstep

/-- What comes of a head, once its last line feed is reached. -/
theorem comesTo_atHeadEnd (hb : data[c.place]? = some b)
    (hdone : Bounded (c.scanner.enter .headDone))
    (hstep : c.scanner.toLexer.step b = .ok ((c.scanner.enter .headDone).toLexer, .endHead)) :
    c.ComesTo handle taken data (atHeadEnd handle c) := by
  have hrun : Lexer.run handle c.scanner.toLexer c.state (c.opened data) c.place
      (data.drop c.place) =
        Lexer.atHeadEnd handle (c.scanner.enter .headDone).toLexer c.state c.place := by
    rw [drop_of_getElem? hb, Lexer.run, hstep]
    rfl
  have hline : (c.scanner.enter .headDone).toLexer.startLine = c.scanner.startLine := rfl
  rw [Lexer.atHeadEnd, hline] at hrun
  rw [atHeadEnd]
  generalize handle c.state (.headEnd c.scanner.startLine) = answer at hrun
  obtain ⟨s, flow⟩ := answer
  cases flow with
  | proceed | pause => exact ⟨hdone.pause, .of_isFinal rfl, hrun.symm⟩
  | abort => exact ⟨hdone.fail .aborted, .of_isFinal rfl, hrun.symm⟩

/-- A round at the end of a head or of a chunked body. -/
theorem moves_of_endHeaders (hc : c.InRange taken data) (hb : data[c.place]? = some b)
    (hstep : c.scanner.toLexer.step b = c.scanner.toLexer.endHeaders)
    (hround : round handle data c = some (.leave (endHeaders handle c))) :
    c.Moves handle taken data := by
  have hchunks := hc.bounded.chunks
  have hdone {place : Place} (h : place = .headDone ∨ place = .bodyDone) :
      Bounded (c.scanner.enter place) :=
    hc.bounded.enter_done (ne_dead_of_endHeaders hstep) h
  rw [Lexer.endHeaders_eq] at hstep
  -- Only a chunked body has a trailer, so the kind of part decides what ends here.
  by_cases hpart : part = .chunkedBody
  · rw [endHeaders, if_pos (.inr hpart)] at hround
    rw [if_pos hpart] at hstep
    refine .leave hround ⟨(hdone (.inr rfl)).obey _, knowsSize_obey (.of_isFinal rfl) _, ?_⟩
    rw [drop_of_getElem? hb, Lexer.run_cons_endBody hstep, Scanned.toFed, atBodyEnd, toLexer_obey]
    rfl
  · have htrailing : ¬(c.scanner.trailing = true ∨ part = .chunkedBody) := fun h ↦
      h.elim (fun h ↦ hpart (hchunks (.inl h))) hpart
    rw [endHeaders, if_neg htrailing] at hround
    rw [if_neg hpart] at hstep
    exact .leave hround (comesTo_atHeadEnd hb (hdone (.inl rfl)) hstep)

section End

variable (hend : c.place = data.length)
include hend

/-- At the end of the input, the open part is all behind the mark. -/
theorem Scan.opened_of_end {start : Nat} (hmark : c.mark = some start) :
    c.opened data = (data.drop start).reverse := by
  rw [opened_of_some hmark, hend, List.take_length]

/-- Nothing is reported where no part is open, nor where the open part has no octet in the input. -/
theorem suspend_of_nil (h : c.opened data = []) :
    suspend handle data c = some ⟨c.scanner, c.state, data.length⟩ := by
  cases hmark : c.mark with
  | none => rw [suspend, hmark]
  | some start =>
    rw [Scan.opened_of_end hend hmark, List.reverse_eq_nil_iff, List.drop_eq_nil_iff] at h
    cases hopen : c.scanner.place.span? with
    | none => simp only [suspend, hmark, hopen]
    | some span => simp only [suspend, hmark, hopen, if_neg (Nat.not_lt_of_le h)]

/-- What the input has of the open part is told at its end. -/
theorem suspend_of_ne_nil {span : Span} (hopen : c.scanner.place.span? = some span)
    (h : c.opened data ≠ []) :
    suspend handle data c = some
      ⟨c.scanner.obey (handle c.state (.piece span (c.opened data).reverse)).2,
        (handle c.state (.piece span (c.opened data).reverse)).1, data.length⟩ := by
  obtain ⟨start, hmark⟩ : ∃ start, c.mark = some start :=
    Option.ne_none_iff_exists'.1 fun hnone ↦ h (Scan.opened_of_none hnone)
  have hopened := Scan.opened_of_end hend hmark
  have hlt : start < data.length := by
    rw [hopened, List.reverse_ne_nil_iff] at h
    exact Nat.lt_of_not_le fun hle ↦ h (List.drop_eq_nil_iff.2 hle)
  have hslice : Checked.slice? data start data.length = some (c.opened data).reverse := by
    rw [hopened, List.reverse_reverse, Checked.slice?_of_le (Nat.le_of_lt hlt) (Nat.le_refl _),
      List.take_length]
  simp only [suspend, hmark, hopen, if_pos hlt, hslice, Option.map_some]

end End

/-- A round that ends with the input. -/
theorem moves_of_suspend (hc : c.InRange taken data) (hb : data[c.place]? = none) :
    c.Moves handle taken data := by
  have hend : c.place = data.length :=
    Nat.le_antisymm hc.place_le (List.getElem?_eq_none_iff.1 hb)
  have hround : round handle data c = (suspend handle data c).map .leave := by
    rw [round, hb]
  have hdrop : data.drop c.place = [] := List.drop_of_length_le (Nat.le_of_eq hend.symm)
  have hsize : KnowsSize (taken ++ data.take data.length) c.scanner.toLexer.phase :=
    hend ▸ hc.size
  by_cases hnil : c.opened data = []
  · rw [suspend_of_nil hend hnil] at hround
    refine .leave hround ⟨hc.bounded, hsize, ?_⟩
    rw [hdrop, hnil, Lexer.run_nil_nil, hend]
    rfl
  · obtain ⟨span, hopen⟩ : ∃ span, c.scanner.place.span? = some span :=
      Option.ne_none_iff_exists'.1 fun hnone ↦ hnil (Scan.opened_of_none (hc.mark_eq_none hnone))
    rw [suspend_of_ne_nil hend hopen hnil] at hround
    refine .leave hround ⟨hc.bounded.obey _, knowsSize_obey hsize _, ?_⟩
    rw [hdrop, Lexer.run_nil_of_span? (span?_toLexer hopen) hnil, hend, Scanned.toFed,
      toLexer_obey]

/-- **What a round does** with a scan that is in its input. Nothing about it goes wrong. -/
theorem moves_of_inRange (hlength : data.length < 2 ^ 64) (hc : c.InRange taken data) :
    c.Moves handle taken data := by
  cases hb : data[c.place]? with
  | none => exact moves_of_suspend hc hb
  | some b =>
    -- The octet is compared once. Each action then has a lemma about its round.
    have hmatches := matches_act hc.bounded b
    have hround : round handle data c = (c.scanner.act b).bind (perform handle data c) := by
      rw [round, hb]
    cases hact : c.scanner.act b with
    | none =>
      rw [hact] at hmatches
      exact hmatches.elim
    | some action =>
      rw [hact] at hmatches hround
      cases action with
      | pass t' => exact moves_of_pass hc hb hmatches.1 hmatches.2.1 hmatches.2.2 hround
      | mark t' =>
        obtain ⟨ht', hclosed, hopen, hstep⟩ := hmatches
        exact moves_of_mark hc hb ht' hclosed hopen hstep hround
      | close span t' =>
        obtain ⟨ht', hopen, hclosed, hstep⟩ := hmatches
        exact moves_of_close hc hb ht' hopen hclosed hstep hround
      | closeEmpty span t' =>
        obtain ⟨ht', hopen, hclosed, hstep⟩ := hmatches
        exact moves_of_closeEmpty hc hb ht' hopen hclosed hstep hround
      | takeData =>
        exact moves_of_takeData hlength hc (List.getElem?_eq_some_iff.1 hb).1 hmatches hround
      | endHeaders => exact moves_of_endHeaders hc hb hmatches.2 hround
      | reject t' cause =>
        obtain ⟨ht', hfail, hstep⟩ := hmatches
        refine .leave hround ⟨ht', .of_isFinal ?_, ?_⟩
        · rw [hfail]
          rfl
        rw [drop_of_getElem? hb, Lexer.run_cons_error hstep, Scanned.toFed, hfail]

/-! ### One call -/

/-- A scanner within its bounds has the error of its lexer. -/
theorem error?_toLexer (ht : Bounded t) : t.toLexer.error? = t.error? := by
  have h := ht.error
  cases hp : t.place with
  | dead =>
    rw [hp] at h
    obtain ⟨e, he⟩ := Option.ne_none_iff_exists'.1 (mt h.1 (absurd rfl))
    simp only [Lexer.error?, toLexer, phase, hp, he, Option.getD_some]
  | _ => simp_all [Lexer.error?, toLexer, phase]

/-- A scan begins in its input. -/
theorem inRange_begin (ht : Bounded t) (hsize : KnowsSize taken t.toLexer.phase) (s : σ)
    (data : Octets) : (t.begin s).InRange taken data where
  bounded := ht
  place_le := Nat.zero_le _
  mark_le start h := by
    obtain ⟨-, -, rfl⟩ := Option.map_eq_some_iff.1 h
    exact Nat.le_refl 0
  isSome_mark := Option.isSome_map
  size := by
    rw [begin, List.take_zero, List.append_nil]
    exact hsize

/-- **A scan of all the input** comes to a run of the lexer. -/
theorem exists_scan (ht : Bounded t) (hsize : KnowsSize taken t.toLexer.phase)
    (handle : σ → Event → σ × Flow) (s : σ) (hlength : data.length < 2 ^ 64) :
    ∃ r, Loop.within (round handle data) (data.length + 1) (t.begin s) = some r ∧
      Bounded r.scanner ∧ KnowsSize (taken ++ data.take r.consumed) r.scanner.toLexer.phase ∧
        r.toFed = Lexer.run handle t.toLexer s [] 0 data := by
  have hmoves (c : Scan part σ) (hc : c.InRange taken data) : c.Moves handle taken data :=
    moves_of_inRange hlength hc
  obtain ⟨r, hr, hbounded, hsize, hfed⟩ := Loop.exists_within hmoves (t.begin s)
    (inRange_begin ht hsize s data) (Nat.lt_succ_of_le (Nat.sub_le data.length 0))
  have hopened : (t.begin s).opened data = [] := by
    cases hspan : t.place.span? with
    | none => exact Scan.opened_of_none (by rw [begin, hspan]; rfl)
    | some span => exact Scan.opened_of_some (c := t.begin s) (by rw [begin, hspan]; rfl)
  rw [hopened] at hfed
  exact ⟨r, hr, hbounded, hsize, hfed⟩

/-- **A call has a result**, and it is what the lexer makes of the input. -/
theorem exists_execute? (ht : Bounded t) (hsize : KnowsSize taken t.toLexer.phase)
    (handle : σ → Event → σ × Flow) (s : σ) (hlength : data.length < 2 ^ 64) :
    ∃ r, execute? handle t s data = some r ∧ Bounded r.scanner ∧
      KnowsSize (taken ++ data.take r.consumed) r.scanner.toLexer.phase ∧
        r.toFed = Lexer.feed handle t.toLexer s data := by
  have hpaused : t.toLexer.paused = t.paused := rfl
  have hnothing : KnowsSize (taken ++ data.take 0) t.toLexer.phase := by
    rw [List.take_zero, List.append_nil]
    exact hsize
  rw [execute?, Lexer.feed, error?_toLexer ht, hpaused]
  cases t.error?.isSome || t.paused with
  | true => exact ⟨⟨t, s, 0⟩, rfl, ht, hnothing, rfl⟩
  | false =>
    rw [Bool.false_or, if_neg Bool.false_ne_true]
    cases data with
    | nil => exact ⟨⟨t, s, 0⟩, rfl, ht, hnothing, Lexer.run_nil_nil.symm⟩
    | cons b rest => exact exists_scan ht hsize handle s hlength

end HttpFraming.Scanner
