import HttpFraming.Proofs.Lexer.Config

/-!
# A run over two pieces of input

A lexer reports the open part where the input ends, so a cut of the input inside a part changes what
its handler is told: two pieces of the part where there was one. `Lexer.Gathers` is what a handler
has to satisfy for this not to matter, and the two theorems here say in which sense it does not.

* `alike_run_append`: if the first piece is read to its end, then to go on with the second is to
  read both at once.
* `run_append_of_isFinal`: if the run over the first piece comes to an end in it, then the run over
  both pieces is the same run, unless a part was refused when it was reported at the cut. In that
  case the run over both refuses the part later, or meets an octet against the grammar first.

So the finer cut may refuse a part earlier. It never reads on where the coarser cut does not.

## What each rests on

Both take the run over the first piece apart by `Config.run_cases`: it goes through the piece, or
stops inside it, and what stops inside it does not see the cut at all. If it goes through the piece,
then `Spent` names what becomes of the open part at the cut: there is none, it is taken, or it is
refused. Only the last two need an induction over the second piece, and each has one.

* **Taken** (`alike_run_collect`): as long as the part goes on, one run holds all of it open and the
  other what came behind the cut. Where it ends, `collect_append` says that both take it or both
  refuse it. After that the runs are equal.
* **Refused** (`doomed_run`): a part that is refused at the cut cannot be taken when it has grown.
  But the run without the cut comes to know it only where the part ends, and the octets up to there
  may break the grammar.

## Equal, or alike

A state that is given up may have collected more or less of its last part, which nobody looks at. So
runs that fail are compared by what `view` shows of them, and runs that do not fail are equal
(`Alike`).
-/

namespace HttpFraming.Lexer

variable {part : MessagePart} {σ ε ν : Type}

/-- A handler that gathers the parts. It takes a piece by `collect`, or refuses it by `refuse` and
aborts; two pieces of a part come to the same as both in one. What `view` shows of a state changes
with the data in chunks only, and when a piece is refused. -/
structure Gathers (handle : σ → Event → σ × Flow) (collect : σ → Span → Octets → Except ε σ)
    (refuse : σ → ε → σ) (view : σ → ν) : Prop where
  handle_piece : ∀ s span piece, handle s (.piece span piece) =
    match collect s span piece with
    | .ok s' => (s', .proceed)
    | .error e => (refuse s e, .abort)
  collect_append : ∀ s span a b,
    collect s span (a ++ b) = (collect s span a).bind fun s' ↦ collect s' span b
  collect_chunkData : ∀ s piece e, collect s .chunkData piece ≠ .error e
  view_collect : ∀ {s s' span piece}, span ≠ .chunkData → collect s span piece = .ok s' →
    view s' = view s
  view_refuse : ∀ {s s'} e, view s' = view s → view (refuse s' e) = view (refuse s e)

/-- Two runs come to the same: they differ at most in what a state that is given up has collected of
its last part. -/
structure Alike (view : σ → ν) (r r' : Fed part σ) : Prop where
  lexer : r.lexer = r'.lexer
  consumed : r.consumed = r'.consumed
  view : view r.state = view r'.state
  state : r.lexer.error? = none → r.state = r'.state

namespace Alike

variable {view : σ → ν}

theorem refl (r : Fed part σ) : Alike view r r :=
  ⟨rfl, rfl, rfl, fun _ ↦ rfl⟩

theorem of_fail (l : Lexer part) (e : SyntaxError) (n : Nat) {s s' : σ} (h : view s = view s') :
    Alike view ⟨l.fail e, s, n⟩ ⟨l.fail e, s', n⟩ :=
  ⟨rfl, rfl, h, fun h ↦ by cases h⟩

end Alike

variable {handle : σ → Event → σ × Flow} {collect : σ → Span → Octets → Except ε σ}
  {refuse : σ → ε → σ} {view : σ → ν} {l : Lexer part} {s s' : σ} {span : Span} {piece : Octets}

namespace Gathers

variable (G : Gathers handle collect refuse view)
include G

theorem handle_of_ok (h : collect s span piece = .ok s') :
    handle s (.piece span piece) = (s', .proceed) := by
  rw [G.handle_piece, h]

theorem handle_of_error {e : ε} (h : collect s span piece = .error e) :
    handle s (.piece span piece) = (refuse s e, .abort) := by
  rw [G.handle_piece, h]

/-- Behind a piece that is collected, the rest of the part is collected. -/
theorem collect_append_of_ok (h : collect s span piece = .ok s') (b : Octets) :
    collect s span (piece ++ b) = collect s' span b := by
  rw [G.collect_append, h]
  rfl

/-- A part is refused if a beginning of it is. -/
theorem collect_append_of_error {e : ε} (h : collect s span piece = .error e) (b : Octets) :
    collect s span (piece ++ b) = .error e := by
  rw [G.collect_append, h]
  rfl

/-- A part that is refused in its second piece is refused alike when it is told at once. -/
theorem view_refuse_of_collect {e : ε} {b : Octets} (h : collect s span piece = .ok s')
    (he : collect s' span b = .error e) : view (refuse s e) = view (refuse s' e) := by
  have hspan : span ≠ .chunkData := by
    rintro rfl
    exact G.collect_chunkData s' b e he
  exact (G.view_refuse e (G.view_collect hspan h)).symm

theorem told?_eq_some_iff :
    told? handle s span piece = some s' ↔ collect s span piece = .ok s' := by
  rcases h : collect s span piece with e | s''
  · simp [told?, G.handle_of_error h]
  · simp [told?, G.handle_of_ok h]

/-- What a collected piece keeps of a state, a run keeps. -/
theorem state_of_after? {P : σ → Prop}
    (hP : ∀ {s s' span piece}, collect s span piece = .ok s' → P s → P s')
    {c c' : Config part σ} {data : Octets} (h : c.after? handle data = some c') (hc : P c.state) :
    P c'.state := by
  refine Config.after?_induction (P := fun c ↦ P c.state) (fun h hs ↦ ?_) h hc
  obtain ⟨effect, -, heffect⟩ := Config.exists_step_of_advance? h
  cases effect with
  | skip | extend => exact heffect.1 ▸ hs
  | complete _ | close _ => exact hP (G.told?_eq_some_iff.1 heffect.1) hs
  | endHead | endBody => exact heffect.elim

end Gathers

/-! ### The open part -/

/-- **A part that is reported at a cut.** Having told `handle` a piece of the open part, a run over
what follows comes to the same as one that still has the piece to tell. -/
theorem alike_run_collect (G : Gathers handle collect refuse view) (hpiece : piece ≠ [])
    (hcollect : collect s span piece.reverse = .ok s') (b : Octets) :
    ∀ {l : Lexer part} (opened : Octets) (n : Nat), l.phase.span? = some span →
      Alike view (run handle l s (opened ++ piece) n b) (run handle l s' opened n b) := by
  -- What is told where the part ends comes to the same, however much of it was told at the cut.
  have hopened (opened : Octets) :
      collect s span (opened ++ piece).reverse = collect s' span opened.reverse := by
    rw [List.reverse_append, G.collect_append_of_ok hcollect]
  induction b with
  | nil =>
    intro l opened n hspan
    rw [run_nil_of_span? hspan (by simp [hpiece])]
    by_cases hne : opened = []
    · subst hne
      rw [run_nil_nil, List.nil_append, G.handle_of_ok hcollect]
      exact Alike.refl _
    · rw [run_nil_of_span? hspan hne]
      rcases hc : collect s' span opened.reverse with e | s''
      · rw [G.handle_of_error ((hopened opened).trans hc), G.handle_of_error hc]
        exact Alike.of_fail _ _ _ (G.view_refuse_of_collect hcollect hc)
      · rw [G.handle_of_ok ((hopened opened).trans hc), G.handle_of_ok hc]
        exact Alike.refl _
  | cons c b ih =>
    intro l opened n hspan
    rcases step_of_span? c hspan with ⟨hdata, e, hstep⟩ | ⟨l', hstep, hspan'⟩ | ⟨l', hstep⟩ |
      ⟨l', hstep⟩
    · rw [run_cons_error hstep, run_cons_error hstep]
      exact Alike.of_fail _ _ _ (G.view_collect hdata hcollect).symm
    · rw [run_cons_extend hstep, run_cons_extend hstep]
      exact ih (c :: opened) (n + 1) hspan'
    · rcases hc : collect s' span opened.reverse with e | s''
      · rw [run_cons_close_of_abort hstep (G.handle_of_error ((hopened opened).trans hc)),
          run_cons_close_of_abort hstep (G.handle_of_error hc)]
        exact Alike.of_fail _ _ _ (G.view_refuse_of_collect hcollect hc)
      · rw [run_cons_close hstep (G.handle_of_ok ((hopened opened).trans hc)),
          run_cons_close hstep (G.handle_of_ok hc)]
        exact Alike.refl _
    · have hcons := hopened (c :: opened)
      rw [List.cons_append] at hcons
      rcases hc : collect s' span (c :: opened).reverse with e | s''
      · rw [run_cons_complete_of_abort hstep (G.handle_of_error (hcons.trans hc)),
          run_cons_complete_of_abort hstep (G.handle_of_error hc)]
        exact Alike.of_fail _ _ _ (G.view_refuse_of_collect hcollect hc)
      · rw [run_cons_complete hstep (G.handle_of_ok (hcons.trans hc)),
          run_cons_complete hstep (G.handle_of_ok hc)]
        exact Alike.refl _

/-- How a run fails that has yet to tell a piece that will be refused: it refuses the part where the
part ends, or meets an octet against the grammar before. -/
inductive Doomed (refuse : σ → ε → σ) (s : σ) (e : ε) : Fed part σ → Prop
  | refused (l : Lexer part) (n : Nat) : Doomed refuse s e ⟨l.fail .aborted, refuse s e, n⟩
  | rejected (l : Lexer part) (cause : SyntaxError) (n : Nat) :
    Doomed refuse s e ⟨l.fail cause, s, n⟩

/-- **A part that is refused at a cut** is refused without the cut too, unless the grammar is broken
first. -/
theorem doomed_run (G : Gathers handle collect refuse view) {e : ε} (b : Octets) :
    ∀ {l : Lexer part} {opened : Octets} (n : Nat), l.phase.span? = some span → opened ≠ [] →
      collect s span opened.reverse = .error e →
        Doomed refuse s e (run handle l s opened n b) := by
  induction b with
  | nil =>
    intro l opened n hspan hne hcollect
    rw [run_nil_of_span? hspan hne, G.handle_of_error hcollect]
    exact .refused l n
  | cons c b ih =>
    intro l opened n hspan hne hcollect
    have hcons : collect s span (c :: opened).reverse = .error e := by
      rw [List.reverse_cons, G.collect_append_of_error hcollect]
    rcases step_of_span? c hspan with ⟨-, cause, hstep⟩ | ⟨l', hstep, hspan'⟩ | ⟨l', hstep⟩ |
      ⟨l', hstep⟩
    · rw [run_cons_error hstep]
      exact .rejected l cause n
    · rw [run_cons_extend hstep]
      exact ih (n + 1) hspan' (List.cons_ne_nil c opened) hcons
    · rw [run_cons_close_of_abort hstep (G.handle_of_error hcollect)]
      exact .refused l' (n + 1)
    · rw [run_cons_complete_of_abort hstep (G.handle_of_error hcons)]
      exact .refused l' (n + 1)

/-! ### Where a run stops -/

/-- What comes of a lexer that has reached the last line feed of a head, after `n` octets. -/
def atHeadEnd (handle : σ → Event → σ × Flow) (l : Lexer part) (s : σ) (n : Nat) : Fed part σ :=
  match handle s (.headEnd l.startLine) with
  | (s', .abort) => ⟨l.fail .aborted, s', n⟩
  | (s', _) => ⟨l.pause, s', n⟩

/-- What comes of a lexer that has read the last line feed of a body, after `n` octets. -/
def atBodyEnd (handle : σ → Event → σ × Flow) (l : Lexer part) (s : σ) (n : Nat) : Fed part σ :=
  ⟨l.obey (handle s .bodyEnd).2, (handle s .bodyEnd).1, n⟩

/-- What comes of a configuration when its input ends, after `n` octets. -/
inductive Spent (collect : σ → Span → Octets → Except ε σ) (refuse : σ → ε → σ) (c : Config part σ)
    (n : Nat) : Fed part σ → Prop
  /-- No part is open. -/
  | closed : c.opened = [] → Spent collect refuse c n ⟨c.lexer, c.state, n⟩
  /-- What is open of a part is taken. -/
  | taken {span : Span} {s' : σ} : c.lexer.phase.span? = some span → c.opened ≠ [] →
    collect c.state span c.opened.reverse = .ok s' → Spent collect refuse c n ⟨c.lexer, s', n⟩
  /-- What is open of a part is refused. -/
  | refused {span : Span} {e : ε} : c.lexer.phase.span? = some span → c.opened ≠ [] →
    collect c.state span c.opened.reverse = .error e →
      Spent collect refuse c n ⟨c.lexer.fail .aborted, refuse c.state e, n⟩

/-- What comes of an octet that stops a run, after `n` octets before it. -/
inductive Halt (handle : σ → Event → σ × Flow) (collect : σ → Span → Octets → Except ε σ)
    (refuse : σ → ε → σ) (l : Lexer part) (s : σ) (b : UInt8) (n : Nat) : Fed part σ → Prop
  /-- The octet breaks the grammar. -/
  | rejected {cause : SyntaxError} : l.step b = .error cause →
    Halt handle collect refuse l s b n ⟨l.fail cause, s, n⟩
  /-- A part ends at the octet and is refused. -/
  | refused {l' : Lexer part} {span : Span} {piece : Octets} {e : ε} :
    collect s span piece = .error e →
      Halt handle collect refuse l s b n ⟨l'.fail .aborted, refuse s e, n + 1⟩
  | headEnd {l' : Lexer part} : l.step b = .ok (l', .endHead) →
    Halt handle collect refuse l s b n (atHeadEnd handle l' s n)
  | bodyEnd {l' : Lexer part} : l.step b = .ok (l', .endBody) →
    Halt handle collect refuse l s b n (atBodyEnd handle l' s (n + 1))

namespace Config

variable {c c' : Config part σ} {b : UInt8} {n : Nat} {a : Octets}

/-- **A run that nothing stops** ends with the open part told. -/
theorem spent_of_after? {data : Octets} (G : Gathers handle collect refuse view) (hc : Coherent c)
    (h : c.after? handle data = some c') (n : Nat) :
    Spent collect refuse c' (n + data.length) (c.run handle n data) := by
  have hcoherent := hc.after? h
  rw [run_of_after? h]
  obtain ⟨l, s, opened⟩ := c'
  by_cases hopened : opened = []
  · subst hopened
    rw [run, run_nil_nil]
    exact .closed rfl
  · obtain ⟨span, hspan⟩ := hcoherent.2.resolve_left hopened
    rw [run, run_nil_of_span? hspan hopened]
    rcases hcollect : collect s span opened.reverse with e | s'
    · rw [G.handle_of_error hcollect]
      exact .refused hspan hopened hcollect
    · rw [G.handle_of_ok hcollect]
      exact .taken hspan hopened hcollect

/-- **A run that an octet stops** fails there, or has come to the end of the message. -/
theorem halt_of_advance?_none (G : Gathers handle collect refuse view)
    (h : c.advance? handle b = none) :
    Halt handle collect refuse c.lexer c.state b n (c.run handle n [b]) := by
  obtain ⟨l, s, opened⟩ := c
  rcases hstep : l.step b with cause | ⟨l', effect⟩
  · rw [run, run_cons_error hstep]
    exact .rejected hstep
  · cases effect with
    | skip =>
      rw [advance?_skip hstep] at h
      cases h
    | extend =>
      rw [advance?_extend hstep] at h
      cases h
    | complete span =>
      rw [advance?_complete hstep, Option.map_eq_none_iff] at h
      rcases hcollect : collect s span (b :: opened).reverse with e | s'
      · rw [run, run_cons_complete_of_abort hstep (G.handle_of_error hcollect)]
        exact .refused hcollect
      · rw [told?, G.handle_of_ok hcollect] at h
        cases h
    | close span =>
      rw [advance?_close hstep, Option.map_eq_none_iff] at h
      rcases hcollect : collect s span opened.reverse with e | s'
      · rw [run, run_cons_close_of_abort hstep (G.handle_of_error hcollect)]
        exact .refused hcollect
      · rw [told?, G.handle_of_ok hcollect] at h
        cases h
    | endHead =>
      have hrun : run handle ⟨l, s, opened⟩ n [b] = atHeadEnd handle l' s n := by
        rw [run, Lexer.run, hstep]
        rfl
      rw [hrun]
      exact .headEnd hstep
    | endBody =>
      have hrun : run handle ⟨l, s, opened⟩ n [b] = atBodyEnd handle l' s (n + 1) := by
        rw [run, Lexer.run, hstep]
        rfl
      rw [hrun]
      exact .bodyEnd hstep

/-- A run that stops at an octet leaves the lexer in a final phase. -/
theorem isFinal_of_halt {l : Lexer part} {s : σ} {r : Fed part σ}
    (h : Halt handle collect refuse l s b n r) : r.lexer.phase.isFinal = true := by
  cases h with
  | rejected => rfl
  | refused => rfl
  | headEnd hstep =>
    obtain ⟨-, -, hphase, -⟩ := ties_of_step hstep
    unfold atHeadEnd
    split
    · rfl
    · exact congrArg Phase.isFinal hphase
  | bodyEnd hstep =>
    obtain ⟨-, -, hphase, -⟩ := ties_of_step hstep
    unfold atBodyEnd obey
    split
    · exact congrArg Phase.isFinal hphase
    · exact congrArg Phase.isFinal hphase
    · rfl

/-! ### Two pieces -/

/-- **To go on with a second piece is to read both at once.** -/
theorem alike_run_append (G : Gathers handle collect refuse view) (hc : Coherent c)
    (h : (c.run handle n a).lexer.phase.isFinal = false) (b : Octets) :
    (c.run handle n a).consumed = n + a.length ∧
      Alike view (c.run handle n (a ++ b))
        ((start (c.run handle n a).lexer (c.run handle n a).state).run handle (n + a.length)
          b) := by
  rcases run_cases handle c a with ⟨⟨l, s, opened⟩, hc'⟩ | ⟨before, d, rest, c', rfl, hc', hd⟩
  · have hspent := spent_of_after? G hc hc' n
    rw [run_append_of_after? hc']
    generalize c.run handle n a = r at h hspent ⊢
    cases hspent with
    | closed hopened =>
      obtain rfl : opened = [] := hopened
      exact ⟨rfl, Alike.refl _⟩
    | taken hspan hopened hcollect =>
      exact ⟨rfl, alike_run_collect G hopened hcollect b [] _ hspan⟩
    | refused => cases h
  · rw [run_append_of_after? hc', run_cons_of_advance?_none hd] at h
    rw [isFinal_of_halt (halt_of_advance?_none G hd)] at h
    cases h

/-- **A run that ends in the first piece ends so in both**, unless it ended at the cut. -/
theorem run_append_of_isFinal (G : Gathers handle collect refuse view) (hc : Coherent c)
    (h : (c.run handle n a).lexer.phase.isFinal = true) (b : Octets) :
    c.run handle n (a ++ b) = c.run handle n a ∨
      ∃ c' e, c.after? handle a = some c' ∧
        (∃ span piece, collect c'.state span piece = .error e) ∧
        c.run handle n a = ⟨c'.lexer.fail .aborted, refuse c'.state e, n + a.length⟩ ∧
        Doomed refuse c'.state e (c.run handle n (a ++ b)) := by
  rcases run_cases handle c a with ⟨c', hc'⟩ | ⟨before, d, rest, c', rfl, hc', hd⟩
  · have hcoherent := hc.after? hc'
    have hspent := spent_of_after? G hc hc' n
    rw [run_append_of_after? hc']
    generalize c.run handle n a = r at h hspent ⊢
    cases hspent with
    | closed | taken => exact absurd (hcoherent.1.symm.trans h) Bool.false_ne_true
    | refused hspan hopened hcollect =>
      -- The cut is inside the part that is refused, which has not ended in the first piece.
      exact .inr ⟨c', _, hc', ⟨_, _, hcollect⟩, rfl, doomed_run G b _ hspan hopened hcollect⟩
  · refine .inl ?_
    have hstop (rest : Octets) : c.run handle n (before ++ d :: rest) =
        c'.run handle (n + before.length) [d] := by
      rw [run_append_of_after? hc', run_cons_of_advance?_none hd]
    rw [List.append_assoc, List.cons_append, hstop, hstop]

end Config

end HttpFraming.Lexer
