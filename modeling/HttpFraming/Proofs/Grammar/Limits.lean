import HttpFraming.Proofs.Grammar.Unambiguous

/-!
# Limits are filters

Of the heads that can be read under limits that the input cannot exceed, other limits let through
exactly those that keep within them. They do not change what is read, and what they keep out is
refused for a limit (`HeadParser.filters_of_exceed`).

Limits do not steer the lexer: they are looked at only where a piece is collected, and all they do
is to refuse it. So a run under some limits can be followed octet by octet under others. It is the
same run, up to where a piece is refused (`Lexer.Config.after?_map_of_refines`).

## Two halves

* **What is accepted** follows from the language that is accepted under any limits
  (`RequestParser.accepts_iff_spells`). The head is a spelling that keeps within the limits, and
  both the spelling and whether it does are determined by the octets.
* **What is refused, and why**, does not follow from there, since the language says nothing about
  errors. It needs the comparison of two runs. `Lexer.Refines` is the only thing that is asked of a
  draft: what it takes under some limits, it takes under others, or refuses for a limit.

`ReadsTexts` collects what the first half needs of a language, so that requests and responses are
instances of one argument.

## No order of limits

Nowhere is it assumed that the other limits are smaller. Some may be smaller and others greater, and
a limit may be zero. The two hypotheses of this kind are that the ample limits exceed the length of
the input, and that limits are raised in what is said of raised ones.
-/

namespace HttpFraming

/-- A result is a value, or an error that has the property `P`. -/
def IsOkOr {ε α : Type} (P : ε → Prop) (x : Except ε α) (a : α) : Prop :=
  x = .ok a ∨ ∃ e, x = .error e ∧ P e

namespace IsOkOr

variable {ε α β : Type} {P : ε → Prop} {x : Except ε α} {a : α}

/-- What is done with a result does not change the reasons for an error. -/
theorem map (h : IsOkOr P x a) (f : α → β) : IsOkOr P (x.map f) (f a) := by
  rcases h with rfl | ⟨e, rfl, he⟩
  · exact .inl rfl
  · exact .inr ⟨e, rfl, he⟩

/-- A check in front of a result can only turn it into an error. -/
theorem ite {c : Prop} [Decidable c] {e : ε} (he : P e) (h : IsOkOr P x a) :
    IsOkOr P (if c then .error e else x) a := by
  by_cases hc : c
  · exact .inr ⟨e, if_pos hc, he⟩
  · rwa [if_neg hc]

end IsOkOr

/-! ### Runs that may be refused more -/

namespace Lexer

variable {part : MessagePart} {σ ε ν : Type} {handle : σ → Event → σ × Flow}
  {collect : σ → Span → Octets → Except ε σ} {refuse : σ → ε → σ} {view : σ → ν} {f : σ → σ}
  {P : ε → Prop}

/-- Where a piece is taken in a state, it is also taken in the state that `f` makes of it, and the
same comes of it, or it is refused there for a reason that has the property `P`. -/
def Refines (collect : σ → Span → Octets → Except ε σ) (f : σ → σ) (P : ε → Prop) : Prop :=
  ∀ {s s' span piece}, collect s span piece = .ok s' →
    IsOkOr P (collect (f s) span piece) (f s')

/-- A handler that goes on after a piece does so under `f` too, or aborts for such a reason. -/
theorem Gathers.told?_of_refines (G : Gathers handle collect refuse view)
    (hf : Refines collect f P) {s s' : σ} {span : Span} {piece : Octets}
    (h : told? handle s span piece = some s') :
    told? handle (f s) span piece = some (f s') ∨
      ∃ e, handle (f s) (.piece span piece) = (refuse (f s) e, .abort) ∧ P e := by
  rcases hf (G.told?_eq_some_iff.1 h) with hcollect | ⟨e, hcollect, he⟩
  · exact .inl (G.told?_eq_some_iff.2 hcollect)
  · exact .inr ⟨e, G.handle_of_error hcollect, he⟩

/-- A run has stopped because a piece was refused for a reason that has the property `P`. -/
inductive Refused (refuse : σ → ε → σ) (P : ε → Prop) : Fed part σ → Prop
  | mk (l : Lexer part) (s : σ) {e : ε} (n : Nat) (reason : P e) :
    Refused refuse P ⟨l.fail .aborted, refuse s e, n⟩

namespace Config

variable {c c' : Config part σ} {b : UInt8} {data : Octets}

/-- A configuration with the state that `f` makes of its own. -/
def map (f : σ → σ) (c : Config part σ) : Config part σ :=
  ⟨c.lexer, f c.state, c.opened⟩

/-- **One octet** leads to the same configuration, or the run is refused there. -/
theorem advance?_map_of_refines (G : Gathers handle collect refuse view)
    (hf : Refines collect f P) (h : c.advance? handle b = some c') :
    (c.map f).advance? handle b = some (c'.map f) ∨
      ∀ n rest, Refused refuse P ((c.map f).run handle n (b :: rest)) := by
  obtain ⟨effect, hstep, heffect⟩ := exists_step_of_advance? h
  obtain ⟨l, s, opened⟩ := c
  obtain ⟨l', s', opened'⟩ := c'
  cases effect with
  | skip =>
    obtain ⟨hs, hopened⟩ := heffect
    obtain rfl : s' = s := hs
    obtain rfl : opened' = [] := hopened
    exact .inl (advance?_skip hstep)
  | extend =>
    obtain ⟨hs, hopened⟩ := heffect
    obtain rfl : s' = s := hs
    obtain rfl : opened' = b :: opened := hopened
    exact .inl (advance?_extend hstep)
  | complete span =>
    obtain ⟨htold, rfl⟩ := heffect
    rcases G.told?_of_refines hf htold with htold' | ⟨e, hrefuse, he⟩
    · refine .inl ((advance?_complete hstep).trans ?_)
      rw [htold']
      rfl
    · refine .inr fun n rest ↦ ?_
      rw [map, run, run_cons_complete_of_abort hstep hrefuse]
      exact .mk l' (f s) (n + 1) he
  | close span =>
    obtain ⟨htold, rfl⟩ := heffect
    rcases G.told?_of_refines hf htold with htold' | ⟨e, hrefuse, he⟩
    · refine .inl ((advance?_close hstep).trans ?_)
      rw [htold']
      rfl
    · refine .inr fun n rest ↦ ?_
      rw [map, run, run_cons_close_of_abort hstep hrefuse]
      exact .mk l' (f s) (n + 1) he
  | endHead | endBody => exact heffect.elim

/-- **A run that may be refused more is the same run, or it is refused**, whatever is still to
come. -/
theorem after?_map_of_refines (G : Gathers handle collect refuse view) (hf : Refines collect f P)
    (h : c.after? handle data = some c') :
    (c.map f).after? handle data = some (c'.map f) ∨
      ∀ n rest, Refused refuse P ((c.map f).run handle n (data ++ rest)) := by
  induction data generalizing c with
  | nil =>
    obtain rfl : c = c' := Option.some.inj h
    exact .inl rfl
  | cons b data ih =>
    rw [after?_cons] at h
    obtain ⟨c₁, hb, hdata⟩ := Option.bind_eq_some_iff.1 h
    rcases advance?_map_of_refines G hf hb with hb' | hrefused
    -- The octet is passed, and what holds after it holds here, with one octet more consumed.
    · rcases ih hdata with hdata' | hrefused
      · refine .inl ?_
        rw [after?_cons, hb']
        exact hdata'
      · refine .inr fun n rest ↦ ?_
        rw [List.cons_append, run_cons_of_advance? hb']
        exact hrefused (n + 1) rest
    -- The run stops here, so that neither the other octets nor the rest matter.
    · exact .inr fun n rest ↦ hrefused n (data ++ rest)

end Config

end Lexer

/-! ### Heads under other limits -/

/-- Limits that are raised, some of them or none. -/
structure Limits.Le (limits raised : Limits) : Prop where
  target : limits.target ≤ raised.target
  reason : limits.reason ≤ raised.reason
  header : limits.header ≤ raised.header
  headerCount : limits.headerCount ≤ raised.headerCount

/-- Limits that exceed a length exceed a smaller one. -/
theorem Limits.Exceed.of_le {limits : Limits} {m n : Nat} (h : limits.Exceed n) (hle : m ≤ n) :
    limits.Exceed m where
  target := Nat.lt_of_le_of_lt hle h.target
  reason := Nat.lt_of_le_of_lt hle h.reason
  header := Nat.lt_of_le_of_lt hle h.header
  headerCount := Nat.lt_of_le_of_lt hle h.headerCount

/-- A request keeps within limits that are raised. -/
theorem RequestText.Fits.of_le {r : RequestText} {limits raised : Limits} (h : r.Fits limits)
    (hle : limits.Le raised) : r.Fits raised where
  target := Nat.le_trans h.target hle.target
  count := Nat.le_trans h.count hle.headerCount
  size l hl := Nat.le_trans (h.size l hl) hle.header

/-- A response keeps within limits that are raised. -/
theorem ResponseText.Fits.of_le {r : ResponseText} {limits raised : Limits} (h : r.Fits limits)
    (hle : limits.Le raised) : r.Fits raised where
  reason := Nat.le_trans h.reason hle.reason
  count := Nat.le_trans h.count hle.headerCount
  size l hl := Nat.le_trans (h.size l hl) hle.header

namespace FieldCollector

variable {limits : Limits} {c c' : FieldCollector} {piece : Octets}

/-- A piece of a name that is taken under some limits is refused under others for a limit only. -/
theorem addName_of_limits (h : c.addName limits piece = .ok c') (other : Limits) :
    IsOkOr (fun e ↦ e.isLimitExceeded = true) (c.addName other piece) c' := by
  rw [addName] at h ⊢
  rcases hflush : c.flush with e | c₀
  · rw [hflush] at h
    cases h
  rw [hflush] at h
  simp only at h ⊢
  split at h
  · cases h
  split at h
  · cases h
  exact .ite rfl (.ite rfl (.inl h))

/-- A piece of a value that is taken under some limits is refused under others for a limit only. -/
theorem addValue_of_limits (h : c.addValue limits piece = .ok c') (other : Limits) :
    IsOkOr (fun e ↦ e.isLimitExceeded = true) (c.addValue other piece) c' := by
  rw [addValue] at h ⊢
  split at h
  · cases h
  exact .ite rfl (.inl h)

end FieldCollector

namespace HeadDraft

variable {H : Type}

/-- A draft of the same head under other limits. -/
def withLimits (limits : Limits) (d : HeadDraft H) : HeadDraft H :=
  { d with limits := limits }

/-- Other limits refuse a piece for a limit only. -/
theorem refines_withLimits (limits : Limits) :
    Lexer.Refines collect (withLimits (H := H) limits) fun e ↦ e.isLimitExceeded = true := by
  intro d d' span piece h
  cases span with
  | method | chunkData =>
    cases h
    exact .inl rfl
  | target | reason =>
    simp only [collect] at h
    split at h <;> cases h
    exact .ite rfl (.inl rfl)
  | fieldName =>
    obtain ⟨fields, hfields, rfl⟩ := map_eq_ok_iff.1 h
    exact (FieldCollector.addName_of_limits hfields limits).map _
  | fieldValue =>
    obtain ⟨fields, hfields, rfl⟩ := map_eq_ok_iff.1 h
    exact (FieldCollector.addValue_of_limits hfields limits).map _

end HeadDraft

namespace HeadParser

variable {H : Type} [ReadableHead H] {ample limits : Limits} {data : Octets} {head : H} {n : Nat}

/-- **What other limits make of a head that is accepted**: they accept it too, or refuse it for a
limit. -/
theorem outcome_of_limits (hpart : ReadableHead.part H ≠ .chunkedBody)
    (h : (new ample).outcome data = (.accepted head, n)) (limits : Limits) :
    (new limits).outcome data = (.accepted head, n) ∨
      ∃ e m, (new limits : HeadParser H).outcome data = (.refused e, m) ∧
        e.isLimitExceeded = true := by
  obtain ⟨x, y, rfl, rfl⟩ := exists_split_of_outcome h
  obtain ⟨z, _, _, rfl, ⟨c, hc, hphase, rfl, rfl⟩, hassemble⟩ :=
    (outcome_eq_accepted_iff (live_new ample) hpart).1 h
  rcases Lexer.Config.after?_map_of_refines HeadDraft.gathers_handle
    (HeadDraft.refines_withLimits limits) hc with hc' | hrefused
  · exact .inl ((outcome_eq_accepted_iff (live_new limits) hpart).2
      ⟨z, _, _, rfl, ⟨_, hc', hphase, rfl, rfl⟩, hassemble⟩)
  · refine .inr ?_
    have hrun : Lexer.Refused HeadDraft.refuse (fun e ↦ e.isLimitExceeded = true)
        ((new limits : HeadParser H).run (z ++ [0x0A] ++ y)) := by
      rw [List.append_assoc]
      exact hrefused 0 ([0x0A] ++ y)
    rw [outcome_eq (live_new limits) hpart]
    generalize (new limits : HeadParser H).run (z ++ [0x0A] ++ y) = r at hrun
    cases hrun with
    | mk l s m he => exact ⟨_, m, rfl, he⟩

/-! ### Filters -/

variable {T : Type} {Spells : T → Octets → Prop} {Fits : T → Limits → Prop} {head? : T → Option H}

/-- The texts that a parser of heads reads, with the limits within which it reads them. -/
structure ReadsTexts (H : Type) {T : Type} [ReadableHead H] (Spells : T → Octets → Prop)
    (Fits : T → Limits → Prop) (head? : T → Option H) : Prop where
  part : ReadableHead.part H ≠ .chunkedBody
  accepts_iff : ∀ {limits x y head},
    (new limits : HeadParser H).outcome (x ++ y) = (.accepted head, x.length) ↔
      ∃ t, Spells t x ∧ Fits t limits ∧ head? t = some head
  unique : ∀ {t t' x}, Spells t x → Spells t' x → t = t'
  fits : ∀ {t x limits}, Spells t x → limits.Exceed x.length → Fits t limits
  raise : ∀ {t limits raised}, Fits t limits → limits.Le raised → Fits t raised

/-- Limits are a filter on the heads that could be read at the beginning of some octets, which are
those that are read under limits that are ample. -/
structure Filters (H : Type) {T : Type} [ReadableHead H] (Spells : T → Octets → Prop)
    (Fits : T → Limits → Prop) (limits ample : Limits) (data : Octets) : Prop where
  /-- Those heads are accepted that keep within the limits, and they are read alike: the head is the
  same, and so are the octets consumed. -/
  accepts_iff (head : H) (n : Nat) : Accepts limits data head n ↔
    Accepts ample data head n ∧ ∃ t, Spells t (data.take n) ∧ Fits t limits
  /-- What was consumed is one text only, so that it keeps within the limits or not. -/
  unique {t t' : T} {n : Nat} : Spells t (data.take n) → Spells t' (data.take n) → t = t'
  /-- All other heads are refused for a limit. -/
  refuses {head : H} {n : Nat} : Accepts ample data head n → ¬ Accepts limits data head n →
    ((new limits : HeadParser H).parse data).1.done = true ∧
      ∃ e, ((new limits : HeadParser H).parse data).1.error? = some e ∧ e.isLimitExceeded = true
  /-- To raise a limit changes nothing for the heads that are accepted. -/
  raise {raised : Limits} {head : H} {n : Nat} : limits.Le raised → Accepts limits data head n →
    Accepts raised data head n

/-- **Limits are filters** on the texts that a parser reads. -/
theorem ReadsTexts.filters (R : ReadsTexts H Spells Fits head?) (limits : Limits)
    (hample : ample.Exceed data.length) : Filters H Spells Fits limits ample data where
  accepts_iff head n := by
    simp only [accepts_iff_outcome]
    constructor
    · intro h
      obtain ⟨x, y, rfl, rfl⟩ := exists_split_of_outcome h
      obtain ⟨t, hspells, hfits, hhead⟩ := R.accepts_iff.1 h
      have hx : ample.Exceed x.length := hample.of_le (by simp)
      rw [List.take_left]
      exact ⟨R.accepts_iff.2 ⟨t, hspells, R.fits hspells hx, hhead⟩, t, hspells, hfits⟩
    · rintro ⟨h, t, hspells, hfits⟩
      obtain ⟨x, y, rfl, rfl⟩ := exists_split_of_outcome h
      rw [List.take_left] at hspells
      obtain ⟨t', hspells', -, hhead⟩ := R.accepts_iff.1 h
      obtain rfl : t = t' := R.unique hspells hspells'
      exact R.accepts_iff.2 ⟨t, hspells, hfits, hhead⟩
  unique := R.unique
  -- That a head is not accepted says nothing of the error. For this the run has to be followed.
  refuses haccepts hnot := by
    rw [accepts_iff_outcome] at haccepts hnot
    rcases outcome_of_limits R.part haccepts limits with hsame | ⟨e, m, hrefused, he⟩
    · exact absurd hsame hnot
    · obtain ⟨hdone, herror⟩ := of_verdict_refused (Prod.mk.inj hrefused).1
      exact ⟨hdone, e, herror, he⟩
  raise hraised haccepts := by
    rw [accepts_iff_outcome] at haccepts ⊢
    obtain ⟨x, y, rfl, rfl⟩ := exists_split_of_outcome haccepts
    obtain ⟨t, hspells, hfits, hhead⟩ := R.accepts_iff.1 haccepts
    exact R.accepts_iff.2 ⟨t, hspells, R.raise hfits hraised, hhead⟩

/-- Which texts a parser of requests reads. -/
theorem readsTexts_request :
    ReadsTexts Request RequestText.Spells RequestText.Fits RequestText.request? where
  part := by decide
  accepts_iff := RequestParser.accepts_iff_spells
  unique := RequestText.Spells.unique
  fits := RequestText.Spells.fits
  raise := RequestText.Fits.of_le

/-- Which texts a parser of responses reads. -/
theorem readsTexts_response :
    ReadsTexts Response ResponseText.Spells ResponseText.Fits (some ∘ ResponseText.response) where
  part := by decide
  accepts_iff := by
    simp only [Function.comp_apply, Option.some.injEq]
    exact ResponseParser.accepts_iff_spells
  unique := ResponseText.Spells.unique
  fits := ResponseText.Spells.fits
  raise := ResponseText.Fits.of_le

/-- **Limits are filters**, for requests and for responses: what is accepted under some limits is
what is accepted under limits that exceed the length of the input, if the target, or the reason, and
the lines keep within them. -/
theorem filters_of_exceed (limits : Limits) (hample : ample.Exceed data.length) :
    Filters Request RequestText.Spells RequestText.Fits limits ample data ∧
      Filters Response ResponseText.Spells ResponseText.Fits limits ample data :=
  ⟨readsTexts_request.filters limits hample, readsTexts_response.filters limits hample⟩

/-- `G /a`, an empty line and one octet more. A target of two octets is accepted where two are
allowed, and refused for a limit where one is. -/
theorem filters_of_exceed_short :
    Limits.standard.Exceed 7 ∧
      Accepts ⟨2, 0, 0, 0⟩ [0x47, 0x20, 0x2F, 0x61, 0x0A, 0x0A, 0x58]
        (⟨.extension "G", "/a", .http09, .empty⟩ : Request) 6 ∧
      ∃ e, ((new ⟨1, 0, 0, 0⟩ : RequestParser).parse
        [0x47, 0x20, 0x2F, 0x61, 0x0A, 0x0A, 0x58]).1.error? = some e ∧
          e.isLimitExceeded = true := by
  have hample : Limits.standard.Exceed 7 := ⟨by decide, by decide, by decide, by decide⟩
  have hspells : (⟨"G", "/a", .http09, []⟩ : RequestText).Spells
      [0x47, 0x20, 0x2F, 0x61, 0x0A, 0x0A] :=
    .mk (q := ⟨[0x47], [0x2F, 0x61], .http09, []⟩) only_nil (by decide) (by decide) (by decide)
      (by decide) (by decide) .absent .lf .nil .lf
  have haccepts : Accepts .standard [0x47, 0x20, 0x2F, 0x61, 0x0A, 0x0A, 0x58]
      (⟨.extension "G", "/a", .http09, .empty⟩ : Request) 6 :=
    accepts_iff_outcome.2 (RequestParser.accepts_iff_spells (y := [0x58]).2
      ⟨_, hspells, ⟨by decide, by decide, List.forall_mem_nil _⟩, rfl⟩)
  have hfilters (limits : Limits) : Filters Request RequestText.Spells RequestText.Fits limits
      .standard [0x47, 0x20, 0x2F, 0x61, 0x0A, 0x0A, 0x58] :=
    (filters_of_exceed limits hample).1
  refine ⟨hample, ?_, ?_⟩
  · exact ((hfilters _).accepts_iff _ _).2
      ⟨haccepts, _, hspells, ⟨by decide, by decide, List.forall_mem_nil _⟩⟩
  · refine ((hfilters _).refuses haccepts fun h ↦ ?_).2
    obtain ⟨-, r, hr, hfits⟩ := ((hfilters _).accepts_iff _ _).1 h
    obtain rfl := (hfilters ⟨1, 0, 0, 0⟩).unique (n := 6) hr hspells
    exact absurd hfits.target (by decide)

end HeadParser

end HttpFraming
