import HttpFraming.Proofs.Lexer.Step

/-!
# A run as a machine

`Lexer.run` is a recursion that carries along what it stands at: a lexer, the state of its handler,
and the octets of the open part. Here the three are one configuration, and one octet leads from a
configuration to the next as long as nothing stops the run. `Config.after?` is that step repeated.

A run over some input then is of one of two kinds, which `run_cases` tells apart. Either it goes on
through all of the input, or it stops at an octet of it, and then what follows that octet does not
matter. What holds along a run is shown for one step, and `after?_induction` carries it on.

## Why not the recursion itself

`Lexer.run` gives the last configuration only where the input ends, and reports the open part there.
So the run over a beginning of the input is not a state that the run over all of it goes through: it
has reported a part that the longer run still holds open. `Config.after?` is such a state. It splits
where the input does (`run_append_of_after?`), and what a run makes of the octets behind it is a run
again.

## What is known of every configuration

`Config.Coherent` says that octets are held open only inside a part and that the lexer can read on.
It holds at the start and along each run. Besides, no run pauses its lexer before it stops
(`paused_of_after?`). Both are read off the effect of one octet, by `exists_step_of_advance?`.
-/

namespace HttpFraming.Lexer

variable {part : MessagePart} {σ : Type}

/-- What a run stands at between two octets. -/
structure Config (part : MessagePart) (σ : Type) where
  lexer : Lexer part
  state : σ
  /-- The octets of the open part, the latest first. -/
  opened : Octets

/-- The state after a handler was told a piece, if it wants to go on. -/
def told? (handle : σ → Event → σ × Flow) (s : σ) (span : Span) (piece : Octets) : Option σ :=
  match handle s (.piece span piece) with
  | (s', .proceed) => some s'
  | _ => none

namespace Config

/-- A configuration with no part open. -/
def start (l : Lexer part) (s : σ) : Config part σ :=
  ⟨l, s, []⟩

/-- Runs on over some input, after `n` octets. -/
def run (handle : σ → Event → σ × Flow) (c : Config part σ) (n : Nat) (data : Octets) :
    Fed part σ :=
  Lexer.run handle c.lexer c.state c.opened n data

/-- The next configuration, if the octet does not stop the run. -/
def advance? (handle : σ → Event → σ × Flow) (c : Config part σ) (b : UInt8) :
    Option (Config part σ) :=
  match c.lexer.step b with
  | .ok (l', .skip) => some ⟨l', c.state, []⟩
  | .ok (l', .extend) => some ⟨l', c.state, b :: c.opened⟩
  | .ok (l', .complete span) =>
    (told? handle c.state span (b :: c.opened).reverse).map fun s' ↦ ⟨l', s', []⟩
  | .ok (l', .close span) =>
    (told? handle c.state span c.opened.reverse).map fun s' ↦ ⟨l', s', []⟩
  | .ok (_, .endHead) | .ok (_, .endBody) | .error _ => none

/-- The configuration after some octets, if none of them stops the run. -/
def after? (handle : σ → Event → σ × Flow) (c : Config part σ) (data : Octets) :
    Option (Config part σ) :=
  data.foldlM (advance? handle) c

variable {handle : σ → Event → σ × Flow} {c c' : Config part σ} {b : UInt8} {a data : Octets}

@[simp] theorem after?_nil : c.after? handle [] = some c := rfl

@[simp] theorem after?_cons :
    c.after? handle (b :: data) = (c.advance? handle b).bind fun c' ↦ c'.after? handle data := rfl

/-! ### Runs -/

/-- A run that an octet does not stop goes on from the next configuration. -/
theorem run_cons_of_advance? (h : c.advance? handle b = some c') (n : Nat) :
    c.run handle n (b :: data) = c'.run handle (n + 1) data := by
  -- Both sides look at the same step and the same answer of the handler. They are split together.
  obtain ⟨l, s, opened⟩ := c
  simp only [advance?, told?] at h
  simp only [run]
  rw [Lexer.run]
  generalize l.step b = outcome at h ⊢
  rcases outcome with e | ⟨l', effect⟩
  · cases h
  cases effect with
  | skip | extend =>
    cases h
    rfl
  | complete span =>
    simp only at h ⊢
    generalize handle s (.piece span (b :: opened).reverse) = answer at h ⊢
    obtain ⟨s', flow⟩ := answer
    cases flow <;> cases h
    rfl
  | close span =>
    simp only at h ⊢
    generalize handle s (.piece span opened.reverse) = answer at h ⊢
    obtain ⟨s', flow⟩ := answer
    cases flow <;> cases h
    rfl
  | endHead | endBody => cases h

/-- What follows the octet at which a run stops does not matter. -/
theorem run_cons_of_advance?_none (h : c.advance? handle b = none) (n : Nat) :
    c.run handle n (b :: data) = c.run handle n [b] := by
  obtain ⟨l, s, opened⟩ := c
  simp only [advance?, told?] at h
  simp only [run]
  rw [Lexer.run, Lexer.run]
  generalize l.step b = outcome at h ⊢
  rcases outcome with e | ⟨l', effect⟩
  · rfl
  cases effect with
  | skip | extend => cases h
  | complete span =>
    simp only at h ⊢
    generalize handle s (.piece span (b :: opened).reverse) = answer at h ⊢
    obtain ⟨s', flow⟩ := answer
    cases flow with
    | proceed => cases h
    | pause | abort => rfl
  | close span =>
    simp only at h ⊢
    generalize handle s (.piece span opened.reverse) = answer at h ⊢
    obtain ⟨s', flow⟩ := answer
    cases flow with
    | proceed => cases h
    | pause | abort => rfl
  | endHead | endBody => rfl

/-- Octets that were consumed before only add to the count. -/
theorem run_add (handle : σ → Event → σ × Flow) (c : Config part σ) (m n : Nat) (data : Octets) :
    c.run handle (m + n) data =
      ⟨(c.run handle n data).lexer, (c.run handle n data).state,
        m + (c.run handle n data).consumed⟩ := by
  obtain ⟨l, s, opened⟩ := c
  simp only [run]
  induction data generalizing l s opened n with
  | nil =>
    rw [Lexer.run.eq_def, Lexer.run.eq_def]
    cases l.phase.span? <;> cases opened <;> rfl
  | cons b data ih =>
    rw [Lexer.run, Lexer.run]
    rcases l.step b with e | ⟨l', effect⟩
    · rfl
    cases effect with
    | skip => exact ih (n + 1) l' s []
    | extend => exact ih (n + 1) l' s (b :: opened)
    | complete span =>
      simp only
      rcases handle s (.piece span (b :: opened).reverse) with ⟨s', flow⟩
      cases flow with
      | proceed => exact ih (n + 1) l' s' []
      | pause | abort => rfl
    | close span =>
      simp only
      rcases handle s (.piece span opened.reverse) with ⟨s', flow⟩
      cases flow with
      | proceed => exact ih (n + 1) l' s' []
      | pause | abort => rfl
    | endHead =>
      simp only
      rcases handle s (.headEnd l'.startLine) with ⟨s', flow⟩
      cases flow <;> rfl
    | endBody => rfl

/-- A run that some octets do not stop goes on behind them from where they lead. -/
theorem run_append_of_after? (h : c.after? handle a = some c') (n : Nat) :
    c.run handle n (a ++ data) = c'.run handle (n + a.length) data := by
  induction a generalizing c n with
  | nil =>
    obtain rfl : c = c' := Option.some.inj h
    rfl
  | cons b a ih =>
    rw [after?_cons] at h
    obtain ⟨c₁, hb, ha⟩ := Option.bind_eq_some_iff.1 h
    rw [List.cons_append, run_cons_of_advance? hb, ih ha, List.length_cons, Nat.add_right_comm,
      Nat.add_assoc]

/-- A run over two pieces, told by the run over the second. -/
theorem run_append_eq (h : c.after? handle a = some c') (rest : Octets) :
    c.run handle 0 (a ++ rest) = ⟨(c'.run handle 0 rest).lexer, (c'.run handle 0 rest).state,
      a.length + (c'.run handle 0 rest).consumed⟩ := by
  rw [run_append_of_after? h, Nat.zero_add, ← run_add, Nat.add_zero]

/-- A run that nothing stops ends where its octets lead, with the open part reported. -/
theorem run_of_after? (h : c.after? handle data = some c') (n : Nat) :
    c.run handle n data = c'.run handle (n + data.length) [] := by
  have hrun : c.run handle n (data ++ []) = c'.run handle (n + data.length) [] :=
    run_append_of_after? h n
  rwa [List.append_nil] at hrun

/-- **A run goes on through all of its input, or stops at an octet of it.** -/
theorem run_cases (handle : σ → Event → σ × Flow) (c : Config part σ) (data : Octets) :
    (∃ c', c.after? handle data = some c') ∨
      ∃ before b rest c', data = before ++ b :: rest ∧ c.after? handle before = some c' ∧
        c'.advance? handle b = none := by
  induction data generalizing c with
  | nil => exact .inl ⟨c, rfl⟩
  | cons b data ih =>
    rcases hb : c.advance? handle b with - | c₁
    · exact .inr ⟨[], b, data, c, rfl, rfl, hb⟩
    · rcases ih c₁ with ⟨c', hc'⟩ | ⟨before, d, rest, c', rfl, hc', hd⟩
      · exact .inl ⟨c', by rw [after?_cons, hb]; exact hc'⟩
      · exact .inr ⟨b :: before, d, rest, c', rfl, by rw [after?_cons, hb]; exact hc', hd⟩

/-- What one step keeps, a run keeps. -/
theorem after?_induction {P : Config part σ → Prop}
    (step : ∀ {c c' b}, c.advance? handle b = some c' → P c → P c')
    (h : c.after? handle data = some c') (hc : P c) : P c' := by
  induction data generalizing c with
  | nil =>
    obtain rfl : c = c' := Option.some.inj h
    exact hc
  | cons b data ih =>
    rw [after?_cons] at h
    obtain ⟨c₁, hb, ha⟩ := Option.bind_eq_some_iff.1 h
    exact ih ha (step hb hc)

/-- **What a step does**, by its effect. -/
theorem exists_step_of_advance? (h : c.advance? handle b = some c') :
    ∃ effect, c.lexer.step b = .ok (c'.lexer, effect) ∧
      match effect with
      | .skip => c'.state = c.state ∧ c'.opened = []
      | .extend => c'.state = c.state ∧ c'.opened = b :: c.opened
      | .complete span =>
        told? handle c.state span (b :: c.opened).reverse = some c'.state ∧ c'.opened = []
      | .close span => told? handle c.state span c.opened.reverse = some c'.state ∧ c'.opened = []
      | .endHead | .endBody => False := by
  unfold advance? at h
  split at h
  case h_1 l' hstep | h_2 l' hstep =>
    obtain rfl := Option.some.inj h
    exact ⟨_, hstep, rfl, rfl⟩
  case h_3 l' span hstep | h_4 l' span hstep =>
    obtain ⟨s', hs', rfl⟩ := Option.map_eq_some_iff.1 h
    exact ⟨_, hstep, hs', rfl⟩
  all_goals cases h

/-! ### Open parts -/

/-- The lexer can read on, and if a part is open, then the lexer is in one. -/
def Coherent (c : Config part σ) : Prop :=
  c.lexer.phase.isFinal = false ∧ (c.opened = [] ∨ ∃ span, c.lexer.phase.span? = some span)

/-- A configuration with no part open is coherent if the lexer can read on. -/
theorem coherent_start {l : Lexer part} (h : l.phase.isFinal = false) (s : σ) :
    Coherent (start l s) :=
  ⟨h, .inl rfl⟩

/-- One octet leads to a coherent configuration. -/
theorem Coherent.advance? (h : c.advance? handle b = some c') : Coherent c' := by
  obtain ⟨effect, hstep, heffect⟩ := exists_step_of_advance? h
  obtain ⟨-, hties⟩ := ties_of_step hstep
  cases effect with
  | extend =>
    obtain ⟨span, hspan, -⟩ := hties
    exact ⟨Phase.isFinal_of_span? hspan, .inr ⟨span, hspan⟩⟩
  | skip | complete _ | close _ => exact ⟨hties.2, .inl heffect.2⟩
  | endHead | endBody => exact heffect.elim

/-- **Octets lead from one coherent configuration to another.** -/
theorem Coherent.after? (hc : Coherent c) (h : c.after? handle data = some c') : Coherent c' :=
  after?_induction (P := Coherent) (fun h _ ↦ Coherent.advance? h) h hc

/-- Octets that do not stop a run leave the lexer paused or not, as it was. -/
theorem paused_of_after? (h : c.after? handle data = some c') :
    c'.lexer.paused = c.lexer.paused := by
  refine after?_induction (P := fun c' ↦ c'.lexer.paused = c.lexer.paused) (fun h hp ↦ ?_) h rfl
  obtain ⟨_, hstep, -⟩ := exists_step_of_advance? h
  exact (ties_of_step hstep).1.trans hp

/-! ### Steps by their effect -/

variable {l l' : Lexer part} {s s' : σ} {opened : Octets} {span : Span}

theorem advance?_skip (h : l.step b = .ok (l', .skip)) :
    (⟨l, s, opened⟩ : Config part σ).advance? handle b = some ⟨l', s, []⟩ := by
  simp only [advance?, h]

theorem advance?_extend (h : l.step b = .ok (l', .extend)) :
    (⟨l, s, opened⟩ : Config part σ).advance? handle b = some ⟨l', s, b :: opened⟩ := by
  simp only [advance?, h]

theorem advance?_close (h : l.step b = .ok (l', .close span)) :
    (⟨l, s, opened⟩ : Config part σ).advance? handle b =
      (told? handle s span opened.reverse).map fun s' ↦ ⟨l', s', []⟩ := by
  simp only [advance?, h]

theorem advance?_complete (h : l.step b = .ok (l', .complete span)) :
    (⟨l, s, opened⟩ : Config part σ).advance? handle b =
      (told? handle s span (b :: opened).reverse).map fun s' ↦ ⟨l', s', []⟩ := by
  simp only [advance?, h]

theorem advance?_error {e : SyntaxError} (h : l.step b = .error e) :
    (⟨l, s, opened⟩ : Config part σ).advance? handle b = none := by
  simp only [advance?, h]

end Config

end HttpFraming.Lexer
