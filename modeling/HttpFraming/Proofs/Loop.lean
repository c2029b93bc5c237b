import HttpFraming.Loop

/-!
# What is true of loops

A loop comes to an end if each of its rounds leaves it or makes something smaller that cannot become
smaller forever. `Loop.Moves` says so of one round, together with what it keeps, and
`Loop.exists_within` of the loop. What a round keeps is then true of every state before a round
(`Loop.inv_of_visits`).

## What has to be shown of one round

Three things at once, for a state of which the invariant holds: that the round has a result, that
what it leaves the loop with is right, and that a state which it goes on in measures less and has no
results but right ones. They are one statement, because a round is split into cases once, and in
each case all three are known. The last of them is said backwards, `Post state' result → Post state
result`: the specification of the loop may mention the state that it began with.

## Loops within loops

A round may have no result, because it contains a loop that was cut off. The number of rounds is
shared by all of them. So `Loop.Moves` is shown of a round with a given number, and the number is
bounded at the end by what the outermost state measures.

## Seeing one loop through another

A loop over a state as it is kept goes round exactly as a loop over the state that is meant, if each
of its rounds is seen as a round of that loop (`Loop.Mirrors`). Then its results are known from
there, and neither termination nor correctness is proved a second time.
-/

namespace HttpFraming.Loop

variable {σ α : Type} {round : σ → Option (Step σ α)} {Inv : σ → Prop} {Post : σ → α → Prop}
  {measure : σ → Nat}

/-- What a round does: it leaves the loop with a result that is right, or it goes on in a state that
measures less and has no other results. -/
inductive Moves (round : σ → Option (Step σ α)) (Inv : σ → Prop) (Post : σ → α → Prop)
    (measure : σ → Nat) (state : σ) : Prop
  | leave {result : α} (round : round state = some (.leave result)) (post : Post state result)
  | again {state' : σ} (round : round state = some (.again state')) (inv : Inv state')
    (lt : measure state' < measure state) (post : ∀ result, Post state' result → Post state result)

/-- A round that moves has a result. -/
theorem Moves.ne_none {state : σ} (h : Moves round Inv Post measure state) :
    round state ≠ none := by
  cases h with
  | leave hround | again hround =>
    rw [hround]
    exact Option.some_ne_none _

/-- A round that goes on keeps the invariant. -/
theorem Moves.inv_of_again {state state' : σ} (h : Moves round Inv Post measure state)
    (hround : round state = some (.again state')) : Inv state' := by
  cases h with
  | leave hleave => cases hround.symm.trans hleave
  | again hagain hinv =>
    cases hround.symm.trans hagain
    exact hinv

/-- **A loop comes to an end** in as many rounds as its state measures, and one more. -/
theorem exists_within (h : ∀ state, Inv state → Moves round Inv Post measure state) (state : σ)
    (hstate : Inv state) {rounds : Nat} (hrounds : measure state < rounds) :
    ∃ result, within round rounds state = some result ∧ Post state result := by
  induction rounds generalizing state with
  | zero => exact absurd hrounds (Nat.not_lt_zero _)
  | succ rounds ih =>
    rw [within]
    cases h state hstate with
    | leave hround hpost =>
      rw [hround]
      exact ⟨_, rfl, hpost⟩
    | again hround hinv hlt hpost =>
      obtain ⟨result, hresult, hpost'⟩ := ih _ hinv (by omega)
      rw [hround]
      exact ⟨result, hresult, hpost result hpost'⟩

/-- The states before the rounds of a loop, from `start` on. -/
inductive Visits (round : σ → Option (Step σ α)) (start : σ) : σ → Prop
  | start : Visits round start start
  | again {state state' : σ} (visits : Visits round start state)
    (hround : round state = some (.again state')) : Visits round start state'

/-- **What a round keeps** is true before each round. -/
theorem inv_of_visits (h : ∀ {state state'}, Inv state →
    round state = some (.again state') → Inv state') {start : σ} (hstart : Inv start) {state : σ}
    (hvisits : Visits round start state) : Inv state := by
  induction hvisits with
  | start => exact hstart
  | again _ hround ih => exact h ih hround

/-! ### Loops that are seen through another one -/

variable {σ' α' : Type} {round' : σ' → Option (Step σ' α')} {see : σ → σ'} {seeResult : α → α'}
  {Kept : α → Prop}

/-- A round that is seen as a round of another loop. It keeps what this relies on, and its result is
kept as well. -/
inductive Mirrors (round : σ → Option (Step σ α)) (round' : σ' → Option (Step σ' α'))
    (see : σ → σ') (seeResult : α → α') (Inv : σ → Prop) (Kept : α → Prop) (state : σ) : Prop
  | leave {result : α} (round : round state = some (.leave result))
    (seen : round' (see state) = some (.leave (seeResult result))) (kept : Kept result)
  | again {state' : σ} (round : round state = some (.again state'))
    (seen : round' (see state) = some (.again (see state'))) (inv : Inv state')

/-- A round that is seen in another loop has a result. -/
theorem Mirrors.ne_none {state : σ}
    (h : Mirrors round round' see seeResult Inv Kept state) : round state ≠ none := by
  cases h with
  | leave hround | again hround =>
    rw [hround]
    exact Option.some_ne_none _

/-- A round that is seen in another loop and goes on keeps the invariant. -/
theorem Mirrors.inv_of_again {state state' : σ}
    (h : Mirrors round round' see seeResult Inv Kept state)
    (hround : round state = some (.again state')) : Inv state' := by
  cases h with
  | leave hleave => cases hround.symm.trans hleave
  | again hagain _ hinv =>
    cases hround.symm.trans hagain
    exact hinv

/-- **A loop comes to what it is seen to come to.** -/
theorem exists_within_of_mirrors
    (h : ∀ state, Inv state → Mirrors round round' see seeResult Inv Kept state) {rounds : Nat}
    {state : σ} {result' : α'} (hstate : Inv state)
    (hseen : within round' rounds (see state) = some result') :
    ∃ result, within round rounds state = some result ∧ seeResult result = result' ∧
      Kept result := by
  induction rounds generalizing state with
  | zero => cases hseen
  | succ rounds ih =>
    rw [within] at hseen ⊢
    cases h state hstate with
    | leave hround hround' hkept =>
      rw [hround'] at hseen
      rw [hround]
      exact ⟨_, rfl, Option.some.inj hseen, hkept⟩
    | again hround hround' hinv =>
      rw [hround'] at hseen
      rw [hround]
      exact ih hinv hseen

end HttpFraming.Loop
