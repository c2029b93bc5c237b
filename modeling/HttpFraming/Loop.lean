/-!
# Loops

A loop goes round until there is something to return. It is given by one round of it, which leaves
the loop or leads to another round. `Loop.within` runs a loop for a given number of rounds, and has
no result if these are not enough, in the loop itself or in one inside of it.

The number of rounds is not an input of anything that is modelled here. It is what a statement about
termination is about: that some number of rounds suffices, and which. A loop that is given round by
round can be compared with a function that comes to the same, and then the function needs no count.
Both is done in the theory of loops, which is about any round, and nowhere else.
-/

namespace HttpFraming

namespace Loop

/-- What a round of a loop comes to. -/
inductive Step (σ α : Type) where
  /-- The loop is left with a result. -/
  | leave (result : α)
  /-- There is another round. -/
  | again (state : σ)
deriving Repr

variable {σ α : Type}

/-- Goes round at most so many times. A round may be without result, because a loop or an operation
inside of it is. -/
def within (round : σ → Option (Step σ α)) : Nat → σ → Option α
  | 0, _ => none
  | rounds + 1, state =>
    match round state with
    | none => none
    | some (.leave result) => some result
    | some (.again state') => within round rounds state'

end Loop

end HttpFraming
