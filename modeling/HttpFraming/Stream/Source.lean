import HttpFraming.Text.Utf8

/-!
# Sources of octets

A source is a transport with a read-ahead buffer. Readers look at the buffer, say how much of it
they have used, and ask for more only when they need more. So octets that one reader did not need
are still there for the next.

## The transport

What a transport will do is known only to itself, so it is described by that: a script of what its
reads will deliver, octets or failures, one after the other. A read takes at most what was asked
for, and leaves the rest of a delivery for the next read. When the script is used up the connection
has ended, and reads deliver nothing. A read that is interrupted is repeated, and the number of
reads counts the repetitions.

So a statement about all transports is a statement about all scripts, and a transport that fails, or
delivers octet by octet, is a script like any other.

## The measure

`Source.total` counts what a source can still deliver, octets and deliveries; every operation lowers
it or leaves it, and it is the measure by which reading ends. A delivery of no octets counts for
one, so that also a read that brings nothing, but is not the end, would lower it.

What the operations do to it is shown from two equations, `Source.fill_eq` for a read of the
transport, and `Source.supply_of_nil` for seeing to it that the buffer holds something.
-/

namespace HttpFraming

/-- The kinds of failure of a transport. The library itself tells three of them apart. -/
inductive FailureKind where
  /-- The read can be repeated at once. -/
  | interrupted
  | unexpectedEof
  | invalidData
  | other (name : String)
deriving Repr, DecidableEq

/-- A failure of a transport, with what the transport says about it. -/
structure Failure where
  kind : FailureKind
  message : String
deriving Repr, DecidableEq

/-- What a transport does next. -/
inductive Delivery where
  /-- Reads deliver these octets, in as many reads as it takes. -/
  | octets (data : Octets)
  /-- One read fails. -/
  | failure (cause : Failure)
deriving Repr, DecidableEq

namespace Delivery

/-- The octets that a script delivers, from first to last. -/
def octetsOf : List Delivery → Octets
  | [] => []
  | octets data :: rest => data ++ octetsOf rest
  | failure _ :: rest => octetsOf rest

/-- How many octets and deliveries there are in a script. -/
def weight : List Delivery → Nat
  | [] => 0
  | octets data :: rest => data.length + 1 + weight rest
  | failure _ :: rest => 1 + weight rest

end Delivery

/-- What comes of reading once, with repetitions after interruptions. -/
structure Reception where
  result : Except Failure Octets
  /-- What the transport does after it. -/
  script : List Delivery
  /-- How many reads it took. -/
  reads : Nat
deriving Repr

namespace Reception

/-- The octets that a read has brought. -/
def octets (r : Reception) : Octets :=
  match r.result with
  | .ok data => data
  | .error _ => []

/-- Reads at most `max` octets. -/
def ofScript (max : Nat) : List Delivery → Reception
  | [] => ⟨.ok [], [], 1⟩
  | .octets data :: rest =>
    ⟨.ok (data.take max), if data.length ≤ max then rest else .octets (data.drop max) :: rest, 1⟩
  | .failure cause :: rest =>
    if cause.kind = .interrupted then
      let later := ofScript max rest
      { later with reads := later.reads + 1 }
    else ⟨.error cause, rest, 1⟩

/-- A read that says how many octets came has brought as many. -/
theorem length_octets_of_result {r : Reception} {n : Nat}
    (h : r.result.map List.length = .ok n) : r.octets.length = n := by
  rw [octets]
  cases hresult : r.result with
  | ok data =>
    rw [hresult] at h
    exact Except.ok.inj h
  | error cause =>
    rw [hresult] at h
    cases h

/-- What has come is what the script has lost. -/
theorem weight_ofScript_le (max : Nat) (script : List Delivery) :
    Delivery.weight (ofScript max script).script + (ofScript max script).octets.length ≤
      Delivery.weight script := by
  induction script with
  | nil => simp [ofScript, octets, Delivery.weight]
  | cons d rest ih =>
    cases d with
    | octets data =>
      -- A delivery is used up, or its rest stays in front of the script.
      by_cases h : data.length ≤ max
      · simp only [ofScript, octets, h, if_true, Delivery.weight, List.length_take]
        omega
      · simp only [ofScript, octets, h, if_false, Delivery.weight, List.length_take,
          List.length_drop]
        omega
    | failure cause =>
      by_cases h : cause.kind = .interrupted
      · simp only [ofScript, octets, h, if_true, Delivery.weight] at ih ⊢
        omega
      · simp [ofScript, octets, h, Delivery.weight]

end Reception

/-- A transport with a read-ahead buffer. -/
structure Source where
  /-- The octets received and not used yet. -/
  buffer : Octets
  /-- What the transport will do. -/
  script : List Delivery
  /-- How many reads the transport has seen. -/
  reads : Nat
deriving Repr, DecidableEq

namespace Source

/-- A source that has read nothing. -/
def ofScript (script : List Delivery) : Source :=
  ⟨[], script, 0⟩

/-- The octets that the transport has not delivered yet. -/
def unread (s : Source) : Octets :=
  Delivery.octetsOf s.script

/-- Drops octets from the front of the buffer, or all of it when it holds fewer. -/
def consume (s : Source) (n : Nat) : Source :=
  { s with buffer := s.buffer.drop n }

/-- Reads once, at most `max` octets, and never less than one, into the buffer. The result is how
many octets came; none means that the connection has ended.

The buffer grows as far as it has to. A `max` for which no room can be set aside, because it is
beyond what can be allocated at all, is left out of the model: there, to make room would fail before
the transport is asked. -/
def fill (s : Source) (max : Nat) : Except Failure Nat × Source :=
  let r := Reception.ofScript (Nat.max max 1) s.script
  match r.result with
  | .ok data => (.ok data.length, ⟨s.buffer ++ data, r.script, s.reads + r.reads⟩)
  | .error cause => (.error cause, ⟨s.buffer, r.script, s.reads + r.reads⟩)

/-- Lengthens what the transport will do. -/
def extend (s : Source) (script : List Delivery) : Source :=
  { s with script := s.script ++ script }

/-- Gives up a source: the transport, and what was received of it and not used. -/
def release (s : Source) : List Delivery × Octets :=
  (s.script, s.buffer)

/-- Whether there are octets to work on. -/
inductive Supply where
  | ready
  | ended
  | failed (cause : Failure)
deriving Repr, DecidableEq

/-- Sees to it that the buffer holds something, and reads only when it is empty. -/
def supply (s : Source) (max : Nat) : Supply × Source :=
  if s.buffer.isEmpty then
    match s.fill max with
    | (.ok 0, s') => (.ended, s')
    | (.ok _, s') => (.ready, s')
    | (.error cause, s') => (.failed cause, s')
  else (.ready, s)

/-! ### Fills and supplies -/

section

variable {s : Source} {max : Nat}

/-- To fill the buffer is to read once. -/
theorem fill_eq (s : Source) (max : Nat) :
    s.fill max = ((Reception.ofScript (Nat.max max 1) s.script).result.map List.length,
      ⟨s.buffer ++ (Reception.ofScript (Nat.max max 1) s.script).octets,
        (Reception.ofScript (Nat.max max 1) s.script).script,
        s.reads + (Reception.ofScript (Nat.max max 1) s.script).reads⟩) := by
  rw [fill, Reception.octets]
  cases hresult : (Reception.ofScript (Nat.max max 1) s.script).result with
  | ok data => rfl
  | error cause =>
    simp only [List.append_nil]
    rfl

/-- What the result of a fill says about an empty buffer. -/
def Supply.ofResult : Except Failure Nat → Supply
  | .ok 0 => .ended
  | .ok _ => .ready
  | .error cause => .failed cause

/-- A source is ready only after a fill that has brought something. -/
theorem Supply.exists_of_ofResult_eq_ready {result : Except Failure Nat}
    (h : ofResult result = .ready) : ∃ n, result = .ok (n + 1) := by
  rcases result with cause | _ | n
  · cases h
  · cases h
  · exact ⟨n, rfl⟩

/-- Where the buffer holds something, the transport is not asked. -/
theorem supply_of_ne_nil (h : s.buffer ≠ []) : s.supply max = (.ready, s) := by
  rw [supply, if_neg (by simpa using h)]

/-- Where the buffer is empty, the transport is asked once. -/
theorem supply_of_nil (h : s.buffer = []) :
    s.supply max = (.ofResult (s.fill max).1, (s.fill max).2) := by
  rw [supply, if_pos (List.isEmpty_iff.2 h)]
  rcases s.fill max with ⟨cause | _ | n, s'⟩ <;> rfl

end

/-! ### What a source can still deliver -/

/-- How much a source can still deliver, counting deliveries as well as octets. -/
def total (s : Source) : Nat :=
  Delivery.weight s.script + s.buffer.length

/-- A fill leaves what it has brought in the buffer, and takes at least as much from the script. -/
theorem total_fill_le (s : Source) (max : Nat) : (s.fill max).2.total ≤ s.total := by
  have hweight := Reception.weight_ofScript_le (Nat.max max 1) s.script
  rw [fill_eq]
  simp only [total, List.length_append]
  omega

/-- A read that brings something shortens the script. -/
theorem weight_fill_lt {s s' : Source} {max n : Nat} (h : s.fill max = (.ok (n + 1), s')) :
    Delivery.weight s'.script < Delivery.weight s.script := by
  have hweight := Reception.weight_ofScript_le (Nat.max max 1) s.script
  rw [fill_eq] at h
  obtain ⟨hresult, rfl⟩ := Prod.mk.inj h
  have hlength := Reception.length_octets_of_result hresult
  show Delivery.weight (Reception.ofScript (Nat.max max 1) s.script).script < _
  omega

/-- A read that brings something brings it into the buffer. -/
theorem buffer_fill_ne_nil {s s' : Source} {max n : Nat} (h : s.fill max = (.ok (n + 1), s')) :
    s'.buffer ≠ [] := by
  rw [fill_eq] at h
  obtain ⟨hresult, rfl⟩ := Prod.mk.inj h
  have hlength := Reception.length_octets_of_result hresult
  exact List.append_ne_nil_of_right_ne_nil _ (List.ne_nil_of_length_eq_add_one hlength)

/-- Whether a source is asked or not, it can deliver no more than before. -/
theorem total_supply_le (s : Source) (max : Nat) : (s.supply max).2.total ≤ s.total := by
  by_cases hbuffer : s.buffer = []
  · rw [supply_of_nil hbuffer]
    exact total_fill_le s max
  · exact Nat.le_of_eq (congrArg (fun p ↦ p.2.total) (supply_of_ne_nil hbuffer))

/-- A source that is ready has something in its buffer. -/
theorem buffer_ne_nil_of_supply {s s' : Source} {max : Nat} (h : s.supply max = (.ready, s')) :
    s'.buffer ≠ [] := by
  by_cases hbuffer : s.buffer = []
  · rw [supply_of_nil hbuffer] at h
    obtain ⟨hready, rfl⟩ := Prod.mk.inj h
    obtain ⟨n, hresult⟩ := Supply.exists_of_ofResult_eq_ready hready
    exact buffer_fill_ne_nil (Prod.ext hresult rfl)
  · rw [supply_of_ne_nil hbuffer] at h
    obtain ⟨-, rfl⟩ := Prod.mk.inj h
    exact hbuffer

/-- What is consumed can no longer be delivered. -/
theorem total_consume (s : Source) (n : Nat) :
    (s.consume n).total = s.total - min n s.buffer.length := by
  simp [consume, total]
  omega

end Source

end HttpFraming
