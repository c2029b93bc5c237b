import HttpFraming.Stream.Source

/-!
# How a buffer is kept

`Source` tells what is in the buffer of a transport. Here is how the buffer is kept: in one store of
octets, which readers do not move. To consume octets is to move an offset, and the store is emptied
when the offset comes to its end (`ReadAhead.consume`). Only when the transport is to be read, what
was consumed is dropped from the front (`ReadAhead.compact`). Then the store is lengthened by as
much as is asked for, the transport writes into that room, and what it did not write is cut off
again, after a failure all of it (`ReadAhead.fill`).

Who looks at the store from its offset on sees the buffer of a source (`ReadAhead.toSource`).

## What has to be right

* The offset never passes the end of the store, which is a field of the type (`start_le`).
* The room is filled with octets that nobody has sent. None of them may be seen: whatever was not
  written is cut off, and that is the same number of octets whether the read has brought less than
  was asked for, nothing, or a failure.
* What is buffered when the transport is read is still there afterwards, in front of what came.

The equations at the end of this module settle the operations that do not read. Those that read are
compared with a source where conservation is proved, because there a script is followed through
interruptions.
-/

namespace HttpFraming

/-- A transport with a read-ahead buffer, as it is kept. -/
structure ReadAhead where
  store : Octets
  /-- How many octets in front of the store are consumed. -/
  start : Nat
  /-- What the transport will do. -/
  script : List Delivery
  /-- How many reads the transport has seen. -/
  reads : Nat
  start_le : start ≤ store.length
deriving Repr, DecidableEq

namespace ReadAhead

/-- A buffer in front of a transport that was not read yet. -/
def ofScript (script : List Delivery) : ReadAhead :=
  ⟨[], 0, script, 0, Nat.le_refl 0⟩

/-- The octets received and not used yet. -/
def buffered (b : ReadAhead) : Octets :=
  b.store.drop b.start

/-- The octets that the transport has not delivered yet. -/
def unread (b : ReadAhead) : Octets :=
  Delivery.octetsOf b.script

/-- Moves the offset, at most to the end of the store, and there empties the store. -/
def consume (b : ReadAhead) (n : Nat) : ReadAhead :=
  if min (b.start + n) b.store.length = b.store.length then
    { b with store := [], start := 0, start_le := Nat.le_refl 0 }
  else { b with start := min (b.start + n) b.store.length, start_le := Nat.min_le_right _ _ }

/-- Drops what is consumed from the front of the store. -/
def compact (b : ReadAhead) : ReadAhead :=
  if 0 < b.start then
    { b with store := b.store.drop b.start, start := 0, start_le := Nat.zero_le _ }
  else b

/-- What comes of reading once into a store, with repetitions after interruptions. -/
structure Receipt where
  /-- How many octets came. -/
  result : Except Failure Nat
  store : Octets
  script : List Delivery
  reads : Nat
deriving Repr

/-- Writes octets over those of a store, from `place` on. -/
def overwrite (store : Octets) (place : Nat) (data : Octets) : Octets :=
  store.take place ++ data ++ store.drop (place + data.length)

/-- Reads into the room that a store has behind its first `filled` octets, and cuts off what was not
written. -/
def receive (store : Octets) (filled : Nat) : List Delivery → Receipt
  | [] => ⟨.ok 0, store.take filled, [], 1⟩
  | .octets data :: rest =>
    let room := store.length - filled
    let written := data.take room
    ⟨.ok written.length, (overwrite store filled written).take (filled + written.length),
      if data.length ≤ room then rest else .octets (data.drop room) :: rest, 1⟩
  | .failure cause :: rest =>
    if cause.kind = .interrupted then
      let later := receive store filled rest
      { later with reads := later.reads + 1 }
    else ⟨.error cause, store.take filled, rest, 1⟩

/-- Reads once, at most `max` octets, and never less than one, into the buffer. The result is how
many octets came; none means that the connection has ended.

The room for `max` octets is always found. Where it could not be allocated, for the largest of
sizes, to lengthen the store would fail, and this is left out of the model as it is in
`Source.fill`. -/
def fill (b : ReadAhead) (max : Nat) : Except Failure Nat × ReadAhead :=
  let kept := b.compact.store
  let r := receive (kept ++ List.replicate (Nat.max max 1) 0) kept.length b.script
  (r.result, ⟨r.store, 0, r.script, b.reads + r.reads, Nat.zero_le _⟩)

/-- Sees to it that the buffer holds something, and reads only when it is empty. -/
def supply (b : ReadAhead) (max : Nat) : Source.Supply × ReadAhead :=
  if b.buffered.isEmpty then
    match b.fill max with
    | (.ok 0, b') => (.ended, b')
    | (.ok _, b') => (.ready, b')
    | (.error cause, b') => (.failed cause, b')
  else (.ready, b)

/-- Gives up a buffer: the transport, and what was received of it and not used. -/
def release (b : ReadAhead) : List Delivery × Octets :=
  (b.script, b.store.drop b.start)

/-! ### What is seen through the offset -/

/-- The source that a buffer is. -/
def toSource (b : ReadAhead) : Source :=
  ⟨b.buffered, b.script, b.reads⟩

@[simp] theorem toSource_ofScript (script : List Delivery) :
    (ofScript script).toSource = Source.ofScript script := rfl

/-- What is given up of a buffer is given up of the source. -/
theorem toSource_release (b : ReadAhead) : b.release = b.toSource.release := rfl

/-- After compacting, the store is what is buffered. -/
theorem store_compact (b : ReadAhead) : b.compact.store = b.buffered := by
  unfold compact
  split
  · rfl
  · rename_i hstart
    rw [buffered, Nat.eq_zero_of_not_pos hstart, List.drop_zero]

/-- To move the offset is to drop octets from the front of the buffer. -/
theorem toSource_consume (b : ReadAhead) (n : Nat) :
    (b.consume n).toSource = b.toSource.consume n := by
  have hdrop : b.buffered.drop n = b.store.drop (min (b.start + n) b.store.length) := by
    rw [buffered, List.drop_drop, List.drop_eq_drop_min]
  unfold consume
  split
  · rename_i hend
    rw [hend, List.drop_length] at hdrop
    simp only [toSource, Source.consume, hdrop]
    rfl
  · simp only [toSource, Source.consume, hdrop]
    rfl

/-- What the transport has written is kept, behind what was there before. -/
theorem take_overwrite {store : Octets} {place : Nat} (h : place ≤ store.length) (data : Octets) :
    (overwrite store place data).take (place + data.length) = store.take place ++ data := by
  have hlength : (store.take place ++ data).length = place + data.length := by
    rw [List.length_append, List.length_take, Nat.min_eq_left h]
  rw [overwrite, ← hlength, List.take_left]

end ReadAhead

end HttpFraming
