import HttpFraming.Stream.Error
import HttpFraming.Stream.Options

/-!
# Bodies of a known length

A body of a known length is handed out octet by octet until its length is reached. The reader holds
the source while it reads, and never takes more of it than belongs to the body.

The reader counts what it has handed out, and what is left is the difference. So the end is reached
with the last octet and not with the end of the connection: the transport is not asked any more, and
what follows the body in the buffer is not touched. A connection that ends before is an error, and
the same error as often as is asked.

That a read takes something from what the source can still deliver is proved here
(`BoundBody.total_readSome_lt`), because reading to the end is defined by recursion on it.
-/

namespace HttpFraming

/-- A reader of a body of a known length. -/
structure BoundBody where
  source : Source
  bufferSize : Nat
  /-- The length of the body. -/
  length : Nat
  /-- How much of it was handed out. -/
  totalRead : Nat
deriving Repr, DecidableEq

namespace BoundBody

def new (options : ReadOptions) (length : Nat) (s : Source) : BoundBody :=
  ⟨s, options.bufferSize, length, 0⟩

/-- How much of the body was not handed out yet. -/
def remaining (r : BoundBody) : Nat :=
  r.length - r.totalRead

/-- Hands out what is buffered, at most `n` octets, and none that do not belong to the body. -/
def handOut (r : BoundBody) (n : Nat) : Octets × BoundBody :=
  let data := r.source.buffer.take (min n r.remaining)
  (data, { r with source := r.source.consume data.length, totalRead := r.totalRead + data.length })

/-- Reads at most `n` octets of the body. Asking for none touches nothing. -/
def readSome (r : BoundBody) (n : Nat) : Except ReadError Octets × BoundBody :=
  if n = 0 then (.ok [], r)
  else if r.length ≤ r.totalRead then (.error .eof, r)
  else
    match r.source.supply r.bufferSize with
    | (.failed cause, s) => (.error (.transport cause), { r with source := s })
    | (.ended, s) => (.error .unexpectedEof, { r with source := s })
    | (.ready, s) =>
      let (data, r') := handOut { r with source := s } n
      (.ok data, r')

/-- Reading something leaves less to read. -/
theorem total_readSome_lt {r r' : BoundBody} {n : Nat} {data : Octets} (hn : n ≠ 0)
    (h : r.readSome n = (.ok data, r')) : r'.source.total < r.source.total := by
  unfold readSome at h
  rw [if_neg hn] at h
  split at h
  · simp at h
  · rename_i hlen
    split at h
    · simp at h
    · simp at h
    · rename_i s hs
      have htotal := r.source.total_supply_le r.bufferSize
      have hne := Source.buffer_ne_nil_of_supply hs
      rw [hs] at htotal
      simp only [handOut, remaining, Prod.mk.injEq, Except.ok.injEq] at h
      obtain ⟨-, rfl⟩ := h
      have hpos : 0 < s.buffer.length := List.length_pos_iff.2 hne
      simp only [Source.total_consume, List.length_take]
      have : s.buffer.length ≤ s.total := by simp [Source.total]
      simp only at htotal
      omega

end BoundBody

end HttpFraming
