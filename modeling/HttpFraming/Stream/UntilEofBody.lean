import HttpFraming.Stream.Error
import HttpFraming.Stream.Options

/-!
# Bodies that end with the connection

Everything that comes belongs to the body. What is buffered is handed out before the transport is
read again, so that a failure of the transport is reported after the last data, and the end, once
seen, stays the end.

For this the reader remembers whether the end was seen (`finished`). A transport may have more to
deliver after it has delivered nothing once, and whoever goes on asking would get it; a body that
has ended does not begin again.

That a read takes something from what the source can still deliver is proved here
(`UntilEofBody.total_readSome_lt`), because reading to the end is defined by recursion on it.
-/

namespace HttpFraming

/-- A reader of a body that ends with the connection. -/
structure UntilEofBody where
  source : Source
  bufferSize : Nat
  /-- Whether the end was seen. -/
  finished : Bool
deriving Repr, DecidableEq

namespace UntilEofBody

def new (options : ReadOptions) (s : Source) : UntilEofBody :=
  ⟨s, options.bufferSize, false⟩

/-- Hands out what is buffered, at most `n` octets. -/
def handOut (r : UntilEofBody) (n : Nat) : Octets × UntilEofBody :=
  let data := r.source.buffer.take n
  (data, { r with source := r.source.consume data.length })

/-- Reads at most `n` octets of the body. Asking for none touches nothing. -/
def readSome (r : UntilEofBody) (n : Nat) : Except ReadError Octets × UntilEofBody :=
  if n = 0 then (.ok [], r)
  else if r.finished then (.error .eof, r)
  else
    match r.source.supply r.bufferSize with
    | (.failed cause, s) => (.error (.transport cause), { r with source := s })
    | (.ended, s) => (.error .eof, { r with source := s, finished := true })
    | (.ready, s) =>
      let (data, r') := handOut { r with source := s } n
      (.ok data, r')

/-- Reading something leaves less to read. -/
theorem total_readSome_lt {r r' : UntilEofBody} {n : Nat} {data : Octets} (hn : n ≠ 0)
    (h : r.readSome n = (.ok data, r')) : r'.source.total < r.source.total := by
  unfold readSome at h
  rw [if_neg hn] at h
  split at h
  · simp at h
  · split at h
    · simp at h
    · simp at h
    · rename_i s hs
      have htotal := r.source.total_supply_le r.bufferSize
      have hne := Source.buffer_ne_nil_of_supply hs
      rw [hs] at htotal
      simp only [handOut, Prod.mk.injEq, Except.ok.injEq] at h
      obtain ⟨-, rfl⟩ := h
      have hpos : 0 < s.buffer.length := List.length_pos_iff.2 hne
      simp only [Source.total_consume, List.length_take]
      have : s.buffer.length ≤ s.total := by simp [Source.total]
      simp only at htotal
      omega

end UntilEofBody

end HttpFraming
