import HttpFraming.Proofs.Stream.Drain

/-!
# Reading a body of a known length from a source

A reader of a body of a known length delivers so many octets from the front of the stream, or what
there is of them, and leaves the rest (`BoundBody.delivers`).

`Has` and `Stops` are the two relations that `BodyReader.Delivers` asks for. They are indexed by
what a reader never changes: the octets that follow the body, and by how many octets the stream
falls short of it. Both are differences of what a read takes away on both sides, so a read that
hands out `k` octets keeps them (`reads_advance`): the stream loses `k` octets and the body is `k`
octets nearer to its end.

Only one of the two can be anything. If the stream is long enough, nothing is missing and the reader
stops at the end of the body, with the octets that follow in its source. Otherwise nothing follows,
and it stops with an unexpected end. Which of the two happens is decided before the first read, by
the stream and not by the fragments in which it is delivered: the buffer matters only for how much a
single read hands out (`handOut_eq`).
-/

namespace HttpFraming.BoundBody

variable {r : BoundBody} {n : Nat}

/-- A reader that is to deliver some data and to leave the octets `rest`, where the stream falls
short of the body by `missing` octets. -/
inductive Has : Octets → Nat → BodyReader → Octets → Prop
  | mk {r : BoundBody} (flows : r.source.Flows) :
    Has (r.source.stream.drop r.remaining) (r.remaining - r.source.stream.length) (.bound r)
      (r.source.stream.take r.remaining)

/-- How a reader stops: at the end of the body, or where the stream falls short of it. -/
inductive Stops : Octets → Nat → ReadError → BodyReader → Prop
  | eof {r : BoundBody} (flows : r.source.Flows) : Stops r.source.stream 0 .eof (.bound r)
  | unexpectedEof {r : BoundBody} {rest : Octets} {missing : Nat} (short : missing ≠ 0) :
    Stops rest missing .unexpectedEof (.bound r)

/-- What one read does, next to what the stream has. -/
def Reads (w : Octets) (m : Nat) (result : Except ReadError Octets × BoundBody) : Prop :=
  BodyReader.Reads (Has (w.drop m) (m - w.length)) (Stops (w.drop m) (m - w.length)) (w.take m)
    (result.1, .bound result.2)

/-- A reader that has handed out `k` octets more. -/
def advance (r : BoundBody) (k : Nat) : BoundBody :=
  { r with source := r.source.consume k, totalRead := r.totalRead + k }

theorem remaining_advance (r : BoundBody) (k : Nat) :
    (r.advance k).remaining = r.remaining - k :=
  Nat.sub_add_eq _ _ _

/-- A read hands out what was asked for, what is left of the body, or what is buffered, whichever is
least. -/
theorem handOut_eq (r : BoundBody) (n : Nat) :
    r.handOut n =
      (r.source.stream.take (min (min n r.remaining) r.source.buffer.length),
        r.advance (min (min n r.remaining) r.source.buffer.length)) := by
  have htake : r.source.buffer.take (min n r.remaining) =
      r.source.stream.take (min (min n r.remaining) r.source.buffer.length) := by
    rw [Source.stream, List.take_append_of_le_length (Nat.min_le_right _ _)]
    exact List.take_eq_take_min
  have hlength : (r.source.buffer.take (min n r.remaining)).length =
      min (min n r.remaining) r.source.buffer.length := List.length_take
  rw [handOut, hlength, htake, advance]

/-- To hand out octets from the front of the buffer leaves the rest of the stream to deliver. -/
theorem reads_advance {k : Nat} (hs : r.source.Flows) (hk : k ≠ 0) (hle : k ≤ r.remaining)
    (hbuffer : k ≤ r.source.buffer.length) :
    Reads r.source.stream r.remaining (.ok (r.source.stream.take k), r.advance k) := by
  have hlength : k ≤ r.source.stream.length := by
    rw [Source.stream, List.length_append]
    omega
  have hhas : Has _ _ (.bound (r.advance k)) _ := .mk (Source.flows_consume.2 hs)
  have hstream : (r.advance k).source.stream = r.source.stream.drop k :=
    Source.stream_consume hbuffer
  obtain ⟨m, hm⟩ : ∃ m, r.remaining = k + m := Nat.exists_eq_add_of_le hle
  have hremaining : (r.advance k).remaining = m := by
    rw [remaining_advance, hm, Nat.add_sub_cancel_left]
  have hmissing : m - (r.source.stream.drop k).length = r.remaining - r.source.stream.length := by
    rw [List.length_drop, hm]
    omega
  rw [hstream, hremaining, List.drop_drop, ← hm, hmissing] at hhas
  have hne : r.source.stream.take k ≠ [] := by
    rw [Ne, List.take_eq_nil_iff]
    rintro (h | h)
    · exact hk h
    · rw [h, List.length_nil] at hlength
      omega
  have htake : r.source.stream.take r.remaining =
      r.source.stream.take k ++ (r.source.stream.drop k).take m := by
    rw [← List.take_add, ← hm]
  rw [Reads, htake]
  exact .some hne hhas

/-- **One read** of a body of a known length, from a source that flows. -/
theorem reads_readSome (hs : r.source.Flows) (hn : n ≠ 0) :
    Reads r.source.stream r.remaining (r.readSome n) := by
  rw [readSome, if_neg hn]
  by_cases hend : r.length ≤ r.totalRead
  · have hm : r.remaining = 0 := Nat.sub_eq_zero_of_le hend
    rw [if_pos hend, hm]
    rw [Reads, Nat.zero_sub]
    exact .stop (.eof hs)
  · have hm : 0 < r.remaining := Nat.sub_pos_of_lt (Nat.not_le.1 hend)
    rw [if_neg hend]
    have hsupplied := Source.supplied_supply hs r.bufferSize
    generalize r.source.supply r.bufferSize = supplied at hsupplied
    cases hsupplied with
    | ended flows stream stream' =>
      rw [stream, Reads, List.take_nil]
      exact .stop (.unexpectedEof (Nat.ne_of_gt hm))
    | @ready s flows buffer stream =>
      have hpos : 0 < s.buffer.length := List.length_pos_iff.2 buffer
      have hk : min (min n r.remaining) s.buffer.length ≠ 0 := by omega
      have hle : min (min n r.remaining) s.buffer.length ≤ r.remaining := by omega
      have hreads := reads_advance (r := { r with source := s }) flows hk hle (Nat.min_le_right _ _)
      have hout := handOut_eq { r with source := s } n
      rw [← stream]
      simp only [hout]
      exact hreads

/-- **A body of a known length is delivered**: the octets up to its length, and an error if there
are fewer. -/
theorem delivers (rest : Octets) (missing : Nat) :
    BodyReader.Delivers (Has rest missing) (Stops rest missing) where
  reads := by
    rintro _ _ n hn ⟨flows⟩
    exact reads_readSome flows hn

/-- A reader that misses nothing stops at the end of the body. -/
theorem eof_of_stops {rest : Octets} {e : ReadError} {r : BodyReader} (h : Stops rest 0 e r) :
    e = .eof ∧ r.source.Flows ∧ r.source.stream = rest := by
  cases h with
  | eof flows => exact ⟨rfl, flows, rfl⟩
  | unexpectedEof short => exact absurd rfl short

/-- Where the stream is long enough, a body is read to its end. -/
theorem readsToEnd_new (options : ReadOptions) {s : Source} (hs : s.Flows) {length : Nat}
    (h : length ≤ s.stream.length) :
    BodyReader.ReadsToEnd (.bound (.new options length s)) (s.stream.take length)
      (s.stream.drop length) := by
  have hhas : Has (s.stream.drop length) (length - s.stream.length)
      (.bound (.new options length s)) (s.stream.take length) := .mk (r := .new options length s) hs
  rw [Nat.sub_eq_zero_of_le h] at hhas
  exact (delivers _ 0).readsToEnd hhas eof_of_stops

end HttpFraming.BoundBody
