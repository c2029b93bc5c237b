import HttpFraming.Proofs.Stream.Flow
import HttpFraming.Stream.BodyReader

/-!
# Reading a body to its end

A body can be read with destinations of any sizes, one after the other, until an error is returned,
which may be that the body has ended (`BodyReader.drain`). It always comes to that, as every read
lowers the rank of the reader.

`BodyReader.Delivers` is what has to be shown of one read so that all reads together deliver some
data and stop in some way. It has two parameters, which each reader fills in for itself: what it
means to have some data to deliver, and how a reader stops that has none. `BodyReader.Reads` is the
step: a read hands out some of the data and leaves a reader that has the rest, or there are no data
and it stops. The steps are put together here, once, for three ways to read:

* until an error, with destinations of any sizes (`Delivers.drain`);
* all the rest, where the end of the body is no error (`Delivers.readRest`);
* all the rest of a body that can stop only at its end (`Delivers.readsToEnd`), which is what a
  message whose body was sent as a whole comes to.

The sizes are a sequence without an end, since nobody knows beforehand how many reads there will be.
None of them is zero: a read into an empty destination returns nothing and says nothing.
-/

namespace HttpFraming

/-- The sizes of destinations, one after the other. None is empty. -/
structure ReadSizes where
  size : Nat → Nat
  ne_zero : ∀ k, size k ≠ 0

namespace ReadSizes

/-- The sizes after the first. -/
def tail (sizes : ReadSizes) : ReadSizes :=
  ⟨fun k ↦ sizes.size (k + 1), fun k ↦ sizes.ne_zero (k + 1)⟩

/-- Destinations of one size. -/
def const (n : Nat) (h : n ≠ 0) : ReadSizes :=
  ⟨fun _ ↦ n, fun _ ↦ h⟩

end ReadSizes

namespace BodyReader

/-- What comes of reading until an error is returned: all data together, the error, and the reader
afterwards. -/
structure Drained where
  data : Octets
  stop : ReadError
  reader : BodyReader

/-- What was read before comes first. -/
def Drained.prepend (data : Octets) (later : Drained) : Drained :=
  { later with data := data ++ later.data }

/-- Reads into destinations of some sizes until an error is returned. -/
def drain (r : BodyReader) (sizes : ReadSizes) : Drained :=
  match _h : r.readSome (sizes.size 0) with
  | (.error e, r') => ⟨[], e, r'⟩
  | (.ok data, r') => (r'.drain sizes.tail).prepend data
termination_by r.rank
decreasing_by exact rank_readSome_lt (sizes.ne_zero 0) _h

/-- What one read does of a reader that has some data to deliver and stops as `Stops` says. `Has`
is kept by every read. -/
inductive Reads (Has : BodyReader → Octets → Prop) (Stops : ReadError → BodyReader → Prop) :
    Octets → Except ReadError Octets × BodyReader → Prop
  | some {out data : Octets} {r : BodyReader} (ne : out ≠ []) (has : Has r data) :
    Reads Has Stops (out ++ data) (.ok out, r)
  | stop {e : ReadError} {r : BodyReader} (stops : Stops e r) : Reads Has Stops [] (.error e, r)

/-- Readers that have some data deliver some of it with every read, and stop when they have none. -/
structure Delivers (Has : BodyReader → Octets → Prop) (Stops : ReadError → BodyReader → Prop) :
    Prop where
  reads : ∀ {r data n}, n ≠ 0 → Has r data → Reads Has Stops data (r.readSome n)

variable {Has : BodyReader → Octets → Prop} {Stops : ReadError → BodyReader → Prop}
  {r : BodyReader} {data : Octets}

/-- **Whatever the sizes, all data are delivered.** -/
theorem Delivers.drain (h : Delivers Has Stops) (hr : Has r data) (sizes : ReadSizes) :
    (r.drain sizes).data = data ∧ Stops (r.drain sizes).stop (r.drain sizes).reader := by
  fun_induction BodyReader.drain r sizes generalizing data with
  | case1 r sizes e r' hread =>
    have hreads := h.reads (sizes.ne_zero 0) hr
    rw [hread] at hreads
    cases hreads with
    | stop stops => exact ⟨rfl, stops⟩
  | case2 r sizes out r' hread ih =>
    have hreads := h.reads (sizes.ne_zero 0) hr
    rw [hread] at hreads
    cases hreads with
    | some ne has =>
      obtain ⟨hdata, hstops⟩ := ih has
      exact ⟨congrArg (out ++ ·) hdata, hstops⟩

/-- To read the rest of a body delivers all data, too. That the body has ended is no error then. -/
theorem Delivers.readRest (h : Delivers Has Stops) (hr : Has r data) {n : Nat} (hn : n ≠ 0) :
    (r.readRest n).data = data ∧
      ((r.readRest n).error? = none ∧ Stops .eof (r.readRest n).reader ∨
        ∃ e, e ≠ .eof ∧ (r.readRest n).error? = some e ∧ Stops e (r.readRest n).reader) := by
  fun_induction BodyReader.readRest r n generalizing data with
  | case1 r r' hread =>
    have hreads := h.reads hn hr
    rw [hread] at hreads
    cases hreads with
    | stop stops => exact ⟨rfl, .inl ⟨rfl, stops⟩⟩
  | case2 r e r' hne hread =>
    have hreads := h.reads hn hr
    rw [hread] at hreads
    cases hreads with
    | stop stops => exact ⟨rfl, .inr ⟨e, hne, rfl, stops⟩⟩
  | case3 r r' hread =>
    have hreads := h.reads hn hr
    rw [hread] at hreads
    cases hreads with
    | some ne => exact absurd rfl ne
  | case4 r b out r' hread rest =>
    rename_i ih
    have hreads := h.reads hn hr
    rw [hread] at hreads
    cases hreads with
    | some ne has =>
      obtain ⟨hdata, hstops⟩ := ih has
      exact ⟨congrArg (b :: out ++ ·) hdata, hstops⟩

/-- A reader reads some data and then the end of the body, and leaves the octets `rest`. -/
structure ReadsToEnd (r : BodyReader) (data rest : Octets) : Prop where
  data : r.readToEnd.data = data
  error? : r.readToEnd.error? = none
  flows : r.readToEnd.reader.source.Flows
  stream : r.readToEnd.reader.source.stream = rest

/-- A reader that can stop only at the end of the body reads to it. -/
theorem Delivers.readsToEnd (h : Delivers Has Stops) (hr : Has r data) {rest : Octets}
    (hstops : ∀ {e r'}, Stops e r' → e = .eof ∧ r'.source.Flows ∧ r'.source.stream = rest) :
    ReadsToEnd r data rest := by
  obtain ⟨hdata, ⟨herror, hstop⟩ | ⟨e, hne, -, hstop⟩⟩ := h.readRest hr (by decide : copySize ≠ 0)
  · obtain ⟨-, hflows, hstream⟩ := hstops hstop
    exact ⟨hdata, herror, hflows, hstream⟩
  · exact absurd (hstops hstop).1 hne

end BodyReader

end HttpFraming
