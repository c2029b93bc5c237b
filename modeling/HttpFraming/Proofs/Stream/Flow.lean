import HttpFraming.Stream.Source

/-!
# Sources that flow

What a reader takes from a source it takes in pieces: what is buffered, and then what each read of
the transport brings. `Source.pieces` is that list. How it is cut depends on the fragments in which
the transport delivers and on how much is asked for at a time; what it is a cut of does not. That is
`Source.flatten_pieces`, for a source that flows: one whose transport brings something or interrupts
a read, and ends only after all it has to deliver.

So a reader of a flowing source is taken care of in two parts. It does with the pieces what a parser
does that is fed with them, and how a parser is fed does not matter.

## What comes of a read

Readers do not look at scripts. What they see of a flowing source is put into three types, one on
top of the other, and proofs about readers go by their cases:

* `Reception.Flows`, for one read of the transport: octets from the front of the script, or the end
  after all of them;
* `Source.Filled`, for filling the buffer: the octets are the next piece, and go behind what is
  buffered;
* `Source.Supplied`, for seeing to it that something is buffered: the stream stays the same, and the
  pieces do, but for an empty one in front.

No failure is among the cases, as a source that flows has none. Interruptions are taken care of in
the first of the three, and do not occur above it.
-/

namespace HttpFraming

namespace Delivery

/-- Whether a delivery brings something, or merely interrupts a read. -/
def flows : Delivery → Bool
  | octets data => !data.isEmpty
  | failure cause => cause.kind == .interrupted

/-- What the reads bring that ask for at most `max` octets each, up to the first that brings
nothing. -/
def pieces (max : Nat) (script : List Delivery) : List Octets :=
  let r := Reception.ofScript (Nat.max max 1) script
  match _h : r.octets with
  | [] => []
  | b :: data => (b :: data) :: pieces max r.script
termination_by weight script
decreasing_by
  have hweight := Reception.weight_ofScript_le (Nat.max max 1) script
  rw [_h, List.length_cons] at hweight
  omega

end Delivery

namespace Reception

/-- What comes of reading from a transport that flows: some octets, or the end after all of them. -/
inductive Flows (script : List Delivery) (r : Reception) : Prop
  | some (b : UInt8) (data : Octets) (result : r.result = .ok (b :: data))
    (octets : Delivery.octetsOf script = (b :: data) ++ Delivery.octetsOf r.script)
    (flows : ∀ d ∈ r.script, d.flows = true)
  | ended (result : r.result = .ok []) (octets : Delivery.octetsOf script = [])
    (script : r.script = [])

/-- **One read** of a transport that flows. -/
theorem flows_ofScript {max : Nat} (hmax : 0 < max) {script : List Delivery}
    (h : ∀ d ∈ script, d.flows = true) : Flows script (ofScript max script) := by
  induction script with
  | nil => exact .ended rfl rfl rfl
  | cons d rest ih =>
    obtain ⟨hd, hrest⟩ := List.forall_mem_cons.1 h
    cases d with
    | octets data =>
      have hne : data.take max ≠ [] := by
        have hdata : data ≠ [] := by simpa [Delivery.flows] using hd
        simpa [List.take_eq_nil_iff, hdata] using Nat.ne_of_gt hmax
      obtain ⟨b, piece, hpiece⟩ := List.exists_cons_of_ne_nil hne
      refine .some b piece (congrArg Except.ok hpiece) ?_ ?_
      · rw [← hpiece, ofScript]
        by_cases hle : data.length ≤ max
        · simp only [hle, if_true, List.take_of_length_le hle, Delivery.octetsOf]
        · simp only [hle, if_false, Delivery.octetsOf, ← List.append_assoc,
            List.take_append_drop]
      · rw [ofScript]
        by_cases hle : data.length ≤ max
        · simpa only [hle, if_true] using hrest
        · simp only [hle, if_false]
          refine List.forall_mem_cons.2 ⟨?_, hrest⟩
          simpa [Delivery.flows] using Nat.not_le.1 hle
    | failure cause =>
      have hcause : cause.kind = .interrupted := by simpa [Delivery.flows] using hd
      -- The read is repeated, so that only the count of reads tells of it.
      rw [ofScript, if_pos hcause]
      rcases ih hrest with ⟨b, data, hresult, hoctets, hflows⟩ | ⟨hresult, hoctets, hscript⟩
      · exact .some b data hresult hoctets hflows
      · exact .ended hresult hoctets hscript

end Reception

namespace Delivery

variable {max : Nat} {script : List Delivery}

/-- After a read that brings nothing there are no pieces. -/
theorem pieces_of_octets_eq_nil (h : (Reception.ofScript (Nat.max max 1) script).octets = []) :
    pieces max script = [] := by
  rw [pieces]
  split
  · rfl
  · rename_i hcons
    rw [h] at hcons
    cases hcons

/-- What a read brings is the first piece. -/
theorem pieces_of_octets_eq_cons {b : UInt8} {data : Octets}
    (h : (Reception.ofScript (Nat.max max 1) script).octets = b :: data) :
    pieces max script =
      (b :: data) :: pieces max (Reception.ofScript (Nat.max max 1) script).script := by
  rw [pieces]
  split
  · rename_i hnil
    rw [h] at hnil
    cases hnil
  · rename_i hcons
    rw [h] at hcons
    obtain ⟨rfl, rfl⟩ := List.cons.inj hcons
    rfl

/-- The reads bring all that a transport delivers that flows. -/
theorem flatten_pieces (h : ∀ d ∈ script, d.flows = true) :
    (pieces max script).flatten = octetsOf script := by
  have hmax : 0 < Nat.max max 1 := Nat.le_max_right max 1
  fun_induction pieces max script with
  | case1 script r hnil =>
    rcases Reception.flows_ofScript hmax h with ⟨b, data, hresult, -, -⟩ | ⟨-, hoctets, -⟩
    · rw [Reception.octets, hresult] at hnil
      cases hnil
    · exact hoctets.symm
  | case2 script r b data hcons ih =>
    rcases Reception.flows_ofScript hmax h with ⟨c, piece, hresult, hoctets, hflows⟩ |
      ⟨hresult, -, -⟩
    · rw [Reception.octets, hresult] at hcons
      rw [List.flatten_cons, ih hflows, ← hcons, hoctets]
    · rw [Reception.octets, hresult] at hcons
      cases hcons

end Delivery

namespace Source

/-- All octets that a source has or will have, in the order in which they are used. -/
def stream (s : Source) : Octets :=
  s.buffer ++ s.unread

/-- The transport of a source brings octets, or interrupts reads, and ends after all of that. -/
def Flows (s : Source) : Prop :=
  ∀ d ∈ s.script, d.flows = true

instance (s : Source) : Decidable s.Flows :=
  inferInstanceAs (Decidable (∀ d ∈ s.script, d.flows = true))

/-- The pieces in which a source hands out its stream when it is asked for at most `max` octets at a
time. The first piece is what is buffered, and may be empty. -/
def pieces (s : Source) (max : Nat) : List Octets :=
  s.buffer :: Delivery.pieces max s.script

variable {s s' : Source} {max n : Nat}

@[simp] theorem flows_consume : (s.consume n).Flows ↔ s.Flows :=
  Iff.rfl

/-- What is consumed is gone from the front of the stream. -/
theorem stream_consume (h : n ≤ s.buffer.length) : (s.consume n).stream = s.stream.drop n :=
  (List.drop_append_of_le_length h).symm

/-! ### Filling the buffer -/

/-- **What comes of filling the buffer of a source that flows**: more octets, which are the next
piece, or none because there are none. -/
inductive Filled (s : Source) (max : Nat) : Except Failure Nat × Source → Prop
  | more {s' : Source} (b : UInt8) (data : Octets) (flows : s'.Flows)
    (buffer : s'.buffer = s.buffer ++ b :: data) (unread : s.unread = (b :: data) ++ s'.unread)
    (pieces : Delivery.pieces max s.script = (b :: data) :: Delivery.pieces max s'.script) :
    Filled s max (.ok (data.length + 1), s')
  | ended {s' : Source} (flows : s'.Flows) (buffer : s'.buffer = s.buffer) (unread : s.unread = [])
    (unread' : s'.unread = []) (pieces : Delivery.pieces max s.script = []) :
    Filled s max (.ok 0, s')

/-- **To fill the buffer** of a source that flows. -/
theorem filled_fill (hs : s.Flows) (max : Nat) : Filled s max (s.fill max) := by
  have hmax : 0 < Nat.max max 1 := Nat.le_max_right max 1
  rcases Reception.flows_ofScript hmax hs with ⟨b, data, hresult, hoctets, hflows⟩ |
    ⟨hresult, hoctets, hscript⟩
  · have hcons : (Reception.ofScript (Nat.max max 1) s.script).octets = b :: data := by
      rw [Reception.octets, hresult]
    have hfill : s.fill max = (.ok (data.length + 1),
        ⟨s.buffer ++ b :: data, (Reception.ofScript (Nat.max max 1) s.script).script,
          s.reads + (Reception.ofScript (Nat.max max 1) s.script).reads⟩) := by
      simp only [fill, hresult, List.length_cons]
    rw [hfill]
    exact .more b data hflows rfl hoctets (Delivery.pieces_of_octets_eq_cons hcons)
  · have hnil : (Reception.ofScript (Nat.max max 1) s.script).octets = [] := by
      rw [Reception.octets, hresult]
    have hfill : s.fill max = (.ok 0,
        ⟨s.buffer, [], s.reads + (Reception.ofScript (Nat.max max 1) s.script).reads⟩) := by
      simp only [fill, hresult, hscript, List.append_nil, List.length_nil]
    rw [hfill]
    exact .ended (List.forall_mem_nil _) rfl hoctets rfl (Delivery.pieces_of_octets_eq_nil hnil)

/-- **What comes of seeing to it that the buffer of a source holds something**, if the source flows:
it does, or the stream has ended. To fill the buffer is to go on to the next piece. -/
inductive Supplied (s : Source) (max : Nat) : Supply × Source → Prop
  | ready {s' : Source} (flows : s'.Flows) (buffer : s'.buffer ≠ []) (stream : s'.stream = s.stream)
    (pieces : s.pieces max = s'.pieces max ∨ s.pieces max = [] :: s'.pieces max) :
    Supplied s max (.ready, s')
  | ended {s' : Source} (flows : s'.Flows) (stream : s.stream = []) (stream' : s'.stream = [])
    (pieces : s.pieces max = [[]]) : Supplied s max (.ended, s')

/-- **To see to it that something is buffered**, in a source that flows. -/
theorem supplied_supply (hs : s.Flows) (max : Nat) : Supplied s max (s.supply max) := by
  by_cases hbuffer : s.buffer = []
  · rw [supply, if_pos (by simpa using hbuffer)]
    have hfilled := filled_fill hs max
    generalize s.fill max = filled at hfilled
    cases hfilled with
    | @more s' b data flows buffer unread pieces =>
      rw [hbuffer, List.nil_append] at buffer
      refine .ready flows (by simp [buffer]) ?_ (.inr ?_)
      · rw [stream, stream, buffer, hbuffer, unread, List.nil_append]
      · rw [Source.pieces, Source.pieces, buffer, hbuffer, pieces]
    | @ended s' flows buffer unread unread' pieces =>
      refine .ended flows ?_ ?_ ?_
      · rw [stream, hbuffer, unread, List.append_nil]
      · rw [stream, buffer, hbuffer, unread', List.append_nil]
      · rw [Source.pieces, hbuffer, pieces]
  · rw [supply, if_neg (by simpa using hbuffer)]
    exact .ready hs hbuffer rfl (.inl rfl)

/-- **The pieces of a source are a cut of its stream.** -/
theorem flatten_pieces (hs : s.Flows) (max : Nat) : (s.pieces max).flatten = s.stream := by
  rw [pieces, List.flatten_cons, Delivery.flatten_pieces hs, stream, unread]

end Source

end HttpFraming
