import HttpFraming.Proofs.Stream.Disturbance
import HttpFraming.Stream.ReadAhead

/-!
# A buffer loses nothing

Between a transport and its readers there is a buffer, which is filled and consumed in turns. In
whatever turns, what was consumed, what is buffered and what the transport has not delivered yet are
together, in this order, all that the transport had to deliver.

## The buffer as it is kept

A buffer is kept as a store with an offset: what is consumed may stay in it until the next read. A
filling first drops it from the front, then makes room at the end, and after the read cuts off the
room that was not written to. The result is shown of this buffer (`ReadAhead.conserves_run`), by
showing that through its offset it is a `Source` (`ReadAhead.toSource_run`), where there is neither
a store nor an offset. All that is proved of sources in the other modules therefore holds of the
buffer as it is kept.

## What a single call keeps

`ReadAhead.Conserves` has the law of conservation and, beside it, what each call does in itself: to
consume takes from the front, a filling that succeeds puts as many octets behind the others as it
returns, one that fails changes nothing that is buffered, and whoever gives up the buffer gets what
is in it. The first follows by induction on the calls (`Source.octets_run`) from what one call keeps
(`Source.octets_call`), and the others hold of any buffer.

## Interruptions

A read of the transport that is interrupted is repeated, so interruptions are seen in the number of
its reads only: with all of them left out, the same is returned (`Source.Calmed.run`). The
difference of the two numbers is what `Source.Calmed` counts.
-/

namespace HttpFraming

/-! ### One reading of the store -/

namespace ReadAhead

/-- To read into a store is to read as much as there is room for. -/
theorem receive_eq {store : Octets} {filled : Nat} (h : filled ≤ store.length)
    (script : List Delivery) :
    receive store filled script =
      ⟨(Reception.ofScript (store.length - filled) script).result.map List.length,
        store.take filled ++ (Reception.ofScript (store.length - filled) script).octets,
        (Reception.ofScript (store.length - filled) script).script,
        (Reception.ofScript (store.length - filled) script).reads⟩ := by
  induction script with
  | nil =>
    rw [receive, Reception.ofScript, Reception.octets, List.append_nil]
    rfl
  | cons d rest ih =>
    cases d with
    | octets data =>
      simp only [receive, Reception.ofScript, take_overwrite h]
      rfl
    | failure cause =>
      by_cases hkind : cause.kind = .interrupted
      · simp only [receive, Reception.ofScript, hkind, if_true, ih]
        rfl
      · simp only [receive, Reception.ofScript, hkind, if_false, Reception.octets, List.append_nil]
        rfl

/-- The room that is made is written to or cut off. -/
theorem toSource_fill (b : ReadAhead) (max : Nat) :
    b.toSource.fill max = ((b.fill max).1, (b.fill max).2.toSource) := by
  have hroom : (b.buffered ++ List.replicate (Nat.max max 1) (0 : UInt8)).length -
      b.buffered.length = Nat.max max 1 := by
    rw [List.length_append, List.length_replicate, Nat.add_sub_cancel_left]
  have hle : b.buffered.length ≤
      (b.buffered ++ List.replicate (Nat.max max 1) (0 : UInt8)).length := by
    rw [List.length_append]
    exact Nat.le_add_right _ _
  rw [Source.fill_eq]
  simp only [fill, store_compact, receive_eq hle, hroom, List.take_left]
  rfl

/-- Through its offset a buffer is supplied as a source is. -/
theorem toSource_supply (b : ReadAhead) (max : Nat) :
    b.toSource.supply max = ((b.supply max).1, (b.supply max).2.toSource) := by
  have hempty : b.toSource.buffer.isEmpty = b.buffered.isEmpty := rfl
  rw [Source.supply, supply, hempty, toSource_fill]
  cases b.buffered.isEmpty with
  | false => rfl
  | true =>
    rcases b.fill max with ⟨_ | n, b'⟩
    · rfl
    · cases n <;> rfl

end ReadAhead

/-! ### Calls -/

/-- What can be done with a source. -/
inductive SourceCall where
  | fill (max : Nat)
  | consume (n : Nat)
deriving Repr, DecidableEq

/-- What is seen of it: what came of filling the buffer, or the octets consumed. -/
inductive SourceAnswer where
  | filled (result : Except Failure Nat)
  | consumed (data : Octets)
deriving Repr

namespace SourceAnswer

/-- The octets that were consumed. -/
def octets : List SourceAnswer → Octets
  | [] => []
  | filled _ :: answers => octets answers
  | consumed data :: answers => data ++ octets answers

end SourceAnswer

/-- Consumes octets, and shows which. -/
def Source.call (s : Source) : SourceCall → SourceAnswer × Source
  | .fill max => (.filled (s.fill max).1, (s.fill max).2)
  | .consume n => (.consumed (s.buffer.take n), s.consume n)

/-- The answers to some calls, one after the other, and the source after them. -/
def Source.run (s : Source) : List SourceCall → List SourceAnswer × Source
  | [] => ([], s)
  | call :: calls =>
    let later := (s.call call).2.run calls
    ((s.call call).1 :: later.1, later.2)

namespace ReadAhead

/-- What is done with a buffer, and what is seen of it. -/
def call (b : ReadAhead) : SourceCall → SourceAnswer × ReadAhead
  | .fill max => (.filled (b.fill max).1, (b.fill max).2)
  | .consume n => (.consumed (b.buffered.take n), b.consume n)

/-- The answers to some calls, one after the other, and the buffer after them. -/
def run (b : ReadAhead) : List SourceCall → List SourceAnswer × ReadAhead
  | [] => ([], b)
  | call :: calls =>
    let later := (b.call call).2.run calls
    ((b.call call).1 :: later.1, later.2)

/-- One call of a buffer is the call of the source that it is. -/
theorem toSource_call (b : ReadAhead) (call : SourceCall) :
    b.toSource.call call = ((b.call call).1, (b.call call).2.toSource) := by
  cases call with
  | fill max =>
    rw [Source.call, toSource_fill]
    rfl
  | consume n =>
    rw [Source.call, ← toSource_consume]
    rfl

/-- **Through its offset a buffer is a source.** -/
theorem toSource_run (b : ReadAhead) (calls : List SourceCall) :
    b.toSource.run calls = ((b.run calls).1, (b.run calls).2.toSource) := by
  induction calls generalizing b with
  | nil => rfl
  | cons call calls ih => rw [Source.run, toSource_call, ih, run]

end ReadAhead

/-! ### What a call keeps -/

/-- A read brings at most as much as is asked for. -/
theorem Reception.length_octets_le (max : Nat) (script : List Delivery) :
    (ofScript max script).octets.length ≤ max := by
  induction script with
  | nil => exact Nat.zero_le max
  | cons d rest ih =>
    cases d with
    | octets data => exact List.length_take_le max data
    | failure cause =>
      rw [ofScript]
      split
      · exact ih
      · exact Nat.zero_le max

namespace Source

variable {s s' : Source} {max k : Nat} {cause : Failure}

/-- A filling that succeeds puts octets of the transport behind what is buffered. -/
theorem exists_of_fill_ok (h : s.fill max = (.ok k, s')) :
    ∃ data, data.length = k ∧ k ≤ Nat.max max 1 ∧ s'.buffer = s.buffer ++ data ∧
      s.unread = data ++ s'.unread := by
  have hlength := Reception.length_octets_le (Nat.max max 1) s.script
  have hoctets := Reception.octetsOf_ofScript (Nat.max max 1) s.script
  rw [fill_eq] at h
  obtain ⟨hresult, rfl⟩ := Prod.mk.inj h
  have hk : (Reception.ofScript (Nat.max max 1) s.script).octets.length = k := by
    cases hdata : (Reception.ofScript (Nat.max max 1) s.script).result with
    | ok data =>
      rw [hdata] at hresult
      rw [Reception.octets, hdata]
      exact Except.ok.inj hresult
    | error cause =>
      rw [hdata] at hresult
      cases hresult
  exact ⟨_, hk, hk ▸ hlength, rfl, hoctets.symm⟩

/-- A filling that fails leaves what is buffered, and takes nothing from the transport. -/
theorem of_fill_error (h : s.fill max = (.error cause, s')) :
    s'.buffer = s.buffer ∧ s'.unread = s.unread := by
  have hoctets := Reception.octetsOf_ofScript (Nat.max max 1) s.script
  rw [fill_eq] at h
  obtain ⟨hresult, rfl⟩ := Prod.mk.inj h
  have hnil : (Reception.ofScript (Nat.max max 1) s.script).octets = [] := by
    cases hdata : (Reception.ofScript (Nat.max max 1) s.script).result with
    | ok data =>
      rw [hdata] at hresult
      cases hresult
    | error cause' => rw [Reception.octets, hdata]
  rw [hnil] at hoctets
  exact ⟨by rw [hnil, List.append_nil], hoctets⟩

/-- **A call loses nothing**: what it consumes comes first, and then what there is left. -/
theorem octets_call (s : Source) (call : SourceCall) :
    SourceAnswer.octets [(s.call call).1] ++ (s.call call).2.stream = s.stream := by
  cases call with
  | fill max =>
    obtain ⟨received, hbuffer, hunread⟩ := s.received_fill max
    show (s.fill max).2.buffer ++ (s.fill max).2.unread = s.buffer ++ s.unread
    rw [hbuffer, hunread, List.append_assoc]
  | consume n =>
    show s.buffer.take n ++ [] ++ (s.buffer.drop n ++ s.unread) = s.buffer ++ s.unread
    rw [List.append_nil, ← List.append_assoc, List.take_append_drop]

/-- **Calls lose nothing**, in whatever turns. -/
theorem octets_run (s : Source) (calls : List SourceCall) :
    SourceAnswer.octets (s.run calls).1 ++ (s.run calls).2.stream = s.stream := by
  induction calls generalizing s with
  | nil => rfl
  | cons call calls ih =>
    have hfirst (answer : SourceAnswer) (answers : List SourceAnswer) :
        SourceAnswer.octets (answer :: answers) =
          SourceAnswer.octets [answer] ++ SourceAnswer.octets answers := by
      cases answer <;> simp [SourceAnswer.octets]
    rw [run, hfirst, List.append_assoc, ih, octets_call]

end Source

/-! ### Interruptions -/

namespace Delivery

/-- Whether a delivery is an interruption of a read. -/
def interrupts : Delivery → Bool
  | octets _ => false
  | failure cause => cause.kind == .interrupted

/-- How many interruptions there are in a script. -/
def interruptions (script : List Delivery) : Nat :=
  script.countP interrupts

/-- A script without its interruptions. -/
def calm (script : List Delivery) : List Delivery :=
  script.filter (!·.interrupts)

end Delivery

open Delivery (calm interruptions octetsOf)

/-- A read of a transport without interruptions is the same, but for the number of reads: each
interruption that is left out is a read less. -/
theorem Reception.ofScript_calm (max : Nat) (script : List Delivery) :
    (ofScript max (calm script)).result = (ofScript max script).result ∧
      (ofScript max (calm script)).script = calm (ofScript max script).script ∧
      (ofScript max (calm script)).reads + interruptions script =
        (ofScript max script).reads + interruptions (ofScript max script).script := by
  induction script with
  | nil => exact ⟨rfl, rfl, rfl⟩
  | cons d rest ih =>
    cases d with
    | octets data =>
      have hcalm : calm (.octets data :: rest) = .octets data :: calm rest := rfl
      simp only [hcalm, ofScript]
      split <;> exact ⟨trivial, rfl, rfl⟩
    | failure cause =>
      by_cases hkind : cause.kind = .interrupted
      · have hinterrupts : (Delivery.failure cause).interrupts = true := by
          simp [Delivery.interrupts, hkind]
        have hcalm : calm (.failure cause :: rest) = calm rest := by
          simp [calm, hinterrupts]
        have hmore : interruptions (.failure cause :: rest) = interruptions rest + 1 :=
          List.countP_cons_of_pos hinterrupts
        obtain ⟨hresult, hscript, hreads⟩ := ih
        simp only [hcalm, hmore, ofScript, hkind, if_true]
        exact ⟨hresult, hscript, by omega⟩
      · have hinterrupts : (Delivery.failure cause).interrupts = false := by
          simp [Delivery.interrupts, hkind]
        have hcalm : calm (.failure cause :: rest) = .failure cause :: calm rest := by
          simp [calm, hinterrupts]
        have hsame : interruptions (.failure cause :: rest) = interruptions rest :=
          List.countP_cons_of_neg (by simp [hinterrupts])
        simp only [hcalm, hsame, ofScript, hkind, if_false]
        exact ⟨trivial, trivial, trivial⟩

/-- The second source is the first without interruptions. The reads that they have seen differ by
the interruptions that are used up, of the `all` there were. -/
structure Source.Calmed (all : Nat) (s s' : Source) : Prop where
  buffer : s'.buffer = s.buffer
  script : s'.script = calm s.script
  reads : s'.reads + all = s.reads + interruptions s.script

namespace Source.Calmed

variable {all : Nat} {s s' : Source}

/-- One call returns the same of both sources, and keeps how they differ. -/
theorem call (h : Calmed all s s') (call : SourceCall) :
    (s'.call call).1 = (s.call call).1 ∧ Calmed all (s.call call).2 (s'.call call).2 := by
  cases call with
  | consume n =>
    rw [Source.call, Source.call, h.buffer]
    exact ⟨rfl, congrArg (List.drop n) h.buffer, h.script, h.reads⟩
  | fill max =>
    obtain ⟨hresult, hscript, hreads⟩ := Reception.ofScript_calm (Nat.max max 1) s.script
    have hoctets : (Reception.ofScript (Nat.max max 1) (calm s.script)).octets =
        (Reception.ofScript (Nat.max max 1) s.script).octets := by
      rw [Reception.octets, Reception.octets, hresult]
    have hall := h.reads
    simp only [Source.call, fill_eq, h.buffer, h.script, hresult, hscript, hoctets]
    refine ⟨trivial, rfl, rfl, ?_⟩
    show s'.reads + (Reception.ofScript (Nat.max max 1) (calm s.script)).reads + all =
      s.reads + (Reception.ofScript (Nat.max max 1) s.script).reads +
        interruptions (Reception.ofScript (Nat.max max 1) s.script).script
    omega

/-- **Interruptions are seen in the number of reads only.** -/
theorem run (h : Calmed all s s') (calls : List SourceCall) :
    (s'.run calls).1 = (s.run calls).1 ∧ Calmed all (s.run calls).2 (s'.run calls).2 := by
  induction calls generalizing s s' with
  | nil => exact ⟨rfl, h⟩
  | cons call calls ih =>
    obtain ⟨hanswer, hcalmed⟩ := h.call call
    obtain ⟨hanswers, hlast⟩ := ih hcalmed
    rw [Source.run, Source.run]
    exact ⟨by rw [hanswer, hanswers], hlast⟩

end Source.Calmed

/-! ### The buffer as it is kept -/

namespace ReadAhead

/-- A buffer has lost nothing of what a script delivers, after answers, and will lose nothing in the
next call. -/
structure Conserves (script : List Delivery) (answers : List SourceAnswer) (b : ReadAhead) :
    Prop where
  /-- What was consumed, what is buffered and what was not delivered yet is all there is. -/
  octets : SourceAnswer.octets answers ++ b.buffered ++ b.unread = octetsOf script
  /-- Consuming drops octets from the front, as many as it is told to or all there are. -/
  consume (n : Nat) : (b.call (.consume n)).1 = .consumed (b.buffered.take n) ∧
    (b.consume n).buffered = b.buffered.drop (min n b.buffered.length) ∧
    (b.consume n).script = b.script ∧ (b.consume n).reads = b.reads
  /-- A filling that succeeds puts as many octets behind what is buffered as it returns. -/
  fill_ok {max k : Nat} {b' : ReadAhead} (h : b.fill max = (.ok k, b')) :
    ∃ data, data.length = k ∧ k ≤ Nat.max max 1 ∧ b'.buffered = b.buffered ++ data ∧
      b.unread = data ++ b'.unread
  /-- A filling that fails leaves what is buffered and what was not delivered yet. -/
  fill_error {max : Nat} {cause : Failure} {b' : ReadAhead} (h : b.fill max = (.error cause, b')) :
    b'.buffered = b.buffered ∧ b'.unread = b.unread
  /-- Who gives up the buffer is left with exactly what is buffered. -/
  release : b.release = (b.script, b.buffered)

variable {script : List Delivery} {answers : List SourceAnswer} {b b' : ReadAhead}

/-- A filling of the buffer is one of the source that it is. -/
theorem toSource_of_fill {max : Nat} {result : Except Failure Nat} (h : b.fill max = (result, b')) :
    b.toSource.fill max = (result, b'.toSource) := by
  rw [toSource_fill, h]

/-- A buffer that has lost nothing so far will lose nothing. -/
theorem conserves_of_octets
    (h : SourceAnswer.octets answers ++ b.toSource.stream = octetsOf script) :
    Conserves script answers b where
  octets := by
    rw [List.append_assoc]
    exact h
  consume n := by
    have hsource := b.toSource_consume n
    have hbuffer : (b.consume n).buffered = b.buffered.drop n := congrArg Source.buffer hsource
    refine ⟨rfl, ?_, congrArg Source.script hsource, congrArg Source.reads hsource⟩
    rw [hbuffer, List.drop_eq_drop_min]
  fill_ok h := Source.exists_of_fill_ok (toSource_of_fill h)
  fill_error h := Source.of_fill_error (toSource_of_fill h)
  release := b.toSource_release

/-- **A buffer loses nothing, doubles nothing and keeps the order**, whatever the transport does and
in whatever turns it is filled and consumed. And where the transport is interrupted, the same is
returned, buffered and left as if it were not, and only the reads are more, by as many as it was
interrupted so far. -/
theorem conserves_run (script : List Delivery) (calls : List SourceCall) :
    Conserves script ((ofScript script).run calls).1 ((ofScript script).run calls).2 ∧
      ((ofScript (calm script)).run calls).1 = ((ofScript script).run calls).1 ∧
      Source.Calmed (interruptions script) ((ofScript script).run calls).2.toSource
        ((ofScript (calm script)).run calls).2.toSource := by
  have hrun := (ofScript script).toSource_run calls
  have hrun' := (ofScript (calm script)).toSource_run calls
  rw [toSource_ofScript] at hrun hrun'
  have hcalmed : Source.Calmed (interruptions script) (Source.ofScript script)
      (Source.ofScript (calm script)) := ⟨rfl, rfl, rfl⟩
  obtain ⟨hanswers, hlast⟩ := hcalmed.run calls
  rw [hrun, hrun'] at hanswers hlast
  have hoctets := (Source.ofScript script).octets_run calls
  rw [hrun] at hoctets
  exact ⟨conserves_of_octets hoctets, hanswers, hlast⟩

/-- What is left of the first filling moves to the front of the store before the second. -/
example :
    ((ofScript [.octets [1, 2, 3], .failure ⟨.interrupted, ""⟩, .octets [4]]).run
      [.fill 4, .consume 2, .fill 4]).2 = ⟨[3, 4], 0, [], 3, by decide⟩ := by
  decide

end ReadAhead

end HttpFraming
