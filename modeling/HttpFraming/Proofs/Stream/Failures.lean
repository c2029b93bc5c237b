import Mathlib.Data.Prod.Basic
import Mathlib.Order.Nat
import HttpFraming.Proofs.Stream.Resumption

/-!
# Failures cost nothing of a body

A transport may fail between any two reads, and go on. Failures put in there come out as failures
put in between the reads of a body, and as nothing else. `unimpaired_of_disturbed` says so for every
framing, and in four ways:

* Reads, one after the other (`BodyReader.Behind.calls`): what they return is what some reads return
  without the failures, with reads that fail put in. The sizes of those that fail are left out.
* One read that fails (`BodyReader.Spared`): it hands out nothing and takes nothing away.
* Reading on after failures (`BodyReader.Behind.persist`): whoever does gets the same data, comes to
  the same end, and leaves the same octets, even with destinations of other sizes.
* Reading to the end, and again to the end after each failure (`BodyReader.readThrough`): this is
  the same as to persist (`readThrough_eq`), and so comes to the same, too.

## What carries the inductions

A reader that has failed is not where the other one is, since it may have decoded some framing
already. So the relation that is kept is `Behind`, of which `HttpFraming.Proofs.Stream.Resumption`
shows that one read of the reader ahead fails and leaves it ahead, or does what a read of the other
does. The recursion is on the rank of the reader that is ahead: in the first case only that one has
been read, and its rank is lower because the failure is used up.
-/

namespace HttpFraming

namespace BodyReader

variable {r r' : BodyReader} {n : Nat}

/-! ### One read after the other -/

/-- One of several reads: the size of its destination, and what it returned. -/
structure Call where
  size : Nat
  result : Except ReadError Octets

/-- What comes of reads into destinations of some sizes, and the reader after them. -/
def calls (r : BodyReader) : List Nat → List Call × BodyReader
  | [] => ([], r)
  | n :: sizes =>
    let later := (r.readSome n).2.calls sizes
    (⟨n, (r.readSome n).1⟩ :: later.1, later.2)

theorem Tidy.calls (hr : r.Tidy) (sizes : List Nat) : (r.calls sizes).2.Tidy := by
  induction sizes generalizing r with
  | nil => exact hr
  | cons n sizes ih => exact ih (hr.of_readSome rfl)

/-- The second reads are the first, and in between some that failed with the transport. -/
inductive FailuresIn : List Call → List Call → Prop
  | nil : FailuresIn [] []
  | same (call : Call) {calls calls' : List Call} (rest : FailuresIn calls calls') :
    FailuresIn (call :: calls) (call :: calls')
  | failed (n : Nat) (cause : Failure) {calls calls' : List Call}
    (rest : FailuresIn calls calls') : FailuresIn calls (⟨n, .error (.transport cause)⟩ :: calls')

/-- **Failures of the transport come out as reads that fail**, and as nothing else. -/
theorem Behind.calls (sizes : List Nat) (hsizes : ∀ n ∈ sizes, n ≠ 0) (h : Behind r r') :
    ∃ fewer, FailuresIn (r.calls fewer).1 (r'.calls sizes).1 := by
  induction sizes generalizing r r' with
  | nil => exact ⟨[], .nil⟩
  | cons n sizes ih =>
    obtain ⟨hn, hrest⟩ := List.forall_mem_cons.1 hsizes
    cases h.resumes hn with
    | @fails cause r₁' hread' hbehind =>
      obtain ⟨fewer, hfewer⟩ := ih hrest hbehind
      refine ⟨fewer, ?_⟩
      rw [BodyReader.calls, hread']
      exact .failed n cause hfewer
    | @same result r₁ r₁' hread hread' hdisturbed =>
      obtain ⟨fewer, hfewer⟩ := ih hrest hdisturbed.behind
      refine ⟨n :: fewer, ?_⟩
      rw [BodyReader.calls, BodyReader.calls, hread, hread']
      exact .same ⟨n, result⟩ hfewer

/-- Two readers show the same trailers, and leave the same octets in their sources. -/
structure SamePlace (r r' : BodyReader) : Prop where
  trailers : r'.trailers? = r.trailers?
  buffer : r'.source.buffer = r.source.buffer
  unread : r'.source.unread = r.source.unread

theorem Disturbed.samePlace (h : Disturbed r r') : SamePlace r r' := by
  cases h with
  | bound hs | chunked hs | untilEof hs => exact ⟨rfl, hs.buffer, hs.unread_eq⟩

/-- Two bodies were read with the same data, stopped in the same way, and left the same. -/
structure Drained.Same (d d' : Drained) : Prop where
  data : d'.data = d.data
  stop : d'.stop = d.stop
  place : SamePlace d.reader d'.reader

theorem Drained.Same.prepend {d d' : Drained} (h : Drained.Same d d') (data : Octets) :
    (d.prepend data).Same (d'.prepend data) :=
  ⟨congrArg (data ++ ·) h.data, h.stop, h.place⟩

/-- **Who goes on after failures misses nothing.** A read of the reader that is ahead is one that
failed, or one of the other reader. -/
theorem Behind.persist {r r' : BodyReader} (h : Behind r r') (hr : r.Tidy)
    (sizes sizes' : ReadSizes) : (r.persist sizes).Same (r'.persist sizes') := by
  cases h.resumes (sizes'.ne_zero 0) with
  | @fails cause r₁' hread' hbehind =>
    have hlt := rank_lt_of_transport hread'
    -- Only the reader that is ahead has been read. It is still ahead, with the failure used up.
    rw [persist_of_transport hread']
    exact Behind.persist hbehind hr _ _
  | @same result r₁ r₁' hread hread' hdisturbed =>
    have htidy : r₁.Tidy := hr.of_readSome hread
    -- The first reader has not been read yet, and may as well be read with the sizes of the other.
    rw [persist_sizes r hr sizes sizes']
    rcases result with (_ | _ | _ | _ | cause) | data
    case ok =>
      have hlt := rank_readSome_lt (sizes'.ne_zero 0) hread'
      rw [persist_of_ok hread, persist_of_ok hread']
      exact (Behind.persist hdisturbed.behind htidy _ _).prepend data
    case error.transport =>
      have hlt := rank_lt_of_transport hread'
      rw [persist_of_transport hread, persist_of_transport hread']
      exact Behind.persist hdisturbed.behind htidy _ _
    all_goals
      rw [persist_of_stop (by simp) hread, persist_of_stop (by simp) hread']
      exact ⟨rfl, rfl, hdisturbed.samePlace⟩
termination_by r'.rank
decreasing_by
  all_goals exact hlt

/-! ### Reading to the end, again and again -/

/-- What was read is handed out with the error, and the reading can be taken up again. -/
theorem rank_readRest_lt {cause : Failure} (h : (r.readRest n).error? = some (.transport cause)) :
    Prod.Lex (· < ·) (· < ·) (r.readRest n).reader.rank r.rank := by
  fun_induction readRest r n with
  | case1 r r' hread => cases h
  | case2 r e r' hne hread =>
    obtain rfl := Option.some.inj h
    exact rank_lt_of_transport hread
  | case3 r r' hread => cases h
  | case4 r b data r' hread rest ih =>
    have hlt := rank_readSome_lt (ne_zero_of_readSome hread) hread
    exact Prod.Lex.trans (ih h) hlt

/-- Reads the rest of a body, and again what is left when the transport fails. -/
def readThrough (r : BodyReader) : Rest :=
  match _h : r.readToEnd.error? with
  | some (.transport _) =>
    let later := r.readToEnd.reader.readThrough
    { later with data := r.readToEnd.data ++ later.data }
  | _ => r.readToEnd
termination_by r.rank
decreasing_by exact rank_readRest_lt _h

/-- The end of the body is no error for who wants all of it. -/
def Drained.toRest (d : Drained) : Rest :=
  ⟨d.data, if d.stop.isEof then none else some d.stop, d.reader⟩

/-- A read that succeeds hands out something. -/
theorem Tidy.ne_nil {data : Octets} (hr : r.Tidy) (hn : n ≠ 0)
    (h : r.readSome n = (.ok data, r')) : data ≠ [] := by
  cases turn hr with
  | offers offers hread _ =>
    cases (hread n hn).symm.trans h
    exact List.take_eq_nil_iff.not.2 (not_or.2 ⟨hn, offers.ne⟩)
  | stops hread _ => cases (hread n hn).symm.trans h

/-- **What comes of reading the rest of a body**, next to what comes of persisting: it fails, and to
persist is to go on, or it stops in the same way. -/
inductive Persists (r : BodyReader) (sizes : ReadSizes) (rest : Rest) : Prop
  | fails {cause : Failure} (error? : rest.error? = some (.transport cause))
    (tidy : rest.reader.Tidy)
    (persist : r.persist sizes = (rest.reader.persist sizes).prepend rest.data)
  | stops (error? : ∀ cause, rest.error? ≠ some (.transport cause))
    (persist : rest = (r.persist sizes).toRest)

/-- To read the rest with destinations of one size is to persist up to the first failure. -/
theorem persists_readRest (hr : r.Tidy) (hn : n ≠ 0) :
    Persists r (.const n hn) (r.readRest n) := by
  have hone (r : BodyReader) : r.readSome ((ReadSizes.const n hn).size 0) = r.readSome n := rfl
  fun_induction readRest r n with
  | case1 r r' hread =>
    rw [← hone] at hread
    exact .stops (by simp) (by rw [persist_of_stop (by simp) hread]; rfl)
  | case2 r e r' hne hread =>
    have htidy : r'.Tidy := hr.of_readSome hread
    rw [← hone] at hread
    rcases e with _ | _ | _ | _ | cause
    case transport => exact .fails rfl htidy (persist_of_transport hread)
    case eof => exact absurd rfl hne
    all_goals exact .stops (by simp) (by rw [persist_of_stop (by simp) hread]; rfl)
  | case3 r r' hread => exact absurd rfl (hr.ne_nil hn hread)
  | case4 r b data r' hread rest ih =>
    have htidy : r'.Tidy := hr.of_readSome hread
    rw [← hone] at hread
    have hpersist := persist_of_ok hread
    cases ih htidy with
    | fails herror htidy' hlater =>
      refine .fails herror htidy' ?_
      rw [hpersist, ← Drained.prepend_prepend]
      exact congrArg (Drained.prepend (b :: data)) hlater
    | stops herror hlater =>
      refine .stops herror ?_
      rw [hpersist, show rest = (r'.persist (.const n hn)).toRest from hlater]
      rfl

/-- After a failure, what is read later comes behind what was read before it. -/
theorem readThrough_of_transport {cause : Failure}
    (h : r.readToEnd.error? = some (.transport cause)) :
    r.readThrough = { r.readToEnd.reader.readThrough with
      data := r.readToEnd.data ++ r.readToEnd.reader.readThrough.data } := by
  rw [readThrough]
  split
  · rfl
  · rename_i hnot
    exact absurd h (hnot cause)

/-- Where the transport does not fail, to read to the end once is enough. -/
theorem readThrough_of_ne (h : ∀ cause, r.readToEnd.error? ≠ some (.transport cause)) :
    r.readThrough = r.readToEnd := by
  rw [readThrough]
  split
  · rename_i cause herror
    exact absurd herror (h cause)
  · rfl

/-- To read to the end, again and again, is to persist. -/
theorem readThrough_eq (r : BodyReader) (hr : r.Tidy) (sizes : ReadSizes) :
    r.readThrough = (r.persist sizes).toRest := by
  have hsize : copySize ≠ 0 := by decide
  rw [persist_sizes r hr sizes (.const copySize hsize)]
  cases persists_readRest hr hsize with
  | @fails cause herror htidy hlater =>
    have hlt := rank_readRest_lt herror
    rw [readThrough_of_transport herror, hlater,
      readThrough_eq r.readToEnd.reader htidy (.const copySize hsize)]
    rfl
  | stops herror hlater =>
    rw [readThrough_of_ne herror]
    exact hlater
termination_by r.rank
decreasing_by exact hlt

/-- Two bodies were read to the end with the same data and the same error, and left the same. -/
structure Rest.Same (rest rest' : Rest) : Prop where
  data : rest'.data = rest.data
  error? : rest'.error? = rest.error?
  place : SamePlace rest.reader rest'.reader

theorem Drained.Same.toRest {d d' : Drained} (h : d.Same d') : d.toRest.Same d'.toRest :=
  ⟨h.data, congrArg (fun e ↦ if e.isEof then none else some e) h.stop, h.place⟩

/-! ### Bodies of any framing -/

/-- The reader of a body of some framing that has read nothing. -/
def ofSize (size : BodySize) (options : ReadOptions) (s : Source) : BodyReader :=
  match size with
  | .contentLength n => .bound (.new options n s)
  | .transferEncoding => .chunked (.new options s)
  | .untilEof => .untilEof (.new options s)

/-- A reader that has read nothing is tidy. -/
theorem tidy_ofSize (size : BodySize) (options : ReadOptions) (s : Source) :
    Tidy (ofSize size options s) := by
  cases size with
  | contentLength n => exact tidy_bound
  | transferEncoding => exact ⟨.new options.limits, fun w hw ↦ by cases hw⟩
  | untilEof => exact tidy_untilEof

/-- Readers of sources with and without failures differ in nothing but their sources. -/
theorem disturbed_ofSize (size : BodySize) {options : ReadOptions} {s s' : Source}
    (h : s.Disturbed options.bufferSize s') :
    Disturbed (ofSize size options s) (ofSize size options s') := by
  cases size with
  | contentLength n => exact .bound (r := .new options n s) h
  | transferEncoding => exact .chunked (r := .new options s) h
  | untilEof => exact .untilEof (r := .new options s) h

/-- The reader `r'` reads a body as `r` does, but for reads that fail with the transport. -/
structure Unimpaired (r r' : BodyReader) : Prop where
  /-- Reads into any destinations that are not empty return what reads into some of them return
  without the failures, and in between they fail. -/
  calls : ∀ sizes, (∀ n ∈ sizes, n ≠ 0) →
    ∃ fewer, FailuresIn (r.calls fewer).1 (r'.calls sizes).1
  /-- A read that fails takes nothing away, whatever was read before. -/
  spared : ∀ sizes n cause r₁', (r'.calls sizes).2.readSome n = (.error (.transport cause), r₁') →
    Spared (r'.calls sizes).2 r₁'
  /-- Who goes on after failures gets the same data, the same end, the same trailers and the same
  octets left, whatever the sizes of the destinations. Without failures, that is to read as usual
  (`persist_eq_drain`, `readThrough_of_ne`). -/
  persist : ∀ sizes sizes', (r.persist sizes).Same (r'.persist sizes')
  /-- So does who reads to the end, and does so again after failures. -/
  readThrough : r.readThrough.Same r'.readThrough

/-- **Failures of the transport cost nothing of a body**, whatever its framing, wherever they are
put in, and however many. -/
theorem unimpaired_of_disturbed (size : BodySize) (options : ReadOptions) {s s' : Source}
    (h : s.Disturbed options.bufferSize s') :
    Unimpaired (ofSize size options s) (ofSize size options s') := by
  have hbehind : Behind (ofSize size options s) (ofSize size options s') :=
    (disturbed_ofSize size h).behind
  have htidy : Tidy (ofSize size options s) := tidy_ofSize size options s
  have htidy' : Tidy (ofSize size options s') := tidy_ofSize size options s'
  have hpersist := hbehind.persist htidy
  refine ⟨fun sizes hsizes ↦ hbehind.calls sizes hsizes, fun sizes n cause r₁' hread ↦ ?_,
    hpersist, ?_⟩
  · exact spared_of_transport (htidy'.calls sizes) hread
  · have hsize : copySize ≠ 0 := by decide
    rw [readThrough_eq _ htidy (.const copySize hsize),
      readThrough_eq _ htidy' (.const copySize hsize)]
    exact (hpersist _ _).toRest

/-- What a transport says that does not answer in time. -/
def timeout : Failure :=
  ⟨.other "TimedOut", "timed out"⟩

/-- A chunk with the data `ab`, the last chunk, and one octet more, of which two octets are asked
for at a time. The transport fails before all, and within the chunk. -/
theorem unimpaired_of_timeouts :
    Source.Disturbed 2
        (.ofScript [.octets [0x32, 0x0A, 0x61, 0x62, 0x0A, 0x30, 0x0A, 0x0A, 0x58]])
        (.ofScript [.failure timeout, .octets [0x32, 0x0A], .octets [0x61, 0x62],
          .failure timeout, .failure timeout, .octets [0x0A, 0x30, 0x0A, 0x0A, 0x58]]) ∧
      Unimpaired
        (ofSize .transferEncoding ⟨.standard, 2⟩
          (.ofScript [.octets [0x32, 0x0A, 0x61, 0x62, 0x0A, 0x30, 0x0A, 0x0A, 0x58]]))
        (ofSize .transferEncoding ⟨.standard, 2⟩
          (.ofScript [.failure timeout, .octets [0x32, 0x0A], .octets [0x61, 0x62],
            .failure timeout, .failure timeout, .octets [0x0A, 0x30, 0x0A, 0x0A, 0x58]])) := by
  have hkind : timeout.kind ≠ .interrupted := by decide
  have hdisturbed : Source.Disturbed 2
      (.ofScript [.octets [0x32, 0x0A, 0x61, 0x62, 0x0A, 0x30, 0x0A, 0x0A, 0x58]])
      (.ofScript [.failure timeout, .octets [0x32, 0x0A], .octets [0x61, 0x62],
        .failure timeout, .failure timeout, .octets [0x0A, 0x30, 0x0A, 0x0A, 0x58]]) :=
    ⟨rfl, .insert timeout hkind (.cut _ (by decide) (.cut _ (by decide)
      (.insert timeout hkind (.insert timeout hkind (.keep _ .nil)))))⟩
  exact ⟨hdisturbed, unimpaired_of_disturbed .transferEncoding ⟨.standard, 2⟩ hdisturbed⟩

end BodyReader

end HttpFraming
