import HttpFraming.Proofs.Stream.Reads

/-!
# When a transport is asked

A read from a transport that has nothing to say blocks, so a reader must not ask for octets that it
does not need. To say so, one has to know at which moments a reader asks.

## Logs

A log of a run is the list of the sources that it filled, each as it was then, and `Source.History`
says what it means for a log to be complete: between two entries nothing but consuming has happened.
So a log misses no read of the transport, and one that is empty belongs to a run that has not asked
at all (`Source.History.eq_nil_iff`). The entries are whole sources, not counts, because what is to
be said of them is what had been received when they were filled (`Source.receivedBy`).

## Patience

`Source.Patient` is what is to be shown of a log. Each time, nothing was buffered, and what had been
received until then was not enough. What is enough depends on the reader, and is told of all that
was received, in whatever pieces, and not of the state of the reader. So it is a property of octets,
and what a reader makes of them has no part in it.

## Heads

Heads are read patiently (`HeadReader.readsPatiently`): the parser of a head is done as soon as the
octets say so. The log of reading a head is `HeadReader.asks`, which recurses as the reader does,
and `patient_readWith` is the induction along it. Its invariant ties a parser that is half way
through to one that reads all octets from the start: what is left to the first is what the second
has still to read after the octets received. Two facts of the parsers keep it: pieces may be joined
(`HeadParser.done_append_of_not_done`), and a parser that is not done has taken all it was fed
(`buffer_feedBuffer`). The chunked body readers have a log of their own, in
`HttpFraming.Proofs.Stream.Patience`.
-/

namespace HttpFraming

/-- Whatever a transport does, to read from it is at least one read. -/
theorem Reception.reads_ofScript_pos (max : Nat) (script : List Delivery) :
    0 < (ofScript max script).reads := by
  cases script with
  | nil => exact Nat.one_pos
  | cons d rest =>
    cases d with
    | octets data => exact Nat.one_pos
    | failure cause =>
      rw [ofScript]
      split
      · exact Nat.succ_pos _
      · exact Nat.one_pos

namespace Source

variable {s t u v : Source} {asked later : List Source} {max n : Nat} {enough : Octets → Prop}

/-! ### Logs -/

/-- How a source has become another by consuming octets, and by filling the buffer of the sources
`asked` in their order. -/
inductive History (max : Nat) : Source → List Source → Source → Prop
  | consume (s : Source) (n : Nat) : History max s [] (s.consume n)
  | fill (s : Source) (n : Nat) {asked : List Source} {t : Source}
    (later : History max ((s.consume n).fill max).2 asked t) :
    History max s (s.consume n :: asked) t

/-- A source that is left alone has an empty log. -/
theorem History.refl (max : Nat) (s : Source) : History max s [] s :=
  .consume s 0

/-- What is consumed before a run is consumed in it. -/
theorem History.of_consume (h : History max (s.consume n) asked t) : History max s asked t := by
  obtain ⟨s', hs'⟩ : ∃ s', s.consume n = s' := ⟨_, rfl⟩
  rw [hs'] at h
  cases h with
  | consume _ m =>
    rw [← hs', consume_consume]
    exact .consume s (n + m)
  | fill _ m hlater =>
    rw [← hs', consume_consume] at hlater ⊢
    exact .fill s (n + m) hlater

theorem History.trans (h : History max s asked t) (h' : History max t later u) :
    History max s (asked ++ later) u := by
  induction h with
  | consume s n => exact h'.of_consume
  | fill s n _ ih => exact .fill s n (ih h')

/-- Where a transport was not asked, it is as it was. -/
theorem History.eq_consume (h : History max s [] t) : ∃ n, t = s.consume n := by
  cases h with
  | consume _ n => exact ⟨n, rfl⟩

theorem reads_lt_fill (s : Source) (max : Nat) : s.reads < (s.fill max).2.reads := by
  have hpos : 0 < (Reception.ofScript (Nat.max max 1) s.script).reads :=
    Reception.reads_ofScript_pos _ _
  simp only [fill]
  split <;> exact Nat.lt_add_of_pos_right hpos

/-- Each entry of a log is a read that the transport has seen, if not several after
interruptions. -/
theorem History.length_le_reads (h : History max s asked t) :
    s.reads + asked.length ≤ t.reads := by
  induction h with
  | consume s n => exact Nat.le_refl s.reads
  | fill s n _ ih =>
    have hlt : s.reads < ((s.consume n).fill max).2.reads := reads_lt_fill (s.consume n) max
    rw [List.length_cons]
    omega

/-- A log misses no read: it is empty exactly where the transport has seen none. -/
theorem History.eq_nil_iff (h : History max s asked t) : asked = [] ↔ t.reads = s.reads := by
  constructor
  · rintro rfl
    obtain ⟨n, rfl⟩ := h.eq_consume
    rfl
  · intro hreads
    have hlength := h.length_le_reads
    exact List.length_eq_zero_iff.1 (by omega)

/-! ### What was received -/

/-- All octets that a source had received when it became `t`: those that it had buffered, and those
that its transport has brought since. -/
def receivedBy (s t : Source) : Octets :=
  s.buffer ++ s.unread.take (s.unread.length - t.unread.length)

theorem receivedBy_self (s : Source) : s.receivedBy s = s.buffer := by
  rw [receivedBy, Nat.sub_self, List.take_zero, List.append_nil]

theorem receivedBy_consume (s t : Source) (n : Nat) :
    s.receivedBy (t.consume n) = s.receivedBy t := rfl

theorem receivedBy_of_append {brought : Octets} (h : s.unread = brought ++ t.unread) :
    s.receivedBy t = s.buffer ++ brought := by
  rw [receivedBy, h, List.length_append, Nat.add_sub_cancel, List.take_left]

/-- Octets that move from the transport to the buffer are received in addition. -/
theorem receivedBy_append {brought : Octets} (hsuffix : t.unread <:+ s.unread)
    (h : t.unread = brought ++ u.unread) :
    s.receivedBy u = s.receivedBy t ++ brought ∧ u.unread <:+ s.unread := by
  obtain ⟨before, hbefore⟩ := hsuffix
  have hunread : s.unread = (before ++ brought) ++ u.unread := by
    rw [← hbefore, h, List.append_assoc]
  rw [receivedBy_of_append hbefore.symm, receivedBy_of_append hunread, List.append_assoc]
  exact ⟨rfl, _, hunread.symm⟩

/-! ### Patience -/

/-- From `t` to `u`, the transport of a source that was `s` at first was asked only when nothing was
buffered, and only as long as what it had received was not enough. -/
structure Patient (max : Nat) (enough : Octets → Prop) (s t : Source) (asked : List Source)
    (u : Source) : Prop where
  history : History max t asked u
  buffer_eq_nil : ∀ x ∈ asked, x.buffer = []
  not_enough : ∀ x ∈ asked, ¬ enough (s.receivedBy x)

theorem Patient.consume (t : Source) (n : Nat) : Patient max enough s t [] (t.consume n) :=
  ⟨.consume t n, List.forall_mem_nil _, List.forall_mem_nil _⟩

theorem Patient.refl (t : Source) : Patient max enough s t [] t :=
  .consume t 0

theorem Patient.trans (h : Patient max enough s t asked u) (h' : Patient max enough s u later v) :
    Patient max enough s t (asked ++ later) v :=
  ⟨h.history.trans h'.history, List.forall_mem_append.2 ⟨h.buffer_eq_nil, h'.buffer_eq_nil⟩,
    List.forall_mem_append.2 ⟨h.not_enough, h'.not_enough⟩⟩

/-- To ask once, when nothing is buffered and more is needed. -/
theorem Patient.fill (hbuffer : t.buffer = []) (henough : ¬ enough (s.receivedBy t)) :
    Patient max enough s t [t] (t.fill max).2 :=
  ⟨.fill t 0 (.refl max _), List.forall_mem_singleton.2 hbuffer,
    List.forall_mem_singleton.2 henough⟩

/-- Where enough was received, a patient reader does not ask. -/
theorem Patient.eq_nil (h : Patient max enough s t asked u) (henough : enough (s.receivedBy t)) :
    asked = [] := by
  cases h.history with
  | consume => rfl
  | fill _ n => exact absurd henough (h.not_enough (t.consume n) List.mem_cons_self)

/-- Then the transport is left as it was. -/
theorem Patient.untouched (h : Patient max enough s t asked u) (henough : enough (s.receivedBy t)) :
    u.script = t.script ∧ u.reads = t.reads := by
  obtain rfl := h.eq_nil henough
  obtain ⟨n, rfl⟩ := h.history.eq_consume
  exact ⟨rfl, rfl⟩

end Source

/-! ### Heads -/

namespace HeadParser

variable {H : Type} [ReadableHead H] {p : HeadParser H}

/-- A verdict tells whether a parser is done. -/
theorem done_eq_of_verdict_eq {q : HeadParser H} (h : p.verdict = q.verdict) : p.done = q.done := by
  cases hp : p.stage <;> cases hq : q.stage <;> simp_all [verdict, done]

/-- Whether a parser is done with two pieces, it tells when it has read the first. -/
theorem done_append_of_not_done (hp : Live p) (hpart : ReadableHead.part H ≠ .chunkedBody)
    {a : Octets} (h : (p.parse a).1.done = false) (b : Octets) :
    (p.parse (a ++ b)).1.done = ((p.parse a).1.parse b).1.done :=
  done_eq_of_verdict_eq (congrArg Prod.fst (outcome_append_of_not_done hp hpart h b))

end HeadParser

namespace HeadReader

open HeadParser (Live)

variable {H : Type} [ReadableHead H] {p p₀ : HeadParser H} {s s₀ : Source} {max : Nat}

/-- The log of reading on with a parser. -/
def asks (max : Nat) (p : HeadParser H) (s : Source) : List Source :=
  let fed := feedBuffer p s
  if fed.1.done then []
  else
    match _h : fed.2.fill max with
    | (.ok (_ + 1), s') => fed.2 :: asks max fed.1 s'
    | (.ok 0, _) | (.error _, _) => [fed.2]
termination_by Delivery.weight s.script
decreasing_by
  have hlt := Source.weight_fill_lt _h
  rw [script_feedBuffer] at hlt
  exact hlt

section Equations

variable {s' : Source}

/-- A parser that is done with what is buffered does not ask. -/
theorem asks_of_done (hdone : (feedBuffer p s).1.done = true) : asks max p s = [] := by
  rw [asks, if_pos hdone]

/-- Where the source has ended or fails, reading ends with asking it. -/
theorem asks_of_stop (hdone : (feedBuffer p s).1.done = false)
    (hstop : ∀ n s', (feedBuffer p s).2.fill max ≠ (.ok (n + 1), s')) :
    asks max p s = [(feedBuffer p s).2] := by
  rw [asks, if_neg (Bool.eq_false_iff.1 hdone)]
  split
  · exact absurd ‹_› (hstop _ _)
  · rfl
  · rfl

/-- Where the transport brings something, it is one entry, and the rest is read on after it. -/
theorem asks_of_fill {n : Nat} (hdone : (feedBuffer p s).1.done = false)
    (hfill : (feedBuffer p s).2.fill max = (.ok (n + 1), s')) :
    asks max p s = (feedBuffer p s).2 :: asks max (feedBuffer p s).1 s' := by
  rw [asks, if_neg (Bool.eq_false_iff.1 hdone)]
  split
  · obtain ⟨-, rfl⟩ := Prod.mk.inj (hfill.symm.trans ‹_›)
    rfl
  all_goals cases hfill.symm.trans ‹_›

end Equations

/-- A parser that needs more asks for it in time. -/
theorem patient_feedBuffer (hp : Live p) (hpart : ReadableHead.part H ≠ .chunkedBody) {w : Octets}
    (hfollows : ∀ b, (p₀.parse (w ++ b)).1.done = (p.parse b).1.done)
    (hreceived : s₀.receivedBy s = w ++ s.buffer) (hdone : (feedBuffer p s).1.done = false)
    {result : Except Failure Nat} {s' : Source}
    (hfill : (feedBuffer p s).2.fill max = (result, s')) :
    s₀.Patient max (fun w ↦ (p₀.parse w).1.done = true) s [(feedBuffer p s).2] s' := by
  obtain rfl : ((feedBuffer p s).2.fill max).2 = s' := congrArg Prod.snd hfill
  have hbuffer : (feedBuffer p s).2.buffer = [] := (buffer_feedBuffer hp hpart hdone).2
  rw [feedBuffer_eq hp hpart] at hdone hbuffer ⊢
  refine (Source.Patient.consume s _).trans (.fill hbuffer ?_)
  rw [Source.receivedBy_consume, hreceived, hfollows]
  exact Bool.eq_false_iff.1 hdone

/-- What is left to a parser that needs more is what is left of the octets behind those that it was
fed. -/
theorem follows_feedBuffer (hp : Live p) (hpart : ReadableHead.part H ≠ .chunkedBody) {w : Octets}
    (hfollows : ∀ b, (p₀.parse (w ++ b)).1.done = (p.parse b).1.done)
    (hdone : (feedBuffer p s).1.done = false) (b : Octets) :
    (p₀.parse (w ++ s.buffer ++ b)).1.done = ((feedBuffer p s).1.parse b).1.done := by
  rw [feedBuffer_eq hp hpart] at hdone ⊢
  rw [List.append_assoc, hfollows]
  exact HeadParser.done_append_of_not_done hp hpart hdone b

/-- **A head is read patiently**, from any octet on: what is left to the parser `p` is what a parser
`p₀` has still to read after the octets `w`. -/
theorem patient_readWith (hpart : ReadableHead.part H ≠ .chunkedBody) (max : Nat) (received : Bool)
    (hp : Live p) : ∀ {w}, (∀ b, (p₀.parse (w ++ b)).1.done = (p.parse b).1.done) →
      s₀.receivedBy s = w ++ s.buffer → s.unread <:+ s₀.unread →
      s₀.Patient max (fun w ↦ (p₀.parse w).1.done = true) s (asks max p s)
        (readWith max p s received).2 := by
  fun_induction readWith max p s received with
  | case1 p s received fed hdone =>
    intro w hfollows hreceived hsuffix
    rw [asks_of_done hdone]
    simp only [fed, feedBuffer_eq hp hpart]
    -- The head is complete, and the reader has consumed no more than the octets that belong to it.
    exact .consume s _
  | case2 p s received fed hdone cause s' hfill =>
    intro w hfollows hreceived hsuffix
    have hdone' : fed.1.done = false := eq_false_of_ne_true hdone
    rw [asks_of_stop hdone' fun n s'' h ↦ by cases hfill.symm.trans h]
    exact patient_feedBuffer hp hpart hfollows hreceived hdone' hfill
  | case3 p s _ received fed hdone s' =>
    rename_i hfill
    intro w hfollows hreceived hsuffix
    have hdone' : fed.1.done = false := eq_false_of_ne_true hdone
    rw [asks_of_stop hdone' fun n s'' h ↦ by cases hfill.symm.trans h]
    exact patient_feedBuffer hp hpart hfollows hreceived hdone' hfill
  | case4 p s _ received fed hdone n s' hfill =>
    rename_i ih
    intro w hfollows hreceived hsuffix
    have hdone' : fed.1.done = false := eq_false_of_ne_true hdone
    obtain ⟨hlive, hbuffer⟩ := buffer_feedBuffer hp hpart hdone'
    obtain ⟨brought, hbrought, hunread⟩ := Source.received_fill fed.2 max
    rw [hfill, hbuffer, List.nil_append] at hbrought
    rw [hfill, unread_feedBuffer] at hunread
    obtain ⟨hreceived', hsuffix'⟩ := Source.receivedBy_append hsuffix hunread
    rw [hreceived, ← hbrought] at hreceived'
    -- The step of the induction: the octets received are what was received before and what this
    -- read has brought, and the parser behind them stands where the whole of them leads.
    rw [asks_of_fill hdone' hfill]
    exact (patient_feedBuffer hp hpart hfollows hreceived hdone' hfill).trans
      (ih hlive (follows_feedBuffer hp hpart hfollows hdone') hreceived' hsuffix')

/-- **How a head is read**, as to what is asked for: only what the head needs. A head that is
buffered already is returned, and nothing but its octets is taken from the source. -/
structure ReadsPatiently (H : Type) [ReadableHead H] (options : ReadOptions) (s : Source) :
    Prop where
  patient : s.Patient options.bufferSize
    (fun w ↦ ((HeadParser.new options.limits : HeadParser H).parse w).1.done = true) s
    (asks options.bufferSize (.new options.limits : HeadParser H) s) (readHead H options s).2
  of_complete : ∀ head,
    ((HeadParser.new options.limits : HeadParser H).parse s.buffer).1.head? = some head →
      readHead H options s = (.ok head,
        s.consume ((HeadParser.new options.limits : HeadParser H).parse s.buffer).2)

/-- A head that is buffered as a whole is returned without a read, and only its octets are
consumed. -/
theorem readHead_of_head? (hpart : ReadableHead.part H ≠ .chunkedBody) {options : ReadOptions}
    {head : H}
    (h : ((HeadParser.new options.limits : HeadParser H).parse s.buffer).1.head? = some head) :
    readHead H options s = (.ok head,
      s.consume ((HeadParser.new options.limits : HeadParser H).parse s.buffer).2) := by
  have hverdict := HeadParser.verdict_eq_accepted_iff.2 h
  obtain ⟨hdone, -⟩ := HeadParser.of_verdict_accepted hverdict
  have htoExcept : ((HeadParser.new options.limits : HeadParser H).parse s.buffer).1.toExcept =
      .ok head := by
    rcases HeadParser.toExcept_of_done hdone with ⟨head', hverdict', h'⟩ | ⟨e, hverdict', -⟩
    · obtain rfl := Verdict.accepted.inj (hverdict.symm.trans hverdict')
      exact h'
    · cases hverdict.symm.trans hverdict'
  rw [readHead, readWith, feedBuffer_eq (HeadParser.live_new _) hpart, if_pos hdone, htoExcept]
  rfl

/-- **Heads are read patiently**, from any source. -/
theorem readsPatiently (hpart : ReadableHead.part H ≠ .chunkedBody) (options : ReadOptions)
    (s : Source) : ReadsPatiently H options s where
  patient :=
    patient_readWith hpart options.bufferSize false (HeadParser.live_new _) (w := [])
      (fun _ ↦ rfl) (Source.receivedBy_self s) (List.suffix_refl _)
  of_complete _ h := readHead_of_head? hpart h

end HeadReader

end HttpFraming
