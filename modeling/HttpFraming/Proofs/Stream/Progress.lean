import HttpFraming.Proofs.Stream.Drain
import HttpFraming.Proofs.Stream.Head

/-!
# Readers use up their source

No reader makes more of a source than it was, whatever the transport does. A head that is read takes
at least one octet of it (`total_readHead_lt`), and to read a body leaves no more than there was
(`BodyReader.total_readToEnd_le`). So a loop that reads one message after the other comes to an end.

What is measured is `Source.total`, the octets that are buffered and the weight of the script. The
weight counts failures as well as octets, so that a read that fails makes less of the source, too,
and the measure does not depend on whether the transport flows.

A head takes something of its source because a parser that accepts has consumed something
(`HeadParser.consumed_pos_of_accepted`): a head ends with a line end. Nothing of the kind is true of
a body, which may be empty, so a loop over messages relies on the heads alone. The lemmas on bodies
all say the same, that no step makes more of the source, from consuming and supplying up to reading
a body of any framing to its end.
-/

namespace HttpFraming

variable {H : Type} [ReadableHead H]

/-! ### Heads -/

namespace HeadParser

/-- A run that accepts a head has consumed at least the line feed that ends it. -/
theorem pos_of_runVerdict {r : Lexer.Fed (ReadableHead.part H) (HeadDraft H)} {head : H} {n : Nat}
    (h : runVerdict r = (.accepted head, n)) : 0 < n := by
  cases hstage : r.state.stage <;> cases herror : r.lexer.error? <;>
    simp only [runVerdict, hstage, herror, Prod.mk.injEq, reduceCtorEq, false_and] at h
  all_goals
    obtain ⟨-, rfl⟩ := h
    exact Nat.succ_pos _

/-- A call that accepts a head consumes something. -/
theorem consumed_pos_of_accepted {p : HeadParser H} (hp : Live p)
    (hpart : ReadableHead.part H ≠ .chunkedBody) {data : Octets} {head : H}
    (h : (p.parse data).1.verdict = .accepted head) : 0 < (p.parse data).2 := by
  have houtcome : p.outcome data = (.accepted head, (p.parse data).2) := Prod.ext h rfl
  rw [outcome_eq hp hpart] at houtcome
  exact pos_of_runVerdict houtcome

end HeadParser

namespace HeadReader

variable {p : HeadParser H} {s s' : Source} {max : Nat} {received : Bool} {head : H}

/-- To feed a parser makes no more of the source. -/
theorem total_feedBuffer_le (p : HeadParser H) (s : Source) :
    (feedBuffer p s).2.total ≤ s.total := by
  unfold feedBuffer
  split
  · exact Nat.le_refl _
  · simp only [Source.total_consume]
    omega

/-- To read a head makes less of the source: a parser that accepts has consumed something. -/
theorem total_readWith_lt (hp : HeadParser.Live p) (hpart : ReadableHead.part H ≠ .chunkedBody)
    (h : readWith max p s received = (.ok head, s')) : s'.total < s.total := by
  fun_induction readWith max p s received with
  | case1 p s received fed hdone =>
    have hfed : fed = ((p.parse s.buffer).1, s.consume (p.parse s.buffer).2) :=
      feedBuffer_eq hp hpart s
    rw [hfed] at hdone h
    obtain ⟨hresult, rfl⟩ := Prod.mk.inj h
    rcases HeadParser.toExcept_of_done hdone with ⟨head', hverdict, -⟩ | ⟨e, -, he⟩
    · have hpos := HeadParser.consumed_pos_of_accepted hp hpart hverdict
      have hle := p.consumed_parse_le s.buffer
      have htotal : s.buffer.length ≤ s.total := Nat.le_add_left _ _
      rw [Source.total_consume]
      omega
    · rw [he] at hresult
      cases hresult
  | case2 => cases h
  | case3 => cases h
  | case4 p s _ received fed hdone n s'' hfill ih =>
    obtain ⟨hlive, -⟩ := buffer_feedBuffer hp hpart (eq_false_of_ne_true hdone)
    have hfed : fed.2.total ≤ s.total := total_feedBuffer_le p s
    have hfilled := fed.2.total_fill_le max
    rw [hfill] at hfilled
    exact Nat.lt_of_lt_of_le (ih hlive h) (Nat.le_trans hfilled hfed)

end HeadReader

/-- A head that is read takes something of its source. -/
theorem total_readHead_lt (hpart : ReadableHead.part H ≠ .chunkedBody) {options : ReadOptions}
    {s s' : Source} {head : H} (h : readHead H options s = (.ok head, s')) : s'.total < s.total :=
  HeadReader.total_readWith_lt (HeadParser.live_new options.limits) hpart h

/-! ### Bodies -/

namespace Source

variable {s s' : Source} {max : Nat} {supply : Supply}

theorem total_consume_le (s : Source) (n : Nat) : (s.consume n).total ≤ s.total := by
  rw [total_consume]
  exact Nat.sub_le _ _

/-- To see to it that something is buffered makes no more of the source. -/
theorem total_le_of_supply (h : s.supply max = (supply, s')) : s'.total ≤ s.total := by
  have hle := s.total_supply_le max
  rw [h] at hle
  exact hle

theorem total_consume_le_of_supply (h : s.supply max = (supply, s')) (n : Nat) :
    (s'.consume n).total ≤ s.total :=
  Nat.le_trans (s'.total_consume_le n) (total_le_of_supply h)

end Source

/-- A read of a body of a known length makes no more of the source. -/
theorem BoundBody.total_readSome_le (r : BoundBody) (n : Nat) :
    (r.readSome n).2.source.total ≤ r.source.total := by
  unfold readSome
  split
  · exact Nat.le_refl _
  split
  · exact Nat.le_refl _
  split
  · exact Source.total_le_of_supply ‹_›
  · exact Source.total_le_of_supply ‹_›
  · exact Source.total_consume_le_of_supply ‹_› _

/-- Neither does one of a body that ends with the connection. -/
theorem UntilEofBody.total_readSome_le (r : UntilEofBody) (n : Nat) :
    (r.readSome n).2.source.total ≤ r.source.total := by
  unfold readSome
  split
  · exact Nat.le_refl _
  split
  · exact Nat.le_refl _
  split
  · exact Source.total_le_of_supply ‹_›
  · exact Source.total_le_of_supply ‹_›
  · exact Source.total_consume_le_of_supply ‹_› _

namespace ChunkedBody

/-- To hand out of a window consumes the window at most. -/
theorem total_handOut_le (r : ChunkedBody) (w : Window) (n : Nat) :
    (r.handOut w n).2.source.total ≤ r.source.total := by
  unfold handOut
  simp only
  split
  · exact Nat.le_refl _
  · exact r.source.total_consume_le _

/-- No round of decoding makes more of the source. -/
theorem total_decode_le (r : ChunkedBody) (n : Nat) :
    (r.decode n).2.source.total ≤ r.source.total := by
  fun_induction decode r n with
  | case1 r cause s hs => exact Source.total_le_of_supply hs
  | case2 r s hs => exact Source.total_le_of_supply hs
  | case3 r s hs d window _ data r' hout =>
    have hle := total_handOut_le { r with source := s, decoder := d.decoder }
      ⟨d.consumed - window.length, d.consumed⟩ n
    rw [hout] at hle
    exact Nat.le_trans hle (Source.total_le_of_supply hs)
  | case4 r s hs => exact Source.total_consume_le_of_supply hs _
  | case5 r s hs => exact Source.total_consume_le_of_supply hs _
  | case6 r s hs d _ r' _ ih => exact Nat.le_trans ih (Source.total_consume_le_of_supply hs _)

/-- So a read of a chunked body does not either. -/
theorem total_readSome_le (r : ChunkedBody) (n : Nat) :
    (r.readSome n).2.source.total ≤ r.source.total := by
  unfold readSome
  split
  · exact Nat.le_refl _
  split
  · exact r.total_handOut_le _ n
  split
  · exact Nat.le_refl _
  · exact Nat.le_refl _
  · exact r.total_decode_le n

end ChunkedBody

namespace BodyReader

/-- **No read makes more of a source**, whatever the framing. -/
theorem total_readSome_le (r : BodyReader) (n : Nat) :
    (r.readSome n).2.source.total ≤ r.source.total := by
  cases r with
  | bound r => exact r.total_readSome_le n
  | chunked r => exact r.total_readSome_le n
  | untilEof r => exact r.total_readSome_le n

/-- To read the rest of a body is to read several times. -/
theorem total_readRest_le (r : BodyReader) (n : Nat) :
    (r.readRest n).reader.source.total ≤ r.source.total := by
  fun_induction readRest r n with
  | case1 r r' hread | case2 r e r' _ hread | case3 r r' hread =>
    have hle := r.total_readSome_le n
    rw [hread] at hle
    exact hle
  | case4 r b data r' hread rest =>
    rename_i ih
    have hle := r.total_readSome_le n
    rw [hread] at hle
    exact Nat.le_trans ih hle

/-- To read a body makes no more of its source than it was. -/
theorem total_readToEnd_le (r : BodyReader) : r.readToEnd.reader.source.total ≤ r.source.total :=
  r.total_readRest_le copySize

/-- A reader is made of the source that it is given. -/
theorem source_of_forRequest {q : Request} {options : ReadOptions} {s : Source} {r : BodyReader}
    (h : forRequest q options s = .ok r) : r.source = s := by
  unfold forRequest ofFraming ofTransferEncoding at h
  split at h
  · cases h
  · cases h; rfl
  · cases h; rfl
  · split at h
    · cases h
    · split at h <;> cases h
      rfl
    · cases h

end BodyReader

end HttpFraming
