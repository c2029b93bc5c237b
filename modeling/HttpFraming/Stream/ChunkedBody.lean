import HttpFraming.Stream.Error
import HttpFraming.Stream.Options
import HttpFraming.Wire.ChunkedDecoder

/-!
# Bodies in chunks

A chunked body is decoded in the buffer of its source. Data that the decoder has found but nobody
has taken yet stay there: the reader remembers which octets of the buffer they are, its window, and
lets the source drop what was decoded only when all of the window is handed out.

## One read

A read hands out of the window, if there is one. Else it asks the decoder how it stands: a decoder
that is done has nothing more, and one that is still reading is called over what is buffered, again
and again, until it finds data or is done (`ChunkedBody.decode`). The transport is read only when
nothing is buffered. A call that fails, and one that finds nothing, has its octets dropped at once,
and only a call that finds data leaves them for the window.

## Why reading ends

Each round of `ChunkedBody.decode` consumes something of what the source can still deliver
(`ChunkedDecoder.parse_progress`). Handing out a window consumes nothing until its end, but shortens
the window. `ChunkedBody.rank` combines the two: first what is not decoded, where the octets up to
the end of the window do not count any more, and then the length of the window, which is one more
where there is a window than where there is none.
-/

namespace HttpFraming

/-- Octets of a buffer, from `start` up to but without `stop`. All before `stop` is decoded. -/
structure Window where
  start : Nat
  stop : Nat
deriving Repr, DecidableEq

namespace Window

def length (w : Window) : Nat :=
  w.stop - w.start

/-- The octets of a buffer that are in a window. -/
def octets (w : Window) (buffer : Octets) : Octets :=
  (buffer.drop w.start).take w.length

end Window

/-- A reader of a chunked body. -/
structure ChunkedBody where
  source : Source
  bufferSize : Nat
  decoder : ChunkedDecoder
  /-- The data found and not handed out yet. -/
  window? : Option Window
deriving Repr, DecidableEq

namespace ChunkedBody

def new (options : ReadOptions) (s : Source) : ChunkedBody :=
  ⟨s, options.bufferSize, .new options.limits, none⟩

/-- The trailers, once the body was read to its end. -/
def trailers (r : ChunkedBody) : Headers :=
  r.decoder.trailers

/-- Hands out at most `n` octets of a window. With its last octet, all that is decoded leaves the
source. -/
def handOut (r : ChunkedBody) (w : Window) (n : Nat) : Octets × ChunkedBody :=
  let w' : Window := ⟨w.start + min n w.length, w.stop⟩
  ((w.octets r.source.buffer).take n,
    if w'.start < w'.stop then { r with window? := some w' }
    else { r with source := r.source.consume w.stop, window? := none })

/-- Decodes until there is data to hand out. -/
def decode (r : ChunkedBody) (n : Nat) : Except ReadError Octets × ChunkedBody :=
  match _hs : r.source.supply r.bufferSize with
  | (.failed cause, s) => (.error (.transport cause), { r with source := s })
  | (.ended, s) => (.error .unexpectedEof, { r with source := s })
  | (.ready, s) =>
    let d := r.decoder.parse s.buffer
    match _hd : d.action with
    | .data window =>
      let (data, r') := handOut { r with source := s, decoder := d.decoder }
        ⟨d.consumed - window.length, d.consumed⟩ n
      (.ok data, r')
    | .error e =>
      (.error (.parse e), { r with source := s.consume d.consumed, decoder := d.decoder })
    | .none =>
      let r' := { r with source := s.consume d.consumed, decoder := d.decoder }
      if d.decoder.done then (.error .eof, r') else r'.decode n
termination_by r.source.total
decreasing_by
  have htotal := r.source.total_supply_le r.bufferSize
  have hne := Source.buffer_ne_nil_of_supply _hs
  have hpos := ChunkedDecoder.parse_progress r.decoder hne (by simp [d] at _hd; simp [_hd])
  have hle := ChunkedDecoder.consumed_parse_le r.decoder s.buffer
  rw [_hs] at htotal
  have : s.buffer.length ≤ s.total := by simp [Source.total]
  simp only [Source.total_consume] at htotal ⊢
  omega

/-- Reads at most `n` octets of the body. Asking for none touches nothing. -/
def readSome (r : ChunkedBody) (n : Nat) : Except ReadError Octets × ChunkedBody :=
  if n = 0 then (.ok [], r)
  else
    match r.window? with
    | some w =>
      let (data, r') := r.handOut w n
      (.ok data, r')
    | none =>
      match r.decoder.draft.stage with
      | .failed e => (.error (.parse e), r)
      | .complete => (.error .eof, r)
      | .reading => r.decode n

/-! ### Why reading ends -/

/-- How much the source can still deliver of what is not decoded. -/
def undecoded (r : ChunkedBody) : Nat :=
  match r.window? with
  | some w => r.source.total - min w.stop r.source.buffer.length
  | none => r.source.total

/-- How much there is to hand out, a window itself counting for one. -/
def pending (r : ChunkedBody) : Nat :=
  match r.window? with
  | some w => w.length + 1
  | none => 0

/-- The rank of a reader, which every successful read lowers. -/
def rank (r : ChunkedBody) : Nat × Nat :=
  (r.undecoded, r.pending)

/-- Whatever is handed out of a window, all that lies before its end counts as decoded. -/
theorem undecoded_handOut (r : ChunkedBody) (w : Window) (n : Nat) :
    (r.handOut w n).2.undecoded = r.source.total - min w.stop r.source.buffer.length := by
  unfold handOut
  simp only
  split
  · rfl
  · simp [undecoded, Source.total_consume]

/-- To hand out something shortens the window, or drops it. -/
theorem pending_handOut_lt (r : ChunkedBody) (w : Window) {n : Nat} (hn : n ≠ 0) :
    (r.handOut w n).2.pending < w.length + 1 := by
  unfold handOut
  simp only
  split
  · simp only [pending, Window.length] at *
    omega
  · simp [pending]

/-- Decoding that finds data has decoded something. -/
theorem undecoded_decode_lt {r r' : ChunkedBody} {n : Nat} {data : Octets}
    (h : r.decode n = (.ok data, r')) : r'.undecoded < r.source.total := by
  -- Only two of the rounds go on or find data, and both have called the decoder.
  fun_induction decode r n with
  | case1 => simp at h
  | case2 => simp at h
  | case3 r s hs d window hd out r'' hout =>
    have htotal := r.source.total_supply_le r.bufferSize
    have hne := Source.buffer_ne_nil_of_supply hs
    have hpos := ChunkedDecoder.parse_progress r.decoder hne (by simp [d] at hd; simp [hd])
    have hlen : 0 < s.buffer.length := List.length_pos_iff.2 hne
    have hmore : s.buffer.length ≤ s.total := by simp [Source.total]
    have hundecoded := undecoded_handOut
      { r with source := s, decoder := d.decoder } ⟨d.consumed - window.length, d.consumed⟩ n
    rw [hout] at hundecoded
    rw [hs] at htotal
    cases h
    simp only [d] at htotal hundecoded
    omega
  | case4 => simp at h
  | case5 => simp at h
  | case6 r s hs d hd r'' hdone ih =>
    have htotal := r.source.total_supply_le r.bufferSize
    rw [hs] at htotal
    have := ih h
    simp only [r'', Source.total_consume] at htotal this
    omega

/-- Reading something lowers the rank. -/
theorem rank_readSome_lt {r r' : ChunkedBody} {n : Nat} {data : Octets} (hn : n ≠ 0)
    (h : r.readSome n = (.ok data, r')) :
    Prod.Lex (· < ·) (· < ·) r'.rank r.rank := by
  unfold readSome at h
  rw [if_neg hn] at h
  split at h
  · rename_i w hw
    obtain rfl : (r.handOut w n).2 = r' := congrArg Prod.snd h
    have hu := undecoded_handOut r w n
    have hp := pending_handOut_lt r w hn
    have hr : r.rank = (r.source.total - min w.stop r.source.buffer.length, w.length + 1) := by
      simp [rank, undecoded, pending, hw]
    rw [hr, rank, hu]
    exact .right _ hp
  · rename_i hw
    split at h
    · simp at h
    · simp at h
    · refine .left _ _ ?_
      have hr : r.undecoded = r.source.total := by simp [undecoded, hw]
      rw [hr]
      exact undecoded_decode_lt h

end ChunkedBody

end HttpFraming
