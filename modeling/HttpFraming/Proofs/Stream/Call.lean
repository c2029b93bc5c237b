import HttpFraming.Proofs.Fragmentation.Body

/-!
# One call of a decoder

What a call of a decoder can do that is not done (`ChunkedDecoder.called_parse`): it hands out some
data, which are the last octets consumed, it takes all it was fed and needs more, it completes the
body, or it fails.

That the data are *the last octets consumed* is what a reader relies on: it gets the octets of the
window from its own buffer, by going back from the number of octets consumed by the length of the
window. `BodyDraft.WindowOf` says so of a run of the lexer that is under way, where some octets of a
piece are already behind (`opened`), and `windowOf_run` proves it by induction on the octets. A
window closes in two ways: with the last octet of a chunk (`complete`), or because the octets end
within a chunk, in which case all that is open of it is the window.

The rest of `Called` is known from `HttpFraming.Proofs.Fragmentation.Body`, where a run that finds
no data is seen to end in one of three ways (`BodyGathering.RunEnd`).
-/

namespace HttpFraming

namespace BodyDraft

variable {l : Lexer .chunkedBody} {d : BodyDraft} {opened rest window : Octets} {n : Nat}

/-- Octets are consumed up to the end of a window that is not empty. Of the octets that were not
consumed before, the window begins with those in `opened` or comes later. -/
def WindowOf (opened : Octets) (n : Nat) (data : Octets) (window : Octets) (consumed : Nat) :
    Prop :=
  window ≠ [] ∧ ∃ front rest, opened.reverse ++ data = front ++ (window ++ rest) ∧
    consumed + rest.length = n + data.length

/-- What holds from the next octet on holds from this one on. -/
theorem WindowOf.cons {b : UInt8} {data : Octets} {consumed : Nat}
    (h : WindowOf [] (n + 1) data window consumed) :
    WindowOf opened n (b :: data) window consumed := by
  obtain ⟨hne, front, rest, hsplit, hconsumed⟩ := h
  refine ⟨hne, opened.reverse ++ b :: front, rest, ?_, ?_⟩
  · have hdata : data = front ++ (window ++ rest) := hsplit
    rw [hdata, List.append_assoc, List.cons_append]
  · rw [hconsumed, List.length_cons]
    omega

/-- After a piece that is not data, a window is found in what follows. -/
theorem windowOf_goOn {span : Span} {piece : Octets} (hspan : span ≠ .chunkData)
    (hd : d.window? = none)
    (ih : ∀ d', d'.window? = none → (Lexer.run handle l d' [] n rest).state.window? = some window →
      WindowOf [] n rest window (Lexer.run handle l d' [] n rest).consumed)
    (h : (Lexer.goOn handle l (d.handle (.piece span piece)) n rest).state.window? = some window) :
    WindowOf [] n rest window
      (Lexer.goOn handle l (d.handle (.piece span piece)) n rest).consumed := by
  obtain ⟨hwindow, hflow⟩ := handle_of_ne hspan d piece
  generalize d.handle (.piece span piece) = answer at hwindow hflow h ⊢
  obtain ⟨d', flow⟩ := answer
  have hd' : d'.window? = none := hwindow.trans hd
  rcases hflow with hflow | ⟨hflow, -⟩
  · obtain rfl : flow = .abort := hflow
    cases hd'.symm.trans h
  · obtain rfl : flow = .proceed := hflow
    exact ih d' hd' h

/-- **A window is the end of what is consumed.** It is found in a run that begins without one. -/
theorem windowOf_run (data : Octets) :
    ∀ {l : Lexer .chunkedBody} {d : BodyDraft} (opened : Octets) (n : Nat), d.window? = none →
      (Lexer.run handle l d opened n data).state.window? = some window →
      WindowOf opened n data window (Lexer.run handle l d opened n data).consumed := by
  induction data with
  | nil =>
    intro l d opened n hd h
    rcases hspan : l.phase.span? with - | span
    · rw [Lexer.run_nil_of_span?_eq_none hspan] at h
      cases hd.symm.trans h
    by_cases hopened : opened = []
    · rw [hopened, Lexer.run_nil_nil] at h
      cases hd.symm.trans h
    -- At the end of what was fed a piece may be open. Only of chunk data a part is handed out, and
    -- it reaches back to where the piece begins.
    by_cases hdata : span = .chunkData
    · subst hdata
      rw [Lexer.run_nil_of_span? hspan hopened] at h ⊢
      obtain rfl : opened.reverse = window := Option.some.inj h
      exact ⟨by simpa using hopened, [], [], by simp, rfl⟩
    · rw [Lexer.run_nil_of_span? hspan hopened] at h
      cases ((handle_of_ne hdata d _).1.trans hd).symm.trans h
  | cons b rest ih =>
    intro l d opened n hd h
    rcases hstep : l.step b with cause | ⟨l', effect⟩
    · rw [Lexer.run_cons_error hstep] at h
      cases hd.symm.trans h
    cases effect with
    | skip =>
      rw [Lexer.run_cons_skip hstep] at h ⊢
      exact (ih [] (n + 1) hd h).cons
    | extend =>
      rw [Lexer.run_cons_extend hstep] at h ⊢
      obtain ⟨hne, front, rest', hsplit, hconsumed⟩ := ih (b :: opened) (n + 1) hd h
      refine ⟨hne, front, rest', by simpa using hsplit, ?_⟩
      rw [hconsumed, List.length_cons]
      omega
    | close span =>
      have hspan : span ≠ .chunkData := by
        rintro rfl
        exact Lexer.step_ne_close_chunkData hstep
      rw [Lexer.run_cons_close_eq_goOn hstep] at h ⊢
      exact (windowOf_goOn hspan hd (fun d' hd' ↦ ih [] (n + 1) hd') h).cons
    | complete span =>
      rw [Lexer.run_cons_complete_eq_goOn hstep] at h ⊢
      by_cases hspan : span = .chunkData
      · subst hspan
        obtain rfl : (b :: opened).reverse = window := Option.some.inj h
        refine ⟨by simp, [], rest, by simp, ?_⟩
        rw [List.length_cons]
        show n + 1 + rest.length = n + (rest.length + 1)
        omega
      · exact (windowOf_goOn hspan hd (fun d' hd' ↦ ih [] (n + 1) hd') h).cons
    -- The trailers of a body are told as the end of the body, not as the end of a head.
    | endHead => exact absurd hstep Lexer.step_ne_endHead
    | endBody =>
      rw [Lexer.run_cons_endBody hstep] at h
      cases ((window?_handle_bodyEnd d).trans hd).symm.trans h

end BodyDraft

namespace ChunkedDecoder

/-- **What a call can do** that is fed some octets. -/
inductive Called (data : Octets) : Decoded → Prop
  | data {d : ChunkedDecoder} {front window rest : Octets} (live : Live d) (ne : window ≠ [])
    (split : data = front ++ (window ++ rest)) :
    Called data ⟨d, (front ++ window).length, .data window⟩
  | more {d : ChunkedDecoder} (live : Live d) : Called data ⟨d, data.length, .none⟩
  | complete {d : ChunkedDecoder} {n : Nat} (verdict : d.verdict = .accepted d.trailers) :
    Called data ⟨d, n, .none⟩
  | failed {d : ChunkedDecoder} {n : Nat} {e : ParseError} (verdict : d.verdict = .refused e) :
    Called data ⟨d, n, .error e⟩

/-- What comes of a run that finds no data. -/
theorem called_ofRun {data body : Octets} {l : Lexer .chunkedBody} {draft : BodyDraft} {m : Nat}
    (hwindow : draft.window? = none)
    (hend : BodyGathering.RunEnd data.length ⟨l, ⟨draft, body⟩, m⟩) :
    Called data (ofRun ⟨l, draft, m⟩) := by
  rcases hend with ⟨hready, hconsumed⟩ | ⟨cause, hstage, hphase⟩ | ⟨e, hstage, hphase⟩ |
    ⟨hstage, hphase⟩
  · have herror : l.error? = none := Lexer.error?_of_isFinal hready.isFinal
    have hreading : draft.stage = .reading := hready.stage
    obtain rfl : m = data.length := hconsumed
    simp only [ofRun, herror, hreading, hwindow]
    exact .more hready.toLive
  · have herror : l.error? = some cause := Lexer.error?_of_phase hphase
    simp only at hstage
    simp only [ofRun, herror, hstage]
    exact .failed rfl
  · simp only at hstage
    simp only [ofRun, hstage]
    exact .failed (by rw [verdict, hstage])
  · have herror : l.error? = none := by rw [Lexer.error?, hphase]
    simp only at hstage
    simp only [ofRun, herror, hstage, hwindow]
    exact .complete (by rw [verdict, hstage])

/-- **Each call** of a decoder that is not done is one of these. -/
theorem called_parse {d : ChunkedDecoder} (hd : Live d) (data : Octets) :
    Called data (d.parse data) := by
  have hend := runEnd_gather hd.resumed [] data
  have hcall : CallEnd [] 0 data
      (Lexer.run BodyDraft.handle d.resumed.lexer d.resumed.draft [] 0 data)
      (d.resumed.gather [] data) := callEnd_run [] data [] 0 hd.resumed
  have hfound (window : Octets)
      (h : (Lexer.run BodyDraft.handle d.resumed.lexer d.resumed.draft [] 0 data).state.window? =
        some window) := BodyDraft.windowOf_run data [] 0 hd.resumed.window h
  rw [parse_eq hd]
  generalize Lexer.run BodyDraft.handle d.resumed.lexer d.resumed.draft [] 0 data = r
    at hcall hfound ⊢
  generalize d.resumed.gather [] data = f at hcall hend
  cases hcall with
  | whole l draft m hwindow => exact called_ofRun hwindow hend
  | window l draft window before rest hready hsplit =>
    obtain ⟨hne, front, rest', hsplit', hconsumed⟩ := hfound window rfl
    have herror : l.pause.error? = none := Lexer.error?_of_isFinal hready.isFinal
    have hstage : draft.stage = .reading := hready.stage
    have hlength : (front ++ window).length = 0 + before.length := by
      have h := congrArg List.length hsplit'
      simp only [List.length_append, List.reverse_nil, List.nil_append] at h hconsumed ⊢
      omega
    have hcalled : ofRun ⟨l.pause, { draft with window? := some window }, 0 + before.length⟩ =
        ⟨withWindow ⟨l, draft⟩ window, (front ++ window).length, .data window⟩ := by
      simp only [ofRun, withWindow, herror, hstage, hlength]
    rw [hcalled]
    exact .data (hready.live_withWindow window) hne hsplit'

end ChunkedDecoder

end HttpFraming
