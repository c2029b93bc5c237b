import HttpFraming.Proofs.Grammar.HeaderLines
import HttpFraming.Proofs.Grammar.Version

/-!
# The language of request heads

Which octets spell a request head (`RawRequest.Spells`), and that these are the octets over which a
lexer of requests comes to an end (`Lexer.ends_request`). On the way, its handler is told the
method, the target and the header lines.

The rules are proved from the end of the line to its beginning, each as an equivalence about
`Lexer.Ends`: the version, the target, the method, the line ends in front of it. The names
`EndsAfterTarget` and `EndsAfterMethod` are for what has to follow a part, and each is the exit of
the loop over the part before.

## What is particular to a request line

* A target may be followed by the end of the line. Then there is no version, and the request is of
  version 0.9.
* A method has 32 octets at most, and a longer one is refused at the first octet that is too many.
  The loop over it is a bounded one, with the length as bound.
* Line ends in front of a request are skipped, and no limit is put on their number.
-/

namespace HttpFraming

open CharClass

/-- A carriage return or a line feed. -/
def isLineEndChar (c : Nat) : Bool :=
  c == 0x0D || c == 0x0A

/-- Some octets spell the version of a request line. A request line without one is of version 0.9.
-/
inductive SpellsRequestVersion : Version → Octets → Prop
  | absent : SpellsRequestVersion .http09 []
  | given {v : Version} {x : Octets} (spells : SpellsVersion v x) :
    SpellsRequestVersion v (0x20 :: x)

/-- The octets of a request head, by their parts. -/
structure RawRequest where
  method : Octets
  target : Octets
  version : Version
  lines : List RawLine

/-- Some octets spell a request head. Line ends in front of it do not belong to it. -/
inductive RawRequest.Spells (q : RawRequest) : Octets → Prop
  | mk {skip version eol fields eol' : Octets} (skipped : Only isLineEndChar skip)
    (method_ne : q.method ≠ []) (method : Only isTchar q.method)
    (method_le : q.method.length ≤ 32) (target_ne : q.target ≠ [])
    (target : Only isTargetChar q.target) (spellsVersion : SpellsRequestVersion q.version version)
    (lineEnd : LineEnd eol) (spellsFields : RawLine.SpellAll q.lines fields)
    (lineEnd' : LineEnd eol') :
    Spells q
      (skip ++ (q.method ++ 0x20 :: (q.target ++ (version ++ (eol ++ (fields ++ eol'))))))

/-- A request head ends in a line feed. -/
theorem RawRequest.Spells.exists_append_lf {q : RawRequest} {x : Octets} (h : q.Spells x) :
    ∃ z, x = z ++ [0x0A] := by
  cases h with
  | @mk skip version eol fields eol' _ _ _ _ _ _ _ _ _ hlast =>
    obtain ⟨tail, rfl⟩ := hlast.exists_append_lf
    refine ⟨skip ++ (q.method ++ 0x20 :: (q.target ++ (version ++ (eol ++ (fields ++ tail))))), ?_⟩
    simp

/-- No part of a request head exceeds the length of its text. -/
theorem RawRequest.Spells.le_length {q : RawRequest} {x : Octets} (h : q.Spells x) :
    q.target.length ≤ x.length ∧ q.lines.length ≤ x.length ∧
      ∀ l ∈ q.lines, l.size ≤ x.length := by
  cases h with
  | mk _ _ _ _ _ _ _ _ hfields =>
    obtain ⟨hcount, hsize⟩ := hfields.le_length
    simp only [List.length_append, List.length_cons]
    refine ⟨by omega, by omega, fun l hl ↦ ?_⟩
    have := hsize l hl
    omega

namespace Lexer

variable {σ : Type} {handle : σ → Event → σ × Flow} {l : Lexer .request} {s s' : σ}
  {line : StartLine} {opened x : Octets}

/-! ### The version -/

theorem needsLf_startLineLf {part : MessagePart} (l : Lexer part) :
    NeedsLf (l.inPhase .startLineLf) (l.inPhase .fieldStart) :=
  fun _ ↦ rfl

/-- What comes after a target: a version or none, and the end of the line. -/
def EndsAfterTarget (handle : σ → Event → σ × Flow) (l : Lexer .request) (s : σ) (x : Octets)
    (s' : σ) (line : StartLine) : Prop :=
  ∃ text v rest, x = text ++ rest ∧ SpellsRequestVersion v text ∧
    EndsAfterLine handle ((l.withVersion v).inPhase .fieldStart) s rest s' line

/-- A version, and the end of the request line. -/
theorem ends_protocol_request :
    Ends handle (l.inPhase (.protocol 0)) s [] x s' line ↔
      ∃ text v rest, x = text ++ rest ∧ SpellsVersion v text ∧
        EndsAfterLine handle ((l.withVersion v).inPhase .fieldStart) s rest s' line := by
  have hversion (y : Octets) : Ends handle (l.inPhase .majorStart) s [] y s' line ↔
      ∃ text v rest, y = text ++ rest ∧ SpellsVersion v (protocolName ++ text) ∧
        EndsAfterLine handle ((l.withVersion v).inPhase .fieldStart) s rest s' line := by
    refine ends_version (fun {v b y} hb ↦ ?_) (stops_of_endsAfterLine rfl rfl)
    refine ends_cons_lineEnd rfl rfl (needsLf_startLineLf (l.withVersion v)) rfl
      fun hcr hlf ↦ ⟨.invalidVersion, ?_⟩
    simp [step, inPhase, withVersion, versionDigit?_eq_none hb, hcr, hlf]
  rw [ends_protocol protocolName (by decide) rfl]
  constructor
  · rintro ⟨y, rfl, h⟩
    obtain ⟨text, v, rest, rfl, hspells, hrest⟩ := (hversion y).1 h
    exact ⟨protocolName ++ text, v, rest, (List.append_assoc _ _ _).symm, hspells, hrest⟩
  · rintro ⟨_, v, rest, rfl, ⟨hmajor, hminor⟩, hrest⟩
    refine ⟨_, List.append_assoc _ _ _, ?_⟩
    exact (hversion _).2 ⟨_, v, rest, rfl, .mk hmajor hminor, hrest⟩

/-! ### The target -/

/-- What comes after a target begins with an octet that no target has. -/
theorem exists_of_endsAfterTarget (h : EndsAfterTarget handle l s x s' line) :
    ∃ b y, x = b :: y ∧ isTargetChar b.toNat = false := by
  obtain ⟨text, v, rest, rfl, hspells, hrest⟩ := h
  cases hspells with
  | absent => exact stops_of_endsAfterLine rfl rfl hrest
  | @given v z => exact ⟨0x20, z ++ rest, rfl, rfl⟩

/-- Behind a space, a version has to come. -/
theorem endsAfterTarget_space :
    EndsAfterTarget handle l s (0x20 :: x) s' line ↔
      Ends handle (l.inPhase (.protocol 0)) s [] x s' line := by
  rw [ends_protocol_request]
  constructor
  · rintro ⟨text, v, rest, hx, hspells, hrest⟩
    cases hspells with
    | absent =>
      obtain rfl : 0x20 :: x = rest := hx
      exact absurd hrest (not_endsAfterLine_cons (by decide) (by decide))
    | @given v z hversion => exact ⟨z, v, rest, (List.cons.inj hx).2, hversion, hrest⟩
  · rintro ⟨z, v, rest, rfl, hversion, hrest⟩
    exact ⟨0x20 :: z, v, rest, rfl, .given hversion, hrest⟩

/-- Without a space, the line ends and is of version 0.9. -/
theorem endsAfterTarget_of_ne {b : UInt8} (hb : b.toNat ≠ 0x20) :
    EndsAfterTarget handle l s (b :: x) s' line ↔
      EndsAfterLine handle ((l.withVersion .http09).inPhase .fieldStart) s (b :: x) s' line := by
  constructor
  · rintro ⟨text, v, rest, hx, hspells, hrest⟩
    cases hspells with
    | absent => exact hx ▸ hrest
    | given =>
      obtain ⟨rfl, -⟩ := List.cons.inj hx
      exact absurd rfl hb
  · exact fun h ↦ ⟨[], .http09, b :: x, rfl, .absent, h⟩

/-- What comes of a target once it is open: the rest of it, and what may follow. -/
theorem ends_target :
    Ends handle (l.inPhase .target) s opened x s' line ↔
      ∃ target rest, x = target ++ rest ∧ Only isTargetChar target ∧
        ∃ t, told? handle s .target (target.reverse ++ opened).reverse = some t ∧
          EndsAfterTarget handle l t rest s' line := by
  refine loop_iff (E := fun o x ↦ Ends handle (l.inPhase .target) s o x s' line)
    (X := fun o rest ↦ ∃ t, told? handle s .target o.reverse = some t ∧
      EndsAfterTarget handle l t rest s' line)
    (fun _ ↦ not_ends_nil rfl) ?stay ?leave ?exit
  case stay =>
    intro o b x hb
    have hspace : b.toNat ≠ 0x20 := ne_of_class hb rfl
    have hcr : b.toNat ≠ 0x0D := ne_of_class hb rfl
    have hlf : b.toNat ≠ 0x0A := ne_of_class hb rfl
    exact ends_cons_extend (by simp [step, inPhase, hspace, hcr, hlf, hb])
  case leave =>
    intro o b x hb
    by_cases hspace : b.toNat = 0x20
    · obtain rfl : b = 0x20 := UInt8.toNat_inj.1 hspace
      have hstep : (l.inPhase .target).step 0x20 =
          .ok (l.inPhase (.protocol 0), .close .target) := rfl
      rw [ends_cons_close hstep]
      simp only [endsAfterTarget_space]
    · have hstep (hcr : b.toNat ≠ 0x0D) (hlf : b.toNat ≠ 0x0A) :
          ∃ e, (l.inPhase .target).step b = .error e :=
        ⟨.invalidTarget, by simp [step, inPhase, hspace, hcr, hlf, hb]⟩
      rw [ends_cons_lineEnd_close rfl rfl (needsLf_startLineLf (l.withVersion .http09))
        rfl hstep]
      simp only [endsAfterTarget_of_ne hspace]
  case exit =>
    rintro o rest ⟨t, -, h⟩
    exact exists_of_endsAfterTarget h

/-- A target has one octet at least. -/
theorem ends_targetStart :
    Ends handle (l.inPhase .targetStart) s [] x s' line ↔
      ∃ target rest t, x = target ++ rest ∧ target ≠ [] ∧ Only isTargetChar target ∧
        told? handle s .target target = some t ∧ EndsAfterTarget handle l t rest s' line := by
  cases x with
  | nil =>
    refine iff_of_false (not_ends_nil rfl) ?_
    rintro ⟨target, rest, t, hx, hne, -⟩
    exact hne (List.append_eq_nil_iff.1 hx.symm).1
  | cons b x =>
    by_cases hb : isTargetChar b.toNat = true
    · have hstep : (l.inPhase .targetStart).step b = .ok (l.inPhase .target, .extend) := if_pos hb
      rw [ends_cons_extend hstep, ends_target]
      constructor
      · rintro ⟨target, rest, rfl, honly, t, ht, hrest⟩
        refine ⟨b :: target, rest, t, rfl, List.cons_ne_nil b target, only_cons.2 ⟨hb, honly⟩, ?_,
          hrest⟩
        simpa using ht
      · rintro ⟨target, rest, t, hx, hne, honly, ht, hrest⟩
        obtain ⟨target, rfl, rfl⟩ := (List.cons_eq_append_iff.1 hx).resolve_left fun h ↦ hne h.1
        refine ⟨target, rest, rfl, (only_cons.1 honly).2, t, ?_, hrest⟩
        simpa using ht
    · have hstep : (l.inPhase .targetStart).step b = .error .invalidTarget := if_neg hb
      refine iff_of_false (not_ends_cons_error hstep) ?_
      rintro ⟨target, rest, t, hx, hne, honly, -⟩
      obtain ⟨target, rfl, -⟩ := (List.cons_eq_append_iff.1 hx).resolve_left fun h ↦ hne h.1
      exact hb (only_cons.1 honly).1

/-! ### The method -/

/-- What comes of a method once it is open: the rest of it, a space and a target. -/
theorem ends_method (hopened : opened.length ≤ 32) :
    Ends handle (l.inPhase (.method opened.length)) s opened x s' line ↔
      ∃ method rest, x = method ++ rest ∧ Only isTchar method ∧
        (method.reverse ++ opened).length ≤ 32 ∧
          ∃ y t, rest = 0x20 :: y ∧
            told? handle s .method (method.reverse ++ opened).reverse = some t ∧
              Ends handle (l.inPhase .targetStart) t [] y s' line := by
  refine boundedLoop_iff (B := fun o ↦ o.length ≤ 32)
    (E := fun o x ↦ Ends handle (l.inPhase (.method o.length)) s o x s' line)
    (X := fun o rest ↦ ∃ y t, rest = 0x20 :: y ∧ told? handle s .method o.reverse = some t ∧
      Ends handle (l.inPhase .targetStart) t [] y s' line)
    (fun _ ↦ not_ends_nil rfl) ?stay ?leave ?exit (fun h ↦ Nat.le_of_succ_le h) hopened
  case stay =>
    intro o b x hb
    have hspace : b.toNat ≠ 0x20 := ne_of_class hb rfl
    by_cases hlt : o.length < 32
    · have hstep : (l.inPhase (.method o.length)).step b =
          .ok (l.inPhase (.method (b :: o).length), .extend) := by
        simp [step, inPhase, enter, maxMethodLength, hspace, hb, hlt]
      rw [ends_cons_extend hstep]
      exact (and_iff_right hlt).symm
    · have hstep : (l.inPhase (.method o.length)).step b = .error .invalidMethod := by
        simp [step, inPhase, maxMethodLength, hspace, hlt]
      exact iff_of_false (not_ends_cons_error hstep) fun h ↦ hlt h.1
  case leave =>
    intro o b x hb
    by_cases hspace : b.toNat = 0x20
    · obtain rfl : b = 0x20 := UInt8.toNat_inj.1 hspace
      have hstep : (l.inPhase (.method o.length)).step 0x20 =
          .ok (l.inPhase .targetStart, .close .method) := rfl
      rw [ends_cons_close hstep]
      simp
    -- A line cannot end here: a method is always followed by a target.
    · have hb' : b ≠ 0x20 := fun h ↦ hspace (congrArg UInt8.toNat h)
      have hstep : (l.inPhase (.method o.length)).step b = .error .invalidMethod := by
        simp [step, inPhase, hspace, hb]
      exact iff_of_false (not_ends_cons_error hstep) (by simp [hb'])
  case exit =>
    rintro o rest ⟨y, t, rfl, -⟩
    exact ⟨0x20, y, rfl, rfl⟩

/-- A method, a space and a target. -/
def EndsAfterMethod (handle : σ → Event → σ × Flow) (l : Lexer .request) (s : σ) (x : Octets)
    (s' : σ) (line : StartLine) : Prop :=
  ∃ method y t, x = method ++ 0x20 :: y ∧ method ≠ [] ∧ Only isTchar method ∧
    method.length ≤ 32 ∧ told? handle s .method method = some t ∧
      Ends handle (l.inPhase .targetStart) t [] y s' line

/-- No method begins with a line end. -/
theorem isLineEndChar_of_isTchar {c : Nat} (h : isTchar c = true) : isLineEndChar c = false := by
  refine Bool.eq_false_iff.2 fun hc ↦ ?_
  rw [isLineEndChar, Bool.or_eq_true, beq_iff_eq, beq_iff_eq] at hc
  rcases hc with rfl | rfl <;> cases h

/-- A method begins with an octet of a token. -/
theorem exists_of_endsAfterMethod (h : EndsAfterMethod handle l s x s' line) :
    ∃ b y, x = b :: y ∧ isTchar b.toNat = true := by
  obtain ⟨method, y, t, rfl, hne, honly, -⟩ := h
  cases method with
  | nil => exact absurd rfl hne
  | cons b method => exact ⟨b, _, rfl, (only_cons.1 honly).1⟩

/-- Line ends are skipped, and then a method comes. -/
theorem ends_requestStart :
    Ends handle (l.inPhase .requestStart) s [] x s' line ↔
      ∃ skip rest, x = skip ++ rest ∧ Only isLineEndChar skip ∧
        EndsAfterMethod handle l s rest s' line := by
  refine loop_iff (E := fun _ x ↦ Ends handle (l.inPhase .requestStart) s [] x s' line)
    (X := fun _ rest ↦ EndsAfterMethod handle l s rest s' line) (o := [])
    (fun _ ↦ not_ends_nil rfl) ?stay ?leave ?exit
  case stay =>
    intro _ b x hb
    have hb' : b.toNat = 0x0D ∨ b.toNat = 0x0A := by simpa [isLineEndChar] using hb
    exact ends_cons_skip (if_pos hb')
  case leave =>
    intro _ b x hb
    have hb' : ¬ (b.toNat = 0x0D ∨ b.toNat = 0x0A) := by simpa [isLineEndChar] using hb
    by_cases hmethod : isTchar b.toNat = true
    · have hstep : (l.inPhase .requestStart).step b = .ok (l.inPhase (.method 1), .extend) := by
        simp [step, inPhase, enter, hb', hmethod]
      have hopen : Ends handle (l.inPhase (.method [b].length)) s [b] x s' line ↔ _ :=
        ends_method (Nat.succ_le_succ (Nat.zero_le 31))
      rw [ends_cons_extend hstep]
      refine hopen.trans ⟨?_, ?_⟩
      · rintro ⟨method, _, rfl, honly, hle, y, t, rfl, ht, hrest⟩
        refine ⟨b :: method, y, t, rfl, List.cons_ne_nil b method, only_cons.2 ⟨hmethod, honly⟩,
          ?_, ?_, hrest⟩
        · simpa using hle
        · simpa using ht
      · rintro ⟨method, y, t, hx, hne, honly, hle, ht, hrest⟩
        obtain ⟨method, rfl, rfl⟩ := (List.cons_eq_append_iff.1 hx).resolve_left fun h ↦ hne h.1
        refine ⟨method, _, rfl, (only_cons.1 honly).2, ?_, y, t, rfl, ?_, hrest⟩
        · simpa using hle
        · simpa using ht
    · have hstep : (l.inPhase .requestStart).step b = .error .invalidMethod := by
        simp [step, inPhase, hb', hmethod]
      refine iff_of_false (not_ends_cons_error hstep) fun h ↦ ?_
      obtain ⟨d, y, hx, hd⟩ := exists_of_endsAfterMethod h
      obtain ⟨rfl, -⟩ := List.cons.inj hx
      exact hmethod hd
  case exit =>
    intro _ rest h
    obtain ⟨b, y, rfl, hb⟩ := exists_of_endsAfterMethod h
    exact ⟨b, y, rfl, isLineEndChar_of_isTchar hb⟩

/-! ### The whole head -/

/-- The state after a handler was told the parts of a request head, if it wants to go on. -/
def tellRequest? (handle : σ → Event → σ × Flow) (s : σ) (q : RawRequest) : Option σ :=
  (told? handle s .method q.method).bind fun t ↦
    (told? handle t .target q.target).bind fun u ↦ tellLines? handle u q.lines

/-- **The language of request heads.** What leads a lexer of requests to the end of a head is a head
without its last line feed, and the handler is told the parts of this head. -/
theorem ends_request :
    Ends handle (l.inPhase .requestStart) s [] x s' line ↔
      ∃ q : RawRequest, q.Spells (x ++ [0x0A]) ∧ tellRequest? handle s q = some s' ∧
        line = ⟨q.version, l.status⟩ := by
  rw [ends_requestStart]
  constructor
  · rintro ⟨skip, _, rfl, hskip, method, y, t, rfl, hmethod, hmethod', hle, ht, hy⟩
    obtain ⟨target, _, u, rfl, htarget, htarget', hu, version, v, _, rfl, hversion, eol, _, rfl,
      heol, hfields⟩ := ends_targetStart.1 hy
    obtain ⟨lines, fields, tail, rfl, hlines, htail, htell, rfl⟩ := ends_headerLines.1 hfields
    refine ⟨⟨method, target, v, lines⟩, ?_, ?_, rfl⟩
    · have hspells := RawRequest.Spells.mk (q := ⟨method, target, v, lines⟩) hskip hmethod
        hmethod' hle htarget htarget' hversion heol hlines htail
      simpa using hspells
    · rw [tellRequest?, ht, Option.bind_some, hu, Option.bind_some, htell]
  · rintro ⟨⟨method, target, v, lines⟩, hspells, htell, rfl⟩
    obtain ⟨t, ht, htell⟩ := Option.bind_eq_some_iff.1 htell
    obtain ⟨u, hu, htell⟩ := Option.bind_eq_some_iff.1 htell
    generalize hx : x ++ [0x0A] = z at hspells
    cases hspells with
    | @mk skip version eol fields eol' hskip hmethod hmethod' hle htarget htarget' hversion heol
        hlines heol' =>
      obtain ⟨tail, rfl⟩ := heol'.exists_append_lf
      have hx' : x ++ [0x0A] = (skip ++ (method ++ 0x20 :: (target ++ (version ++ (eol ++
          (fields ++ tail)))))) ++ [0x0A] := by
        rw [hx]
        simp
      obtain rfl := List.append_cancel_right hx'
      have hfields : Ends handle ((l.withVersion v).inPhase .fieldStart) u [] (fields ++ tail) s'
          ⟨v, l.status⟩ :=
        ends_headerLines.2 ⟨lines, fields, tail, rfl, hlines, heol', htell, rfl⟩
      have htarget := ends_targetStart (l := l).2 ⟨target, _, u, rfl, htarget, htarget', hu,
        version, v, _, rfl, hversion, eol, _, rfl, heol, hfields⟩
      exact ⟨skip, _, rfl, hskip, method, _, t, rfl, hmethod, hmethod', hle, ht, htarget⟩

end Lexer

end HttpFraming
