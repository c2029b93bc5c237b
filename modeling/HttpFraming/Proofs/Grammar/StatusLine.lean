import HttpFraming.Proofs.Grammar.RequestLine

/-!
# The language of response heads

Which octets spell a response head (`RawResponse.Spells`), and that these are the octets over which
a lexer of responses comes to an end (`Lexer.ends_response`). On the way, its handler is told the
reason, if there is one, and the header lines.

The version and the status code are no parts that are reported: the lexer computes them as their
digits come, and says what they are where the head ends.

## What is particular to a status line

* A status code has three digits, whatever their value. `ends_status` is an induction over the
  digits that are still to come. Its statement is about a lexer whose status is the value of those
  read so far, because the value of the rest alone would have to be shifted.
* The reason may be missing, together with the space in front of it, or be empty behind a space. In
  both cases it is the empty reason (`SpellsReason`), and the handler is told nothing.
* Blanks belong to the reason, at either end of it, as they do not to a header value.
* Line ends in front of a response are skipped as they are in front of a request. The first octet
  behind them belongs to the name of the protocol, of which the lexer then compares the rest.
-/

namespace HttpFraming

open CharClass

/-- Some octets spell a status code. It has three digits, and the first of them may be zero. -/
structure SpellsStatus (n : Nat) (digits : Octets) : Prop where
  length : digits.length = 3
  only : Only isDigit digits
  value : Radix.decimal.value digits = n

/-- Some octets spell what follows a status code on its line: nothing, or a space and the reason up
to the end of the line, blanks at either end of it included. A reason that is not given is empty. -/
inductive SpellsReason : Octets → Octets → Prop
  | absent : SpellsReason [] []
  | given {reason : Octets} (only : Only isFieldValueChar reason) :
    SpellsReason reason (0x20 :: reason)

/-- A reason is no longer than its spelling. -/
theorem SpellsReason.length_le {reason x : Octets} (h : SpellsReason reason x) :
    reason.length ≤ x.length := by
  cases h with
  | absent => exact Nat.le_refl 0
  | given => exact Nat.le_succ reason.length

/-- The octets of a response head, by their parts. -/
structure RawResponse where
  version : Version
  status : Nat
  reason : Octets
  lines : List RawLine

/-- Some octets spell a response head. Line ends in front of it do not belong to it. -/
inductive RawResponse.Spells (p : RawResponse) : Octets → Prop
  | mk {skip version digits tail eol fields eol' : Octets} (skipped : Only isLineEndChar skip)
    (spellsVersion : SpellsVersion p.version version) (spellsStatus : SpellsStatus p.status digits)
    (spellsReason : SpellsReason p.reason tail) (lineEnd : LineEnd eol)
    (spellsFields : RawLine.SpellAll p.lines fields) (lineEnd' : LineEnd eol') :
    Spells p
      (skip ++ (version ++ 0x20 :: (digits ++ (tail ++ (eol ++ (fields ++ eol'))))))

/-- A response head ends in a line feed. -/
theorem RawResponse.Spells.exists_append_lf {p : RawResponse} {x : Octets} (h : p.Spells x) :
    ∃ z, x = z ++ [0x0A] := by
  cases h with
  | @mk skip version digits tail eol fields eol' _ _ _ _ _ _ hlast =>
    obtain ⟨last, rfl⟩ := hlast.exists_append_lf
    refine ⟨skip ++ (version ++ 0x20 :: (digits ++ (tail ++ (eol ++ (fields ++ last))))), ?_⟩
    simp

/-- No part of a response head exceeds the length of its text. -/
theorem RawResponse.Spells.le_length {p : RawResponse} {x : Octets} (h : p.Spells x) :
    p.reason.length ≤ x.length ∧ p.lines.length ≤ x.length ∧
      ∀ l ∈ p.lines, l.size ≤ x.length := by
  cases h with
  | mk _ _ _ hreason _ hfields =>
    have hle := hreason.length_le
    obtain ⟨hcount, hsize⟩ := hfields.le_length
    simp only [List.length_append, List.length_cons]
    refine ⟨by omega, by omega, fun l hl ↦ ?_⟩
    have := hsize l hl
    omega

namespace Lexer

variable {σ : Type} {handle : σ → Event → σ × Flow} {l : Lexer .response} {s s' : σ}
  {line : StartLine} {opened x : Octets}

/-- A lexer that has read another status code. -/
def withStatus (l : Lexer .response) (n : Nat) : Lexer .response :=
  { l with status := n }

/-! ### The reason -/

/-- The state after a handler was told a reason, if it wants to go on. An empty reason is not told
to it. -/
def tellReason? (handle : σ → Event → σ × Flow) (s : σ) (reason : Octets) : Option σ :=
  if reason.isEmpty then some s else told? handle s .reason reason

/-- What comes of a reason once it is open: the rest of it, up to the end of the line. -/
theorem ends_reason :
    Ends handle (l.inPhase .reason) s opened x s' line ↔
      ∃ reason rest, x = reason ++ rest ∧ Only isFieldValueChar reason ∧
        ∃ t, told? handle s .reason (reason.reverse ++ opened).reverse = some t ∧
          EndsAfterLine handle (l.inPhase .fieldStart) t rest s' line := by
  refine ends_upToLineEnd (p := isFieldValueChar) rfl rfl (fun b hb ↦ ?stay) rfl rfl
    (fun b hb hcr hlf ↦ ⟨.invalidReason, ?other⟩) (needsLf_startLineLf l) rfl rfl
  case stay =>
    have hcr : b.toNat ≠ 0x0D := ne_of_class hb rfl
    have hlf : b.toNat ≠ 0x0A := ne_of_class hb rfl
    simp [step, inPhase, hcr, hlf, hb]
  case other => simp [step, inPhase, hcr, hlf, hb]

/-- A reason that may be empty, up to the end of the line. -/
theorem ends_reasonStart :
    Ends handle (l.inPhase .reasonStart) s [] x s' line ↔
      ∃ reason rest t, x = reason ++ rest ∧ Only isFieldValueChar reason ∧
        tellReason? handle s reason = some t ∧
          EndsAfterLine handle (l.inPhase .fieldStart) t rest s' line := by
  cases x with
  | nil =>
    refine iff_of_false (not_ends_nil rfl) ?_
    rintro ⟨reason, rest, t, hx, -, -, hrest⟩
    obtain ⟨-, rfl⟩ := List.append_eq_nil_iff.1 hx.symm
    exact not_endsAfterLine_nil hrest
  | cons b x =>
    by_cases hb : isFieldValueChar b.toNat = true
    · have hcr : b.toNat ≠ 0x0D := ne_of_class hb rfl
      have hlf : b.toNat ≠ 0x0A := ne_of_class hb rfl
      have hstep : (l.inPhase .reasonStart).step b = .ok (l.inPhase .reason, .extend) := by
        simp [step, inPhase, enter, hcr, hlf, hb]
      rw [ends_cons_extend hstep, ends_reason]
      constructor
      · rintro ⟨reason, rest, rfl, honly, t, ht, hrest⟩
        refine ⟨b :: reason, rest, t, rfl, only_cons.2 ⟨hb, honly⟩, ?_, hrest⟩
        simpa [tellReason?] using ht
      · rintro ⟨reason, rest, t, hx, honly, ht, hrest⟩
        -- A reason that is empty would be followed by a line end, and this octet is none.
        rcases List.cons_eq_append_iff.1 hx with ⟨-, rfl⟩ | ⟨reason, rfl, rfl⟩
        · exact absurd hrest (not_endsAfterLine_cons hcr hlf)
        · refine ⟨reason, rest, rfl, (only_cons.1 honly).2, t, ?_, hrest⟩
          simpa [tellReason?] using ht
    · have hstep (hcr : b.toNat ≠ 0x0D) (hlf : b.toNat ≠ 0x0A) :
          ∃ e, (l.inPhase .reasonStart).step b = .error e :=
        ⟨.invalidReason, by simp [step, inPhase, hcr, hlf, hb]⟩
      rw [ends_cons_lineEnd rfl rfl (needsLf_startLineLf l) rfl hstep]
      constructor
      · exact fun hrest ↦ ⟨[], b :: x, s, rfl, only_nil, rfl, hrest⟩
      · rintro ⟨reason, rest, t, hx, honly, ht, hrest⟩
        rcases List.cons_eq_append_iff.1 hx with ⟨rfl, rfl⟩ | ⟨reason, rfl, -⟩
        · obtain rfl : s = t := Option.some.inj ht
          exact hrest
        · exact absurd (only_cons.1 honly).1 hb

/-! ### The status code -/

/-- What comes after a status code: a reason or none, and the end of the line. -/
def EndsAfterStatus (handle : σ → Event → σ × Flow) (l : Lexer .response) (s : σ) (x : Octets)
    (s' : σ) (line : StartLine) : Prop :=
  ∃ tail reason rest t, x = tail ++ rest ∧ SpellsReason reason tail ∧
    tellReason? handle s reason = some t ∧
      EndsAfterLine handle (l.inPhase .fieldStart) t rest s' line

/-- Behind a space, a reason comes, which may be empty. -/
theorem endsAfterStatus_space :
    EndsAfterStatus handle l s (0x20 :: x) s' line ↔
      Ends handle (l.inPhase .reasonStart) s [] x s' line := by
  rw [ends_reasonStart]
  constructor
  · rintro ⟨tail, reason, rest, t, hx, hspells, ht, hrest⟩
    cases hspells with
    | absent =>
      obtain rfl : 0x20 :: x = rest := hx
      exact absurd hrest (not_endsAfterLine_cons (by decide) (by decide))
    | given honly => exact ⟨reason, rest, t, (List.cons.inj hx).2, honly, ht, hrest⟩
  · rintro ⟨reason, rest, t, rfl, honly, ht, hrest⟩
    exact ⟨0x20 :: reason, reason, rest, t, rfl, .given honly, ht, hrest⟩

/-- Without a space, the line ends and the reason is empty. -/
theorem endsAfterStatus_of_ne {b : UInt8} (hb : b.toNat ≠ 0x20) :
    EndsAfterStatus handle l s (b :: x) s' line ↔
      EndsAfterLine handle (l.inPhase .fieldStart) s (b :: x) s' line := by
  constructor
  · rintro ⟨tail, reason, rest, t, hx, hspells, ht, hrest⟩
    cases hspells with
    | absent =>
      obtain rfl : s = t := Option.some.inj ht
      exact hx ▸ hrest
    | given =>
      obtain ⟨rfl, -⟩ := List.cons.inj hx
      exact absurd rfl hb
  · exact fun h ↦ ⟨[], [], b :: x, s, rfl, .absent, rfl, h⟩

/-- After the third digit, the status code is complete. -/
theorem ends_status_three :
    Ends handle (l.inPhase (.status 3)) s [] x s' line ↔
      EndsAfterStatus handle l s x s' line := by
  cases x with
  | nil =>
    refine iff_of_false (not_ends_nil rfl) ?_
    rintro ⟨tail, reason, rest, t, hx, -, -, hrest⟩
    obtain ⟨-, rfl⟩ := List.append_eq_nil_iff.1 hx.symm
    exact not_endsAfterLine_nil hrest
  | cons b x =>
    by_cases hspace : b.toNat = 0x20
    · obtain rfl : b = 0x20 := UInt8.toNat_inj.1 hspace
      have hstep : (l.inPhase (.status 3)).step 0x20 = .ok (l.inPhase .reasonStart, .skip) := rfl
      rw [ends_cons_skip hstep, endsAfterStatus_space]
    · have hstep (hcr : b.toNat ≠ 0x0D) (hlf : b.toNat ≠ 0x0A) :
          ∃ e, (l.inPhase (.status 3)).step b = .error e :=
        ⟨.invalidStatus, by simp [step, inPhase, hspace, hcr, hlf]⟩
      rw [ends_cons_lineEnd rfl rfl (needsLf_startLineLf l) rfl hstep,
        endsAfterStatus_of_ne hspace]

/-- The digits of a status code that are still to come, after those that are read. -/
theorem ends_status {read : Octets} (m : Nat) (hread : read.length + m = 3) :
    Ends handle ((l.withStatus (Radix.decimal.value read)).inPhase (.status read.length)) s [] x s'
        line ↔
      ∃ digits rest, x = digits ++ rest ∧ digits.length = m ∧ Only isDigit digits ∧
        EndsAfterStatus handle (l.withStatus (Radix.decimal.value (read ++ digits))) s rest s'
          line := by
  -- The induction is on the digits to come; their value is that of all digits, those read in front.
  induction m generalizing read x with
  | zero =>
    have hthree : read.length = 3 := hread
    rw [hthree, ends_status_three]
    constructor
    · intro h
      refine ⟨[], x, rfl, rfl, only_nil, ?_⟩
      rwa [List.append_nil]
    · rintro ⟨digits, rest, rfl, hnil, -, h⟩
      obtain rfl : digits = [] := List.length_eq_zero_iff.1 hnil
      rwa [List.append_nil] at h
  | succ m ih =>
    cases x with
    | nil =>
      refine iff_of_false (not_ends_nil rfl) ?_
      rintro ⟨digits, rest, hx, hlength, -⟩
      obtain ⟨rfl, -⟩ := List.append_eq_nil_iff.1 hx.symm
      cases hlength
    | cons b x =>
      have hlt : read.length < 3 := by omega
      have hnext : (read ++ [b]).length + m = 3 := by
        rw [List.length_append, List.length_singleton]
        omega
      have hstep : Ends handle
          ((l.withStatus (Radix.decimal.value read)).inPhase (.status read.length)) s [] (b :: x) s'
            line ↔
          isDigit b.toNat = true ∧ Ends handle ((l.withStatus (Radix.decimal.value
            (read ++ [b]))).inPhase (.status (read ++ [b]).length)) s [] x s' line := by
        refine ends_cons_skip_iff (fun hb ↦ ?_) fun hb ↦ ⟨.invalidStatus, ?_⟩
        · rw [Radix.value_append_singleton, List.length_append, List.length_singleton]
          simp [step, inPhase, withStatus, hlt, hb, Radix.decimal]
        · simp [step, inPhase, hlt, hb]
      rw [hstep, ih hnext]
      constructor
      · rintro ⟨hb, digits, rest, rfl, rfl, honly, h⟩
        refine ⟨b :: digits, rest, rfl, rfl, only_cons.2 ⟨hb, honly⟩, ?_⟩
        simpa using h
      · rintro ⟨digits, rest, hx, hlength, honly, h⟩
        cases digits with
        | nil => cases hlength
        | cons d digits =>
          obtain ⟨rfl, rfl⟩ := List.cons.inj hx
          obtain ⟨hd, honly⟩ := only_cons.1 honly
          refine ⟨hd, digits, rest, rfl, Nat.succ.inj hlength, honly, ?_⟩
          simpa using h

/-- Three digits, and what comes after a status code. -/
theorem ends_statusStart :
    Ends handle (l.inPhase .statusStart) s [] x s' line ↔
      ∃ digits n rest, x = digits ++ rest ∧ SpellsStatus n digits ∧
        EndsAfterStatus handle (l.withStatus n) s rest s' line := by
  cases x with
  | nil =>
    refine iff_of_false (not_ends_nil rfl) ?_
    rintro ⟨digits, n, rest, hx, hspells, -⟩
    obtain ⟨rfl, -⟩ := List.append_eq_nil_iff.1 hx.symm
    cases hspells.length
  | cons b x =>
    have hone : Radix.decimal.value [b] = b.toNat - 0x30 := by
      simp [Radix.value, Radix.decimal]
    have hstep : Ends handle (l.inPhase .statusStart) s [] (b :: x) s' line ↔
        isDigit b.toNat = true ∧ Ends handle
          ((l.withStatus (Radix.decimal.value [b])).inPhase (.status [b].length)) s [] x s'
            line := by
      rw [hone]
      exact ends_cons_skip_iff (fun hb ↦ if_pos hb) fun hb ↦ ⟨.invalidStatus, if_neg hb⟩
    rw [hstep, ends_status 2 rfl]
    constructor
    · rintro ⟨hb, digits, rest, rfl, hlength, honly, h⟩
      exact ⟨b :: digits, _, rest, rfl,
        ⟨congrArg Nat.succ hlength, only_cons.2 ⟨hb, honly⟩, rfl⟩, h⟩
    · rintro ⟨digits, n, rest, hx, ⟨hlength, honly, rfl⟩, h⟩
      cases digits with
      | nil => cases hlength
      | cons d digits =>
        obtain ⟨rfl, rfl⟩ := List.cons.inj hx
        obtain ⟨hd, honly⟩ := only_cons.1 honly
        exact ⟨hd, digits, rest, rfl, Nat.succ.inj hlength, honly, h⟩

/-! ### The version -/

/-- A version, a space and what comes after them. -/
def EndsAfterSkip (handle : σ → Event → σ × Flow) (l : Lexer .response) (s : σ) (x : Octets)
    (s' : σ) (line : StartLine) : Prop :=
  ∃ version v y, x = version ++ 0x20 :: y ∧ SpellsVersion v version ∧
    Ends handle ((l.withVersion v).inPhase .statusStart) s [] y s' line

/-- A version begins with the first letter of the name of the protocol. -/
theorem exists_of_endsAfterSkip (h : EndsAfterSkip handle l s x s' line) :
    ∃ y, x = 0x48 :: y := by
  obtain ⟨version, v, y, rfl, hspells, -⟩ := h
  cases hspells with
  | mk => exact ⟨_, rfl⟩

/-- After the first letter of the protocol name. -/
theorem ends_protocol_response :
    Ends handle (l.inPhase (.protocol 1)) s [] x s' line ↔
      EndsAfterSkip handle l s (0x48 :: x) s' line := by
  have hname : protocolName = 0x48 :: protocolName.drop 1 := rfl
  have hversion (y : Octets) : Ends handle (l.inPhase .majorStart) s [] y s' line ↔
      ∃ text v rest, y = text ++ rest ∧ SpellsVersion v (protocolName ++ text) ∧
        ∃ z, rest = 0x20 :: z ∧
          Ends handle ((l.withVersion v).inPhase .statusStart) s [] z s' line := by
    refine ends_version (X := fun v rest ↦ ∃ z, rest = 0x20 :: z ∧
      Ends handle ((l.withVersion v).inPhase .statusStart) s [] z s' line)
      (fun {v b y} hb ↦ ?leave) ?exit
    case leave =>
      by_cases hspace : b.toNat = 0x20
      · obtain rfl : b = 0x20 := UInt8.toNat_inj.1 hspace
        have hstep : ((l.withVersion v).inPhase .minor).step 0x20 =
            .ok ((l.withVersion v).inPhase .statusStart, .skip) := rfl
        rw [ends_cons_skip hstep]
        simp
      · have hb' : b ≠ 0x20 := fun h ↦ hspace (congrArg UInt8.toNat h)
        have hstep : ((l.withVersion v).inPhase .minor).step b = .error .invalidVersion := by
          simp [step, inPhase, withVersion, versionDigit?_eq_none hb, hspace]
        exact iff_of_false (not_ends_cons_error hstep) (by simp [hb'])
    case exit =>
      rintro v rest ⟨z, rfl, -⟩
      exact ⟨0x20, z, rfl, rfl⟩
  rw [ends_protocol (protocolName.drop 1) (by decide) rfl]
  constructor
  · rintro ⟨y, rfl, h⟩
    obtain ⟨text, v, rest, rfl, hspells, z, rfl, hrest⟩ := (hversion y).1 h
    refine ⟨protocolName ++ text, v, z, ?_, hspells, hrest⟩
    rw [List.append_assoc]
    rfl
  · rintro ⟨_, v, y, hx, ⟨hmajor, hminor⟩, hrest⟩
    rw [hname, List.cons_append, List.cons_append] at hx
    refine ⟨_, (List.cons.inj hx).2.trans (List.append_assoc _ _ _), ?_⟩
    exact (hversion _).2 ⟨_, v, _, rfl, .mk hmajor hminor, y, rfl, hrest⟩

/-- Line ends are skipped, and then a version comes. -/
theorem ends_responseStart :
    Ends handle (l.inPhase .responseStart) s [] x s' line ↔
      ∃ skip rest, x = skip ++ rest ∧ Only isLineEndChar skip ∧
        EndsAfterSkip handle l s rest s' line := by
  refine loop_iff (E := fun _ x ↦ Ends handle (l.inPhase .responseStart) s [] x s' line)
    (X := fun _ rest ↦ EndsAfterSkip handle l s rest s' line) (o := [])
    (fun _ ↦ not_ends_nil rfl) ?stay ?leave ?exit
  case stay =>
    intro _ b x hb
    have hb' : b.toNat = 0x0D ∨ b.toNat = 0x0A := by simpa [isLineEndChar] using hb
    exact ends_cons_skip (if_pos hb')
  case leave =>
    intro _ b x hb
    have hb' : ¬ (b.toNat = 0x0D ∨ b.toNat = 0x0A) := by simpa [isLineEndChar] using hb
    by_cases hletter : b.toNat = 0x48
    · obtain rfl : b = 0x48 := UInt8.toNat_inj.1 hletter
      have hstep : (l.inPhase .responseStart).step 0x48 = .ok (l.inPhase (.protocol 1), .skip) :=
        rfl
      rw [ends_cons_skip hstep, ends_protocol_response]
    · have hstep : (l.inPhase .responseStart).step b = .error .invalidConstant := by
        simp [step, inPhase, hb', hletter]
      refine iff_of_false (not_ends_cons_error hstep) fun h ↦ ?_
      obtain ⟨y, hx⟩ := exists_of_endsAfterSkip h
      obtain ⟨rfl, -⟩ := List.cons.inj hx
      exact hletter rfl
  case exit =>
    intro _ rest h
    obtain ⟨y, rfl⟩ := exists_of_endsAfterSkip h
    exact ⟨0x48, y, rfl, rfl⟩

/-! ### The whole head -/

/-- The state after a handler was told the parts of a response head, if it wants to go on. -/
def tellResponse? (handle : σ → Event → σ × Flow) (s : σ) (p : RawResponse) : Option σ :=
  (tellReason? handle s p.reason).bind fun t ↦ tellLines? handle t p.lines

/-- **The language of response heads.** What leads a lexer of responses to the end of a head is a
head without its last line feed. The handler is told the parts of this head, and the lexer has read
its version and its status code. -/
theorem ends_response :
    Ends handle (l.inPhase .responseStart) s [] x s' line ↔
      ∃ p : RawResponse, p.Spells (x ++ [0x0A]) ∧ tellResponse? handle s p = some s' ∧
        line = ⟨p.version, p.status⟩ := by
  rw [ends_responseStart]
  constructor
  · rintro ⟨skip, _, rfl, hskip, version, v, _, rfl, hversion, h⟩
    obtain ⟨digits, n, _, rfl, hstatus, tail, reason, _, t, rfl, hreason, ht, eol, _, rfl, heol,
      hfields⟩ := ends_statusStart.1 h
    obtain ⟨lines, fields, last, rfl, hlines, hlast, htell, rfl⟩ := ends_headerLines.1 hfields
    refine ⟨⟨v, n, reason, lines⟩, ?_, ?_, rfl⟩
    · have hspells := RawResponse.Spells.mk (p := ⟨v, n, reason, lines⟩) hskip hversion hstatus
        hreason heol hlines hlast
      simpa using hspells
    · rw [tellResponse?, ht, Option.bind_some, htell]
  · rintro ⟨⟨v, n, reason, lines⟩, hspells, htell, rfl⟩
    obtain ⟨t, ht, htell⟩ := Option.bind_eq_some_iff.1 htell
    generalize hx : x ++ [0x0A] = z at hspells
    cases hspells with
    | @mk skip version digits tail eol fields eol' hskip hversion hstatus hreason heol hlines
        heol' =>
      obtain ⟨last, rfl⟩ := heol'.exists_append_lf
      have hx' : x ++ [0x0A] = (skip ++ (version ++ 0x20 :: (digits ++ (tail ++ (eol ++
          (fields ++ last)))))) ++ [0x0A] := by
        rw [hx]
        simp
      obtain rfl := List.append_cancel_right hx'
      have hfields : Ends handle (((l.withVersion v).withStatus n).inPhase .fieldStart) t []
          (fields ++ last) s' ⟨v, n⟩ :=
        ends_headerLines.2 ⟨lines, fields, last, rfl, hlines, heol', htell, rfl⟩
      have hcode := ends_statusStart (l := l.withVersion v).2 ⟨digits, n, _, rfl, hstatus, tail,
        reason, _, t, rfl, hreason, ht, eol, _, rfl, heol, hfields⟩
      exact ⟨skip, _, rfl, hskip, version, v, _, rfl, hversion, hcode⟩

end Lexer

end HttpFraming
