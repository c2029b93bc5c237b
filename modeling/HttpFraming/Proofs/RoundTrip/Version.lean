import HttpFraming.Proofs.Grammar.Request
import HttpFraming.Proofs.RoundTrip.Parts
import Mathlib.Data.List.TakeWhile

/-!
# Two readers of versions

A version is read in two places. A text of its own is cut at its first full stop, and what stands on
either side is read as a number (`Version.parse`). In a request line the octets go through a lexer
one by one, which checks each number as it grows. Both read the same: what spells a version in a
request line is what is read from a text as a version with numbers below 1000
(`spellsVersion_encode_iff`), however many zeros stand in front of the numbers.

`RequestParser.accepts_version_iff` says so of whole requests. Nothing but a version can stand
between the blank after the target and the end of the line, so that a request of one line is
accepted exactly if a version can be read there.

## The bounds

The text has numbers that fit in 32 bits, the request line numbers of three digits. Neither bound is
about the number of digits, and so a text may be read as a version that no request line has, but not
the other way round.

## What else could stand there

From an accepted request line to a version one has to rule out every other way to cut the line: that
the version is missing and the blank belongs to something else, that it ends before the text does,
or that the line ends inside of it and header lines follow. The cuts are determined by classes of
octets. A target ends at the first octet that is none of its own (`Only.append_inj`), the text has
no line ends, and behind it there is nothing but two of them, where no header line begins
(`RawLine.SpellAll.eq_nil`). Since the text is arbitrary otherwise, this is about any octets, and no
lexer occurs in it.
-/

namespace HttpFraming

open CharClass

/-! ### Versions as text -/

namespace Version

variable {v : Version} {s : String}

theorem parse_eq_ok_iff : parse s = .ok v ↔ parse? s = some v := by
  rw [parse]
  cases parse? s <;> simp

/-- A number that fits in 32 bits as one that fits in three digits. -/
theorem readBelow?_thousand_iff {cs : List Char} {n : Nat} :
    Decimal.readBelow? 1000 cs = some n ↔ Decimal.readBelow? bound cs = some n ∧ n ≤ 999 := by
  have hbound : 1000 ≤ bound := by decide
  simp only [Decimal.readBelow?_eq_some_iff]
  constructor
  · rintro ⟨hne, hdigits, hvalue, hlt⟩
    exact ⟨⟨hne, hdigits, hvalue, Nat.lt_of_lt_of_le hlt hbound⟩, Nat.le_of_lt_succ hlt⟩
  · rintro ⟨⟨hne, hdigits, hvalue, -⟩, hle⟩
    exact ⟨hne, hdigits, hvalue, Nat.lt_succ_of_le hle⟩

/-- A text is read as a version if it is `HTTP/` and two numbers with a full stop between them. -/
theorem parse?_eq_some_iff : parse? s = some v ↔
    ∃ major minor, s = "HTTP/" ++ major ++ "." ++ minor ∧
      Decimal.readBelow? bound major.toList = some v.major ∧
        Decimal.readBelow? bound minor.toList = some v.minor := by
  constructor
  · intro h
    unfold parse? at h
    split at h
    · rename_i numbers hs
      unfold ofNumbers? at h
      split at h
      · cases h
      · rename_i major d minor hcut
        obtain ⟨rfl, hnumbers, -⟩ := cut?_mark_eq_some_iff.1 hcut
        split at h
        · rename_i a b ha hb
          cases h
          refine ⟨String.ofList major, String.ofList minor, ?_, by simpa using ha,
            by simpa using hb⟩
          apply String.toList_inj.1
          simp [hs, hnumbers]
        · cases h
    · cases h
  · rintro ⟨major, minor, rfl, ha, hb⟩
    have hlist : ("HTTP/" ++ major ++ "." ++ minor).toList =
        'H' :: 'T' :: 'T' :: 'P' :: '/' :: (major.toList ++ '.' :: minor.toList) := by
      simp
    have hdot : '.' ∉ major.toList := fun hmem ↦
      absurd ((Decimal.readBelow?_eq_some_iff.1 ha).2.1 '.' hmem) (by decide)
    rw [parse?, hlist]
    simp only [ofNumbers?, cut?_mark_append hdot, ha, hb]

end Version

/-! ### Versions as octets -/

/-- **What spells a version on the wire** is what is read from a text, if its numbers are
at most 999. -/
theorem spellsVersion_encode_iff {v : Version} {s : String} :
    SpellsVersion v (Utf8.encode s) ↔
      Version.parse? s = some v ∧ v.major ≤ 999 ∧ v.minor ≤ 999 := by
  have hname : Utf8.encode "HTTP/" = Lexer.protocolName := by decide
  have hdot : Utf8.encode "." = [0x2E] := by decide
  have hencode (major minor : String) : Utf8.encode ("HTTP/" ++ major ++ "." ++ minor) =
      Lexer.protocolName ++ (Utf8.encode major ++ 0x2E :: Utf8.encode minor) := by
    simp [hname, hdot]
  rw [Version.parse?_eq_some_iff]
  constructor
  · intro h
    generalize hx : Utf8.encode s = x at h
    cases h with
    | @mk major minor hmajor hminor =>
      -- Digits are ASCII, so they spell texts, and `s` is made of these.
      obtain ⟨major, rfl⟩ := Utf8.exists_encode_of_ascii
        fun b hb ↦ lt_of_isDigit (hmajor.only b hb)
      obtain ⟨minor, rfl⟩ := Utf8.exists_encode_of_ascii
        fun b hb ↦ lt_of_isDigit (hminor.only b hb)
      obtain rfl := Utf8.encode_inj (hx.trans (hencode major minor).symm)
      obtain ⟨ha, hle⟩ := Version.readBelow?_thousand_iff.1 (Radix.spells_encode_iff.1 hmajor)
      obtain ⟨hb, hle'⟩ := Version.readBelow?_thousand_iff.1 (Radix.spells_encode_iff.1 hminor)
      exact ⟨⟨major, minor, rfl, ha, hb⟩, hle, hle'⟩
  · rintro ⟨⟨major, minor, rfl, ha, hb⟩, hle, hle'⟩
    rw [hencode]
    exact .mk (Radix.spells_encode_iff.2 (Version.readBelow?_thousand_iff.2 ⟨ha, hle⟩))
      (Radix.spells_encode_iff.2 (Version.readBelow?_thousand_iff.2 ⟨hb, hle'⟩))

/-- Neither a line end nor a blank stands in a version. -/
theorem SpellsVersion.only {v : Version} {x : Octets} (h : SpellsVersion v x) :
    Only (fun c ↦ !isLineEndChar c) x := by
  have hdigit (c : Nat) (hc : isDigit c = true) : (!isLineEndChar c) = true := by
    simp only [isDigit, isLineEndChar, Bool.and_eq_true, decide_eq_true_eq, Bool.not_eq_true',
      Bool.or_eq_false_iff, beq_eq_false_iff_ne] at hc ⊢
    omega
  cases h with
  | mk hmajor hminor =>
    exact only_append.2 ⟨by decide, only_append.2
      ⟨hmajor.only.imp hdigit, only_cons.2 ⟨by decide, hminor.only.imp hdigit⟩⟩⟩

/-- A text without characters of a class within ASCII is spelled without octets of it. -/
theorem Utf8.only_not_encode {p : Nat → Bool} (hp : ∀ n, p n = true → n < 0x80) {s : String}
    (h : ∀ c ∈ s.toList, p c.toNat = false) : Only (fun n ↦ !p n) (Utf8.encode s) := by
  intro b hb
  obtain ⟨c, hc, hmem⟩ := List.mem_flatMap.1 hb
  by_cases hpb : p b.toNat = true
  · have hbc : c.toNat = b.toNat := Utf8.toNat_eq_of_mem_encodeChar hmem (hp _ hpb)
    exact absurd ((h c hc).symm.trans (hbc ▸ hpb)) Bool.false_ne_true
  · simpa using hpb

/-! ### Request lines -/

/-- Where a class ends, octets can be cut in one way only. -/
theorem Only.append_inj {p : Nat → Bool} {a b x y : Octets} (ha : Only p a) (hb : Only p b)
    (hx : ∀ c ∈ x.head?, p c.toNat = false) (hy : ∀ c ∈ y.head?, p c.toNat = false)
    (h : a ++ x = b ++ y) : a = b ∧ x = y := by
  have htake {a x : Octets} (ha : Only p a) (hx : ∀ c ∈ x.head?, p c.toNat = false) :
      (a ++ x).takeWhile (fun c ↦ p c.toNat) = a := by
    rw [takeWhile_append_of_head? hx]
    exact List.takeWhile_eq_self_iff.2 ha
  have hab : a = b := by rw [← htake ha hx, h, htake hb hy]
  subst hab
  exact ⟨rfl, List.append_cancel_left h⟩

/-- What begins with a member of one class does not begin with a member of another. -/
theorem Only.head?_append {p p' : Nat → Bool} {a x : Octets} (ha : Only p a) (hne : a ≠ [])
    (h : ∀ c, p c = true → p' c = false) : ∀ c ∈ (a ++ x).head?, p' c.toNat = false := by
  obtain ⟨b, rest, rfl⟩ := List.exists_cons_of_ne_nil hne
  rintro c ⟨⟩
  exact h _ (only_cons.1 ha).1

theorem LineEnd.only {eol : Octets} (h : LineEnd eol) : Only isLineEndChar eol := by
  cases h <;> decide

theorem LineEnd.ne_nil {eol : Octets} (h : LineEnd eol) : eol ≠ [] := by
  cases h <;> exact List.cons_ne_nil _ _

theorem lt_of_isLineEndChar (c : Nat) (h : isLineEndChar c = true) : c < 0x80 := by
  simp only [isLineEndChar, Bool.or_eq_true, beq_iff_eq] at h
  omega

/-- No line end stands in a target. -/
theorem isTargetChar_of_isLineEndChar (c : Nat) (h : isLineEndChar c = true) :
    isTargetChar c = false := by
  simp only [isLineEndChar, Bool.or_eq_true, beq_iff_eq] at h
  rcases h with rfl | rfl <;> rfl

/-- What follows a target does not begin with a character of it. -/
theorem SpellsRequestVersion.head?_append {v : Version} {version eol z : Octets}
    (h : SpellsRequestVersion v version) (heol : LineEnd eol) :
    ∀ c ∈ (version ++ (eol ++ z)).head?, isTargetChar c.toNat = false := by
  cases h with
  | absent => exact heol.only.head?_append heol.ne_nil isTargetChar_of_isLineEndChar
  | given =>
    rintro c ⟨⟩
    rfl

/-- Where a line ends instead of beginning, no lines are left. -/
theorem RawLine.SpellAll.eq_nil {lines : List RawLine} {x z : Octets} (h : SpellAll lines x)
    (hz : ∀ c ∈ (x ++ z).head?, isLineEndChar c.toNat = true) : lines = [] ∧ x = [] := by
  cases h with
  | nil => exact ⟨rfl, rfl⟩
  | cons hline =>
    cases hline with
    | @mk _ _ hne hname =>
      obtain ⟨b, name, hb⟩ := List.exists_cons_of_ne_nil hne
      rw [hb] at hz hname
      have hend := hz b rfl
      rw [Lexer.isLineEndChar_of_isTchar (only_cons.1 hname).1] at hend
      cases hend

/-- After a target and a blank, a line with `text` in it and an empty line are a version, which is
all of the text, and no fields. -/
theorem SpellsRequestVersion.of_line {v : Version} {lines : List RawLine}
    {version eol fields eol' y text : Octets} (hversion : SpellsRequestVersion v version)
    (heol : LineEnd eol) (hfields : RawLine.SpellAll lines fields) (heol' : LineEnd eol')
    (htext : Only (fun c ↦ !isLineEndChar c) text)
    (h : version ++ (eol ++ (fields ++ (eol' ++ y))) =
      0x20 :: (text ++ [0x0D, 0x0A, 0x0D, 0x0A])) :
    SpellsVersion v text ∧ lines = [] ∧ y = [] := by
  cases hversion with
  | absent =>
    -- The blank after the target would have to end the line.
    obtain ⟨b, tail, rfl⟩ := List.exists_cons_of_ne_nil heol.ne_nil
    obtain ⟨rfl, -⟩ := List.cons.inj h
    exact absurd (heol.only 0x20 List.mem_cons_self) (by decide)
  | @given _ spelled hspells =>
    have hstop (c : Nat) (hc : isLineEndChar c = true) : (!isLineEndChar c) = false := by
      rw [hc, Bool.not_true]
    have hcr : ∀ c ∈ [(0x0D : UInt8), 0x0A, 0x0D, 0x0A].head?,
        (!isLineEndChar c.toNat) = false := by
      rintro c ⟨⟩
      rfl
    obtain ⟨rfl, hend⟩ := hspells.only.append_inj htext
      (heol.only.head?_append heol.ne_nil hstop) hcr (List.cons.inj h).2
    cases heol with
    | lf => cases hend
    | crlf =>
      have hlast : fields ++ (eol' ++ y) = [0x0D, 0x0A] := List.append_cancel_left hend
      have hempty : ∀ c ∈ (fields ++ (eol' ++ y)).head?, isLineEndChar c.toNat = true := by
        rw [hlast]
        rintro c ⟨⟩
        rfl
      obtain ⟨hlines, rfl⟩ := hfields.eq_nil hempty
      cases heol' with
      | lf => cases hlast
      | crlf => exact ⟨hspells, hlines, List.append_cancel_left hlast⟩

/-- **What a request of one line consists of**: its method, its target, and a version in all that
stands between the blank after the target and the end of the line. -/
theorem RawRequest.Spells.of_line {q : RawRequest} {x y method target text : Octets}
    (h : q.Spells x) (hmethod : Only isTchar method) (hmethod_ne : method ≠ [])
    (htarget : Only isTargetChar target) (htext : Only (fun c ↦ !isLineEndChar c) text)
    (hx : x ++ y = method ++ 0x20 :: (target ++ 0x20 :: (text ++ [0x0D, 0x0A, 0x0D, 0x0A]))) :
    q.method = method ∧ q.target = target ∧ SpellsVersion q.version text ∧ q.lines = [] ∧
      y = [] := by
  have hblank {p : Nat → Bool} (hp : p 0x20 = false) {z : Octets} :
      ∀ c ∈ ((0x20 : UInt8) :: z).head?, p c.toNat = false := by
    rintro c ⟨⟩
    exact hp
  cases h with
  | @mk skip version eol fields eol' hskip hne honly _ _ honly' hversion heol hfields heol' =>
    simp only [List.append_assoc, List.cons_append] at hx
    obtain ⟨rfl, hline⟩ := hskip.append_inj (b := []) only_nil
      (honly.head?_append hne fun _ ↦ Lexer.isLineEndChar_of_isTchar)
      (hmethod.head?_append hmethod_ne fun _ ↦ Lexer.isLineEndChar_of_isTchar) hx
    obtain ⟨hmethod', hafter⟩ := honly.append_inj hmethod (hblank rfl) (hblank rfl) hline
    obtain ⟨htarget', hrest⟩ := honly'.append_inj htarget (hversion.head?_append heol) (hblank rfl)
      (List.cons.inj hafter).2
    exact ⟨hmethod', htarget', hversion.of_line heol hfields heol' htext hrest⟩

/-! ### Both readers -/

namespace RequestParser

variable {limits : Limits} {q : Request} {n : Nat} {t : String}

/-- `GET /`, a text and two line ends. -/
def requestLine (t : String) : Octets :=
  Utf8.encode ("GET / " ++ t ++ "\r\n\r\n")

/-- A request line by its parts. -/
theorem requestLine_eq (t : String) :
    requestLine t = Utf8.encode "GET" ++ 0x20 :: (Utf8.encode "/" ++ 0x20 ::
      (Utf8.encode t ++ [0x0D, 0x0A, 0x0D, 0x0A])) := by
  have hfront : Utf8.encode "GET / " =
      Utf8.encode "GET" ++ 0x20 :: (Utf8.encode "/" ++ [0x20]) := by decide
  have hback : Utf8.encode "\r\n\r\n" = [0x0D, 0x0A, 0x0D, 0x0A] := by decide
  simp [requestLine, hfront, hback]

/-- A version that can be read from `t` makes a request line of it. -/
theorem spells_requestLine {v : Version} (h : SpellsVersion v (Utf8.encode t)) :
    (⟨"GET", "/", v, []⟩ : RequestText).Spells (requestLine t) := by
  have hmethod : Utf8.encode "GET" ≠ [] ∧ Only isTchar (Utf8.encode "GET") ∧
      (Utf8.encode "GET").length ≤ 32 := by decide
  have htarget : Utf8.encode "/" ≠ [] ∧ Only isTargetChar (Utf8.encode "/") := by decide
  rw [requestLine_eq]
  exact .mk (q := ⟨Utf8.encode "GET", Utf8.encode "/", v, []⟩) only_nil hmethod.1 hmethod.2.1
    hmethod.2.2 htarget.1 htarget.2 (.given h) .crlf .nil .crlf

/-- What begins a request line with `t` in it and is a request is all of the line, and `t` is its
version. -/
theorem of_spells_requestLine {r : RequestText} {x y : Octets} (h : r.Spells x)
    (ht : ∀ c ∈ t.toList, isLineEndChar c.toNat = false) (hx : x ++ y = requestLine t) :
    (∃ v, SpellsVersion v (Utf8.encode t) ∧ r = ⟨"GET", "/", v, []⟩) ∧ y = [] := by
  rw [requestLine_eq] at hx
  obtain ⟨hmethod, htarget, hversion, hlines, hy⟩ :=
    RawRequest.Spells.of_line h (by decide) (by decide) (by decide)
      (Utf8.only_not_encode lt_of_isLineEndChar ht) hx
  obtain ⟨method, target, version, lines⟩ := r
  obtain rfl : method = "GET" := Utf8.encode_inj hmethod
  obtain rfl : target = "/" := Utf8.encode_inj htarget
  obtain rfl : lines = [] := List.map_eq_nil_iff.1 hlines
  exact ⟨⟨version, hversion, rfl⟩, hy⟩

theorem request?_get (v : Version) : (⟨"GET", "/", v, []⟩ : RequestText).request? =
    some ⟨.get, "/", v, .empty⟩ := rfl

/-- What is accepted of a request line is all of it, and its text is read as the version. -/
theorem version_of_accepts (ht : ∀ c ∈ t.toList, isLineEndChar c.toNat = false)
    (h : HeadParser.Accepts limits (requestLine t) q n) :
    n = (requestLine t).length ∧ ∃ v, Version.parse t = .ok v ∧ v.major ≤ 999 ∧
      v.minor ≤ 999 ∧ q = ⟨.get, "/", v, .empty⟩ := by
  rw [HeadParser.accepts_iff_outcome] at h
  have hle : n ≤ (requestLine t).length :=
    (Prod.mk.inj h).2 ▸ HeadParser.consumed_parse_le _ _
  have hsplit := List.take_append_drop n (requestLine t)
  have hlength : ((requestLine t).take n).length = n := List.length_take_of_le hle
  have htake : (HeadParser.new limits : RequestParser).outcome
      ((requestLine t).take n ++ (requestLine t).drop n) =
        (.accepted q, ((requestLine t).take n).length) := by
    rw [hsplit, hlength, h]
  obtain ⟨r, hspells, -, hrequest⟩ := accepts_iff_spells.1 htake
  obtain ⟨⟨v, hversion, rfl⟩, hrest⟩ := of_spells_requestLine hspells ht hsplit
  obtain ⟨hparse, hmajor, hminor⟩ := spellsVersion_encode_iff.1 hversion
  have hq : q = ⟨.get, "/", v, .empty⟩ := Option.some.inj (hrequest.symm.trans (request?_get v))
  exact ⟨Nat.le_antisymm hle (List.drop_eq_nil_iff.1 hrest), v,
    Version.parse_eq_ok_iff.2 hparse, hmajor, hminor, hq⟩

/-- A request line with a text that is read as a version is accepted. -/
theorem accepts_of_version (hlimits : 1 ≤ limits.target) {v : Version}
    (hv : Version.parse t = .ok v) (hmajor : v.major ≤ 999) (hminor : v.minor ≤ 999) :
    HeadParser.Accepts limits (requestLine t) (⟨.get, "/", v, .empty⟩ : Request)
      (requestLine t).length := by
  have hspells := spells_requestLine
    (spellsVersion_encode_iff.2 ⟨Version.parse_eq_ok_iff.1 hv, hmajor, hminor⟩)
  have htarget : (Utf8.encode "/").length = 1 := by decide
  have hfits : (⟨"GET", "/", v, []⟩ : RequestText).Fits limits := by
    refine ⟨?_, Nat.zero_le _, List.forall_mem_nil _⟩
    rw [RequestText.raw, htarget]
    exact hlimits
  have haccepts : (HeadParser.new limits : RequestParser).outcome (requestLine t ++ []) =
      (.accepted ⟨.get, "/", v, .empty⟩, (requestLine t).length) :=
    accepts_iff_spells.2 ⟨_, hspells, hfits, request?_get v⟩
  rw [HeadParser.accepts_iff_outcome]
  rwa [List.append_nil] at haccepts

/-- There are two line end characters. -/
theorem isLineEndChar_eq_false {c : Char} (hcr : c ≠ '\r') (hlf : c ≠ '\n') :
    isLineEndChar c.toNat = false := by
  rw [isLineEndChar, Bool.or_eq_false_iff, beq_eq_false_iff_ne, beq_eq_false_iff_ne]
  exact ⟨fun h ↦ hcr (Char.toNat_inj.1 h), fun h ↦ hlf (Char.toNat_inj.1 h)⟩

/-- **The two readers of versions agree** with each other and with the writer. A version whose
numbers fit in 32 bits is read back from its text. And whatever text without line ends stands in a
request line, the request is accepted exactly if the text is read as a version with numbers of at
most 999, and then it is a request of that version. -/
theorem accepts_version_iff (limits : Limits) (hlimits : 1 ≤ limits.target) :
    (∀ major minor : UInt32, Version.parse (⟨major.toNat, minor.toNat⟩ : Version).toText =
      .ok ⟨major.toNat, minor.toNat⟩) ∧
    ∀ t : String, '\r' ∉ t.toList → '\n' ∉ t.toList → ∀ (q : Request) (n : Nat),
      HeadParser.Accepts limits (requestLine t) q n ↔
        n = (requestLine t).length ∧ ∃ v, Version.parse t = .ok v ∧ v.major ≤ 999 ∧
          v.minor ≤ 999 ∧ q = ⟨.get, "/", v, .empty⟩ := by
  refine ⟨fun major minor ↦ ?_, fun t hcr hlf q n ↦ ?_⟩
  · exact Version.parse_eq_ok_iff.2 (Version.parse?_toText major.toNat_lt minor.toNat_lt)
  have ht (c : Char) (hc : c ∈ t.toList) : isLineEndChar c.toNat = false :=
    isLineEndChar_eq_false (fun h ↦ hcr (h ▸ hc)) fun h ↦ hlf (h ▸ hc)
  constructor
  · exact version_of_accepts ht
  · rintro ⟨rfl, v, hv, hmajor, hminor, rfl⟩
    exact accepts_of_version hlimits hv hmajor hminor

/-- Zeros in front of a number count neither in a text nor in a request line. -/
theorem accepts_version_iff_zeros :
    1 ≤ Limits.standard.target ∧ HeadParser.Accepts .standard (requestLine "HTTP/0001.00999")
      (⟨.get, "/", ⟨1, 999⟩, .empty⟩ : Request) 25 := by
  have hlimits : 1 ≤ Limits.standard.target := by decide
  have hparse : Version.parse "HTTP/0001.00999" = .ok ⟨1, 999⟩ := by decide
  have hlength : 25 = (requestLine "HTTP/0001.00999").length := by decide
  exact ⟨hlimits, ((accepts_version_iff .standard hlimits).2 "HTTP/0001.00999" (by decide)
    (by decide) ⟨.get, "/", ⟨1, 999⟩, .empty⟩ 25).2
      ⟨hlength, _, hparse, by decide, by decide, rfl⟩⟩

end RequestParser

end HttpFraming
