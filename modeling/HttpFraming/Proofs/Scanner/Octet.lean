import HttpFraming.Proofs.Checked
import HttpFraming.Proofs.Lexer.Step
import HttpFraming.Wire.Scanner
import Mathlib.Tactic.MkIffOfInductiveProp

/-!
# What one octet does to a scanner

The numbers of a scanner are added to and multiplied under conditions that stand elsewhere: the
number of octets of a method is checked when another one comes, and how many digits a status code
has is part of the place. So that none of them leaves its width, all have to be bounded together.

`Scanner.Bounded` are these bounds. `Scanner.matches_act` goes through the places once. In each, an
octet makes a scanner do what `Lexer.step` says, with the same numbers, and afterwards the bounds
hold again. Nothing later looks at the places.

## What is compared

A scanner has numbers of fixed width, and operations on them that have no result where they would
overflow. `Scanner.toLexer` is the lexer that it is, with the same numbers without width. `Matches`
says three things of one octet at once: that there is a result, that it is what the lexer does, and
that the bounds hold of the scanner afterwards. They belong together, because in each branch the
bound before is what gives the result, and the value of the result is what gives the bound after.

## Places with counters

Places that compute something have lemmas of their own, which name the number that could overflow:
octets of a method, letters of the name of the protocol, the two numbers of a version, a status
code, and the size of a chunk. The size may be any number that its width holds, so that the check is
the overflow itself. The others have bounds far below their widths. All other places are settled by
looking at both sides.
-/

namespace HttpFraming

/-- The places that only a chunked body has. -/
def Place.ofChunks : Place → Bool
  | sizeStart | size | sizeExtension | sizeLf | chunkData | dataEnd | dataLf => true
  | _ => false

namespace Scanner

open CharClass

variable {part : MessagePart} {t : Scanner part} {b : UInt8}

/-- The bounds that a scanner keeps to. Only in a chunked body are there chunks and a trailer, and
it is dead exactly if it has failed. -/
@[mk_iff]
structure Bounded (t : Scanner part) : Prop where
  protocol : ∀ k, t.place = .protocol k → k.toNat ≤ 4
  status : ∀ d, t.place = .status d → 1 ≤ d.toNat ∧ d.toNat ≤ 3 ∧ t.status.toNat < 10 ^ d.toNat
  major : t.major.toNat ≤ 999
  minor : t.minor.toNat ≤ 999
  method : t.place = .method → t.methodLength.toNat ≤ 32
  chunkData : t.place = .chunkData → 0 < t.remaining.toNat
  chunks : t.trailing = true ∨ t.place.ofChunks = true → part = .chunkedBody
  error : t.error? = none ↔ t.place ≠ .dead

/-- What the octet `b` makes a scanner do, next to the step of the lexer that it is. The data of a
chunk are not compared here, because the lexer goes through them octet by octet. -/
def Matches (t : Scanner part) (b : UInt8) : Checked (Action part) → Prop
  | none => False
  | some (.pass t') =>
    Bounded t' ∧ t'.place.span? = t.place.span? ∧
      t.toLexer.step b = .ok (t'.toLexer, if t.place.span?.isSome then .extend else .skip)
  | some (.mark t') =>
    Bounded t' ∧ t.place.span? = none ∧ t'.place.span?.isSome ∧
      t.toLexer.step b = .ok (t'.toLexer, .extend)
  | some (.close span t') =>
    Bounded t' ∧ t.place.span? = some span ∧ t'.place.span? = none ∧
      t.toLexer.step b = .ok (t'.toLexer, .close span)
  | some (.closeEmpty span t') =>
    Bounded t' ∧ t.place.span? = none ∧ t'.place.span? = none ∧
      t.toLexer.step b = .ok (t'.toLexer, .close span)
  | some .takeData => t.place = .chunkData
  | some .endHeaders => t.place.span? = none ∧ t.toLexer.step b = t.toLexer.endHeaders
  | some (.reject t' cause) =>
    Bounded (t'.fail cause) ∧ (t'.fail cause).toLexer = t.toLexer.fail cause ∧
      t.toLexer.step b = .error cause

/-- What is true for each digit, and for octets that are none, is true. -/
theorem onDigit_cases {α : Type} {P : Checked α → Prop} {digit : BitVec 32 → Checked α}
    {other : Checked α}
    (hdigit : ∀ d : BitVec 32, isDigit b.toNat = true → d.toNat = b.toNat - 0x30 → d.toNat ≤ 9 →
      P (digit d))
    (hother : isDigit b.toNat = false → P other) : P (onDigit b digit other) := by
  rw [onDigit, digit?]
  split
  · rename_i h
    have hrange : 0x30 ≤ b.toNat ∧ b.toNat ≤ 0x39 := by simpa [isDigit] using h
    obtain ⟨d, hd, hvalue⟩ := Checked.exists_sub? (a := b.toBitVec) (b := 0x30) hrange.1
    rw [hd]
    have hwide : (d.setWidth 32).toNat = b.toNat - 0x30 := by
      rw [BitVec.toNat_setWidth_of_le (by decide), hvalue]
      rfl
    exact hdigit _ h hwide (by omega)
  · exact hother (eq_false_of_ne_true ‹_›)

theorem ne_of_isDigit {c : Nat} (h : isDigit c = true) : c ≠ 0x0D ∧ c ≠ 0x0A ∧ c ≠ 0x20 := by
  have hrange : 0x30 ≤ c ∧ c ≤ 0x39 := by simpa [isDigit] using h
  omega

/-- A number with a digit more is the one that is meant, if the width holds it. -/
theorem append?_eq {w : Nat} (base n d : BitVec w) :
    append? base n d = Checked.ofNat? w (n.toNat * base.toNat + d.toNat) := by
  rw [append?, Checked.mul?]
  by_cases h : n.toNat * base.toNat < 2 ^ w
  · obtain ⟨m, hm, hvalue⟩ := Checked.exists_ofNat? h
    rw [hm, Option.bind_some, Checked.add?, hvalue]
  · have hlarge := Nat.le_of_not_lt h
    rw [Checked.ofNat?_eq_none_iff.2 hlarge,
      Checked.ofNat?_eq_none_iff.2 (Nat.le_add_right_of_le hlarge)]
    rfl

/-- A number with a digit more has a result if the width holds it. -/
theorem exists_append? {w : Nat} {base n d : BitVec w}
    (h : n.toNat * base.toNat + d.toNat < 2 ^ w) :
    ∃ c, append? base n d = some c ∧ c.toNat = n.toNat * base.toNat + d.toNat :=
  append?_eq base n d ▸ Checked.exists_ofNat? h

/-- A number of a version with a digit more is the one that the lexer reads, or too large for it
as well. -/
theorem onVersionDigit_cases {α : Type} {P : Checked α → Prop} {n d : BitVec 32}
    {fits : BitVec 32 → α} {large : α} (hn : n.toNat ≤ 999) (hb : isDigit b.toNat = true)
    (hd : d.toNat = b.toNat - 0x30) (hd' : d.toNat ≤ 9)
    (hfits : ∀ n' : BitVec 32, n'.toNat ≤ 999 →
      Lexer.versionDigit? n.toNat b.toNat = some n'.toNat → P (some (fits n')))
    (hlarge : Lexer.versionDigit? n.toNat b.toNat = none → P (some large)) :
    P (onVersionDigit n d fits large) := by
  have hten : (10 : BitVec 32).toNat = 10 := rfl
  have hlt : n.toNat * (10 : BitVec 32).toNat + d.toNat < 2 ^ 32 := by
    rw [hten]
    omega
  obtain ⟨n', hn', hvalue⟩ := exists_append? hlt
  have hdigit : Lexer.versionDigit? n.toNat b.toNat =
      if n'.toNat ≤ Lexer.maxVersionNumber then some n'.toNat else none := by
    rw [Lexer.versionDigit?, if_pos hb, hvalue, hten, hd, Nat.mul_comm]
  rw [onVersionDigit, hn', Option.map_some]
  split
  · rename_i hle
    exact hfits n' hle (hdigit.trans (if_pos hle))
  · rename_i hle
    exact hlarge (hdigit.trans (if_neg hle))

theorem versionDigit?_of_not {n c : Nat} (h : isDigit c = false) :
    Lexer.versionDigit? n c = none := by
  rw [Lexer.versionDigit?, h]
  rfl

/-- A status code with a digit more has a digit more. -/
theorem exists_append?_status {status : BitVec 16} {d : BitVec 32} {k : Nat} (hk : k < 3)
    (hstatus : status.toNat < 10 ^ k) (hd : d.toNat ≤ 9) :
    ∃ n, append? 10 status (d.setWidth 16) = some n ∧ n.toNat = 10 * status.toNat + d.toNat ∧
      n.toNat < 10 ^ (k + 1) := by
  have hten : (10 : BitVec 16).toNat = 10 := rfl
  have hnarrow : (d.setWidth 16).toNat = d.toNat := by
    rw [BitVec.toNat_setWidth, Nat.mod_eq_of_lt (by omega)]
  have hpow : 10 ^ k ≤ 10 ^ 2 := Nat.pow_le_pow_right (by decide) (Nat.le_of_lt_succ hk)
  have hlt : status.toNat * (10 : BitVec 16).toNat + (d.setWidth 16).toNat < 2 ^ 16 := by
    rw [hten, hnarrow]
    omega
  obtain ⟨n, hn, hvalue⟩ := exists_append? hlt
  rw [hten, hnarrow] at hvalue
  exact ⟨n, hn, by omega, by rw [Nat.pow_succ]; omega⟩

section Cases

-- A branch of a step and of what an octet does is compared by looking at both.
attribute [local simp] Matches bounded_iff Place.span? Place.ofChunks toLexer phase enter fail
  Lexer.step Lexer.enter Lexer.fail

/-! ### Places with counters -/

/-- The length of a method is checked before it is counted on. -/
theorem matches_method (ht : Bounded t) (hp : t.place = .method) : Matches t b (t.act b) := by
  have hlength := ht.method hp
  obtain ⟨n, hnext, hvalue⟩ := Checked.exists_add_one? (a := t.methodLength) (by omega)
  have hfull : Lexer.maxMethodLength < n.toNat ↔
      ¬t.methodLength.toNat < Lexer.maxMethodLength := by
    rw [hvalue]
    omega
  have hroom : t.methodLength.toNat < Lexer.maxMethodLength → n.toNat ≤ 32 := by
    rw [hvalue]
    exact Nat.succ_le_of_lt
  simp only [act, hp, hnext, Option.map_some, hfull]
  (repeat' split) <;> simp_all

/-- The letters of the name of the protocol are counted to its length. -/
theorem matches_protocol (ht : Bounded t) {k : BitVec 8} (hp : t.place = .protocol k) :
    Matches t b (t.act b) := by
  have hk := ht.protocol k hp
  obtain ⟨n, hnext, hvalue⟩ := Checked.exists_add_one? (a := k) (by omega)
  have hlt : k.toNat < Lexer.protocolName.length := Nat.lt_succ_of_le hk
  obtain ⟨expected, hoctet⟩ : ∃ c, Lexer.protocolName[k.toNat]? = some c :=
    ⟨_, List.getElem?_eq_getElem hlt⟩
  have hlength : Lexer.protocolName.length = 5 := rfl
  simp only [act, hp, hnext, Option.map_some, hoctet, Option.bind_some]
  split
  · have hne : some expected ≠ some b := fun h ↦ ‹b ≠ expected› (Option.some.inj h).symm
    simp_all
  · split <;> simp_all
    omega

/-- The first digit of a number needs no check. -/
theorem matches_firstDigit (ht : Bounded t)
    (hp : t.place = .majorStart ∨ t.place = .minorStart ∨ t.place = .statusStart) :
    Matches t b (t.act b) := by
  obtain hp | hp | hp := hp
  all_goals
    simp only [act, hp]
    refine onDigit_cases (fun d hb hd hd' ↦ ?_) fun hb ↦ ?_
    · simp_all
      omega
    · simp_all

/-- The first number of a version is checked at each digit. -/
theorem matches_major (ht : Bounded t) (hp : t.place = .major) : Matches t b (t.act b) := by
  simp only [act, hp]
  split
  · simp_all
  · refine onDigit_cases (fun d hb hd hd' ↦ ?_) fun hb ↦ ?_
    · refine onVersionDigit_cases ht.major hb hd hd' (fun n' hle hdigit ↦ ?_) fun hdigit ↦ ?_ <;>
        simp_all
    · have hnone := versionDigit?_of_not (n := t.major.toNat) hb
      simp_all

/-- So is the second one. -/
theorem matches_minor (ht : Bounded t) (hp : t.place = .minor) : Matches t b (t.act b) := by
  simp only [act, hp]
  refine onDigit_cases (fun d hb hd hd' ↦ ?_) fun hb ↦ ?_
  · have hafter := ne_of_isDigit hb
    refine onVersionDigit_cases ht.minor hb hd hd' (fun n' hle hdigit ↦ ?_) fun hdigit ↦ ?_
    · simp_all
    · cases part <;> simp_all
  · have hnone := versionDigit?_of_not (n := t.minor.toNat) hb
    cases part <;> (repeat' split) <;> simp_all

/-- A status code has three digits, which 16 bits hold. -/
theorem matches_status (ht : Bounded t) {k : BitVec 8} (hp : t.place = .status k) :
    Matches t b (t.act b) := by
  obtain ⟨hpos, hle, hstatus⟩ := ht.status k hp
  have hthree : k = 3 ↔ ¬k.toNat < 3 := by
    rw [← BitVec.toNat_inj]
    show k.toNat = 3 ↔ _
    omega
  simp only [act, hp]
  refine onDigit_cases (fun d hb hd hd' ↦ ?_) fun hb ↦ ?_
  · have hafter := ne_of_isDigit hb
    split
    · simp_all
    · rename_i hk
      have hlt : k.toNat < 3 := Nat.lt_of_not_le fun hge ↦ hk (hthree.2 (Nat.not_lt.2 hge))
      obtain ⟨n, hn, hvalue, hbound⟩ := exists_append?_status hlt hstatus hd'
      obtain ⟨k', hadd, hnext⟩ := Checked.exists_add_one? (a := k) (by omega)
      have htwo : k.toNat ≤ 2 := Nat.le_of_lt_succ hlt
      simp only [hn, hadd, Option.bind_some, Option.map_some]
      simp_all
  · (repeat' split) <;> simp_all

/-! ### The size of a chunk -/

/-- The first digit of a size needs no check. -/
theorem matches_sizeStart (ht : Bounded t) (hp : t.place = .sizeStart) :
    Matches t b (t.act b) := by
  simp only [act, hp]
  split
  · rename_i d hd
    have hlt := Hexadecimal.value?_lt hd
    simp_all
    omega
  · simp_all

/-- Where the size line of a chunk ends, the data of the chunk follow, or the trailer. -/
theorem matches_afterSize (ht : Bounded t) (hchunks : t.place.ofChunks = true)
    (hopen : t.place.span? = none)
    (hstep : t.toLexer.step b = t.toLexer.enter (Lexer.afterSize t.remaining.toNat) .skip) :
    Matches t b (some (.pass t.afterSize)) := by
  have hpart := ht.chunks (.inr hchunks)
  have hzero : t.remaining = 0 ↔ t.remaining.toNat = 0 := BitVec.toNat_inj.symm
  have halive : t.error? = none := ht.error.2 fun h ↦ by rw [h] at hchunks; cases hchunks
  rw [Matches, hstep, Lexer.afterSize, afterSize, hopen]
  clear hstep
  split
  · rename_i h
    rw [if_pos (hzero.1 h)]
    simp_all
  · rename_i h
    rw [if_neg (mt hzero.2 h)]
    simp_all
    omega

/-- The size of a chunk is refused where 64 bits do not hold it. -/
theorem matches_size (ht : Bounded t) (hp : t.place = .size) : Matches t b (t.act b) := by
  have hafter : b.toNat = 0x0A → Matches t b (some (.pass t.afterSize)) := fun hb ↦
    matches_afterSize ht (by rw [hp]; rfl) (by rw [hp]; rfl)
      (by simp [hp, hb, Hexadecimal.value?, CharClass.isWhitespace])
  simp only [act, hp]
  split
  · rename_i d hd
    have hlt := Hexadecimal.value?_lt hd
    have hten : (16 : BitVec 64).toNat = 16 := rfl
    have hdigit : (BitVec.ofNat 64 d).toNat = d := Nat.mod_eq_of_lt (by omega)
    rw [append?_eq, hten, hdigit, Nat.mul_comm]
    split
    · rename_i n hn
      rw [Checked.ofNat?_eq_some_iff] at hn
      have hbound : 16 * t.remaining.toNat + d < Lexer.chunkSizeBound := hn ▸ n.isLt
      simp_all
    · rename_i hn
      rw [Checked.ofNat?_eq_none_iff] at hn
      have hbound : ¬16 * t.remaining.toNat + d < Lexer.chunkSizeBound := Nat.not_lt.2 hn
      simp_all
  · (repeat' split)
    all_goals first | exact hafter ‹_› | simp_all

/-! ### All places -/

/-- **What an octet makes a scanner do** is the step of the lexer that it is, nothing goes wrong
about it, and the scanner keeps to its bounds. -/
theorem matches_act (ht : Bounded t) (b : UInt8) : Matches t b (t.act b) := by
  have h := (bounded_iff t).1 ht
  cases hp : t.place with
  | method => exact matches_method ht hp
  | protocol k => exact matches_protocol ht hp
  | majorStart => exact matches_firstDigit ht (.inl hp)
  | major => exact matches_major ht hp
  | minorStart => exact matches_firstDigit ht (.inr (.inl hp))
  | minor => exact matches_minor ht hp
  | statusStart => exact matches_firstDigit ht (.inr (.inr hp))
  | status k => exact matches_status ht hp
  | sizeStart => exact matches_sizeStart ht hp
  | size => exact matches_size ht hp
  | sizeExtension =>
    simp only [act, hp]
    split
    · simp_all
    split
    · exact matches_afterSize ht (by rw [hp]; rfl) (by rw [hp]; rfl) (by simp_all)
    split <;> simp_all
  | sizeLf =>
    simp only [act, hp]
    split
    · exact matches_afterSize ht (by rw [hp]; rfl) (by rw [hp]; rfl) (by simp_all)
    · simp_all
  | _ =>
    simp only [act, hp]
    (repeat' split) <;> simp_all [Version.http09]

end Cases

end Scanner

end HttpFraming
