import HttpFraming.Proofs.Url.Percent

/-!
# What is escaped can be read back

A writer of escapes works octet by octet, and what it writes of an octet is read back as that octet,
whatever follows it (`Percent.unescapeWith_escapeOctet`). Nothing that is written is a plus sign, so
that the reader of form encoding undoes both writers. None of the marks that give a text its
structure is left unescaped, either (`Percent.isWritten_of_mem_escapeOctetPlus`).

Readers work on octets and writers make characters, so what is written is first seen to be within
ASCII, where each character is the octet of its code (`Percent.octetsOf`). `isWritten` is the class
of what any writer writes: unreserved characters, percent signs, and plus signs. It is larger than
what either writer needs, and small enough for everything that depends on it: it has no mark of a
query, and nothing outside ASCII.

The readers are two cases of one function with a flag for the plus sign, and are treated as one
until the very end. There a reader is the inverse of a writer as soon as it is so octet by octet
(`Percent.unescapeWith_flatMap`), which takes no induction but that on the octets.
-/

namespace HttpFraming

namespace Hexadecimal

theorem toNat_digit_lt : ∀ d < 16, (digit d).toNat < 0x80 := by
  decide

/-- A hexadecimal digit is a character of ASCII. -/
theorem lt_of_value? {c d : Nat} (h : value? c = some d) : c < 0x80 := by
  by_contra hle
  rw [value?, if_neg (by omega), if_neg (by omega), if_neg (by omega)] at h
  cases h

end Hexadecimal

namespace Percent

open CharClass Hexadecimal

variable {b : UInt8} {c : Char} {plus : Bool}

/-- The octets of characters of ASCII. -/
def octetsOf (cs : List Char) : Octets :=
  cs.map fun c ↦ UInt8.ofNat c.toNat

/-- What an escaped text is made of. -/
def isWritten (n : Nat) : Bool :=
  isUnreserved n || n == 0x25 || n == 0x2B

theorem lt_of_isWritten {n : Nat} (h : isWritten n = true) : n < 0x80 := by
  simp only [isWritten, isUnreserved, isAlphanumeric, isAlpha, isDigit, Bool.or_eq_true,
    Bool.and_eq_true, decide_eq_true_eq, beq_iff_eq] at h
  omega

/-! ### What is written -/

/-- An octet is written as itself if it is unreserved, and else with a percent sign and two
digits. -/
theorem isWritten_of_mem_escapeOctet (h : c ∈ escapeOctet b) : isWritten c.toNat = true := by
  have hhigh : b.toNat / 16 < 16 := by
    have := b.toNat_lt
    omega
  rw [escapeOctet] at h
  split at h
  · rename_i hunreserved
    obtain rfl := List.mem_singleton.1 h
    rw [toNat_ofNat_of_isUnreserved hunreserved, isWritten, hunreserved]
    rfl
  · simp only [List.mem_cons, List.not_mem_nil, or_false] at h
    rcases h with rfl | rfl | rfl
    · rfl
    · rw [isWritten, isUnreserved_digit _ hhigh]
      rfl
    · rw [isWritten, isUnreserved_digit _ (Nat.mod_lt _ (by decide))]
      rfl

theorem isWritten_of_mem_escapeOctetPlus (h : c ∈ escapeOctetPlus b) :
    isWritten c.toNat = true := by
  rw [escapeOctetPlus] at h
  split at h
  · obtain rfl := List.mem_singleton.1 h
    rfl
  · exact isWritten_of_mem_escapeOctet h

theorem isWritten_of_mem_escapePlus {data : Octets} (h : c ∈ (escapePlus data).toList) :
    isWritten c.toNat = true := by
  rw [escapePlus, String.toList_ofList] at h
  obtain ⟨b, -, hc⟩ := List.mem_flatMap.1 h
  exact isWritten_of_mem_escapeOctetPlus hc

theorem encode_ofList_of_isWritten {cs : List Char} (h : ∀ c ∈ cs, isWritten c.toNat = true) :
    Utf8.encode (String.ofList cs) = octetsOf cs :=
  Utf8.encode_ofList_of_ascii fun c hc ↦ lt_of_isWritten (h c hc)

/-! ### Reading it back -/

/-- An octet that is no percent sign stands for itself, but for a plus sign in form encoding. -/
theorem unescapeWith_cons_of_ne_percent {rest : Octets} (hpercent : b ≠ 0x25) :
    unescapeWith plus (b :: rest) =
      (unescapeWith plus rest).map ((if plus && b == 0x2B then 0x20 else b) :: ·) := by
  rw [unescapeWith.eq_def]
  split
  · rename_i heq
    cases heq
  · rename_i heq
    exact absurd (List.cons.inj heq).1 hpercent
  · rename_i heq
    obtain ⟨rfl, rfl⟩ := List.cons.inj heq
    rw [if_neg hpercent]

/-- An octet that is neither a percent sign nor a plus sign stands for itself. -/
theorem unescapeWith_cons_of_ne {rest : Octets} (hpercent : b ≠ 0x25) (hplus : b ≠ 0x2B) :
    unescapeWith plus (b :: rest) = (unescapeWith plus rest).map (b :: ·) := by
  rw [unescapeWith_cons_of_ne_percent hpercent, beq_eq_false_iff_ne.2 hplus, Bool.and_false,
    if_neg Bool.false_ne_true]

/-- An escape stands for the octet that its two digits denote. -/
theorem unescapeWith_escape {h l : UInt8} {high low : Nat} {rest : Octets}
    (hh : value? h.toNat = some high) (hl : value? l.toNat = some low) :
    unescapeWith plus (0x25 :: h :: l :: rest) =
      (unescapeWith plus rest).map (UInt8.ofNat (16 * high + low) :: ·) := by
  rw [unescapeWith, hh, hl]

/-- Two hexadecimal digits come first. -/
def BeginsDigits (x : Octets) : Prop :=
  ∃ h l rest a b, x = h :: l :: rest ∧ value? h.toNat = some a ∧ value? l.toNat = some b

/-- A percent sign that no two digits follow cannot be undone. -/
theorem unescapeWith_percent_eq_none {x : Octets} (h : ¬ BeginsDigits x) :
    unescapeWith plus (0x25 :: x) = none := by
  rw [unescapeWith.eq_def]
  split
  · rename_i heq
    cases heq
  · rename_i heq
    cases heq
    split
    · rename_i hhigh hlow
      exact absurd ⟨_, _, _, _, _, rfl, hhigh, hlow⟩ h
    · rfl
  · rename_i heq
    cases heq
    exact if_pos rfl

/-- A digit that is written is read as the number that it stands for. -/
theorem value?_octet_digit {d : Nat} (h : d < 16) :
    value? (UInt8.ofNat (digit d).toNat).toNat = some d := by
  have hlt := toNat_digit_lt d h
  rw [UInt8.toNat_ofNat', Nat.mod_eq_of_lt (by omega), value?_digit d h]

/-- **What is written of an octet is read back**, whatever follows it. -/
theorem unescapeWith_escapeOctet (plus : Bool) (b : UInt8) (rest : Octets) :
    unescapeWith plus (octetsOf (escapeOctet b) ++ rest) =
      (unescapeWith plus rest).map (b :: ·) := by
  rw [escapeOctet]
  split
  · rename_i hunreserved
    -- An unreserved octet is its own character, and that is neither of the two that are read in
    -- another way.
    have hoctet : UInt8.ofNat (Char.ofNat b.toNat).toNat = b := by
      rw [toNat_ofNat_of_isUnreserved hunreserved, UInt8.ofNat_toNat]
    have hpercent : b ≠ 0x25 := by
      rintro rfl
      cases hunreserved
    have hplus : b ≠ 0x2B := by
      rintro rfl
      cases hunreserved
    simp only [octetsOf, List.map_cons, List.map_nil, hoctet, List.cons_append, List.nil_append]
    exact unescapeWith_cons_of_ne hpercent hplus
  · have hlt := b.toNat_lt
    have hhigh := value?_octet_digit (d := b.toNat / 16) (by omega)
    have hlow := value?_octet_digit (d := b.toNat % 16) (by omega)
    have hoctet : UInt8.ofNat (16 * (b.toNat / 16) + b.toNat % 16) = b := by
      rw [Nat.div_add_mod, UInt8.ofNat_toNat]
    refine (unescapeWith_escape hhigh hlow).trans ?_
    rw [hoctet]
    rfl

/-- In form encoding a space is written as a plus sign, and read back from it. -/
theorem unescapeWith_escapeOctetPlus (b : UInt8) (rest : Octets) :
    unescapeWith true (octetsOf (escapeOctetPlus b) ++ rest) =
      (unescapeWith true rest).map (b :: ·) := by
  rw [escapeOctetPlus]
  split
  · rename_i hspace
    subst hspace
    rfl
  · exact unescapeWith_escapeOctet true b rest

/-- Where what is written of each octet is read back, all of them are. -/
theorem unescapeWith_flatMap {write : UInt8 → List Char}
    (h : ∀ b rest, unescapeWith plus (octetsOf (write b) ++ rest) =
      (unescapeWith plus rest).map (b :: ·)) (data : Octets) :
    unescapeWith plus (octetsOf (data.flatMap write)) = some data := by
  induction data with
  | nil => rfl
  | cons b data ih =>
    rw [List.flatMap_cons, octetsOf, List.map_append]
    exact (h b _).trans (congrArg (Option.map (b :: ·)) ih)

/-- **What is written in form encoding is read back.** -/
theorem unescapePlus?_encode_escapePlus (data : Octets) :
    unescapePlus? (Utf8.encode (escapePlus data)) = some data := by
  have hwritten (c : Char) (hc : c ∈ data.flatMap escapeOctetPlus) : isWritten c.toNat = true := by
    obtain ⟨b, -, hb⟩ := List.mem_flatMap.1 hc
    exact isWritten_of_mem_escapeOctetPlus hb
  rw [escapePlus, encode_ofList_of_isWritten hwritten]
  exact unescapeWith_flatMap unescapeWith_escapeOctetPlus data

end Percent

end HttpFraming
