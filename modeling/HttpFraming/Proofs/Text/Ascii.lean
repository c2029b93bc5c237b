import HttpFraming.Text.CharClass
import HttpFraming.Text.Utf8

/-!
# Classes of octets and classes of characters

A class of code values is a class of octets and a class of characters. Where it lies within ASCII
the two are one: `Utf8.only_encode_iff` says that a text is made of such characters exactly when it
is spelled by such octets, and `Utf8.exists_encode_of_ascii` that such octets always spell a text.

## Why this is needed

Grammars are told of octets on the wire, and of characters in a text that a caller hands in or gets.
Tokens, numbers and targets occur as both. With the two laws above, a fact about one is a fact about
the other, and no class is defined twice.

## What it rests on

* `le_of_mem_encodeChar`: a character outside ASCII is spelled by octets outside ASCII. This is the
  one property of UTF-8 that is taken from its definition.
* `of_encodeChar_eq_cons` and `toNat_eq_of_mem_encodeChar` are what it means from the side of the
  octets: an octet of ASCII is a character, wherever it stands.
* `exists_encodeChar_eq_cons` treats classes that have all of what lies outside ASCII, such as those
  of header values. For these a character and its first octet are in the same classes.

## Case

The last section is about the letters that are folded. They are in ASCII, so that folding changes no
length (`length_encodeChar_toLower`), and folding twice changes nothing more.
-/

namespace HttpFraming

/-- All octets are in a class. -/
def Only (p : Nat → Bool) (octets : Octets) : Prop :=
  ∀ b ∈ octets, p b.toNat = true

instance (p : Nat → Bool) (octets : Octets) : Decidable (Only p octets) :=
  List.decidableBAll (fun b : UInt8 ↦ p b.toNat = true) octets

section Only

variable {p : Nat → Bool} {b : UInt8} {x y : Octets}

@[simp] theorem only_nil : Only p [] := by
  simp [Only]

@[simp] theorem only_cons : Only p (b :: x) ↔ p b.toNat = true ∧ Only p x := by
  simp [Only]

@[simp] theorem only_append : Only p (x ++ y) ↔ Only p x ∧ Only p y := by
  simp only [Only, List.mem_append]
  exact ⟨fun h ↦ ⟨fun b hb ↦ h b (.inl hb), fun b hb ↦ h b (.inr hb)⟩,
    fun h b hb ↦ hb.elim (h.1 b) (h.2 b)⟩

@[simp] theorem only_reverse : Only p x.reverse ↔ Only p x := by
  simp [Only]

theorem Only.imp {q : Nat → Bool} (hx : Only p x) (h : ∀ n, p n = true → q n = true) : Only q x :=
  fun b hb ↦ h _ (hx b hb)

theorem ne_of_class {m n : Nat} (hm : p m = true) (hn : p n = false) : m ≠ n := by
  rintro rfl
  exact absurd (hn.symm.trans hm) Bool.false_ne_true

end Only

/-- Tokens are within ASCII. -/
theorem lt_of_isTchar (n : Nat) (h : CharClass.isTchar n = true) : n < 0x80 := by
  simp only [CharClass.isTchar, CharClass.isAlphanumeric, CharClass.isAlpha, CharClass.isDigit,
    Bool.or_eq_true, Bool.and_eq_true, beq_iff_eq, decide_eq_true_eq] at h
  omega

namespace Utf8

/-! ### Characters -/

/-- A code value in ASCII is that of a character. -/
theorem toNat_ofNat_of_lt {n : Nat} (h : n < 0x80) : (Char.ofNat n).toNat = n := by
  have hvalid : n.isValidChar := .inl (by omega)
  rw [Char.ofNat, dif_pos hvalid]
  rfl

/-- A character of ASCII is spelled by one octet, its code value. -/
theorem encodeChar_of_lt {c : Char} (h : c.toNat < 0x80) :
    String.utf8EncodeChar c = [UInt8.ofNat c.toNat] :=
  if_pos (Nat.le_of_lt_succ h)

/-- A character outside ASCII is spelled by octets outside ASCII. -/
theorem le_of_mem_encodeChar {c : Char} (h : 0x80 ≤ c.toNat) {b : UInt8}
    (hb : b ∈ String.utf8EncodeChar c) : 0x80 ≤ b.toNat := by
  have hv : ¬ c.val.toNat ≤ 0x7F := Nat.not_le.2 h
  unfold String.utf8EncodeChar at hb
  simp only [hv, if_false] at hb
  split at hb
  · simp only [List.mem_cons, List.not_mem_nil, or_false] at hb
    rcases hb with rfl | rfl <;> rw [UInt8.toNat_ofNat'] <;> omega
  split at hb
  · simp only [List.mem_cons, List.not_mem_nil, or_false] at hb
    rcases hb with rfl | rfl | rfl <;> rw [UInt8.toNat_ofNat'] <;> omega
  · simp only [List.mem_cons, List.not_mem_nil, or_false] at hb
    rcases hb with rfl | rfl | rfl | rfl <;> rw [UInt8.toNat_ofNat'] <;> omega

/-- A character that begins with an octet of ASCII is spelled by that octet alone. -/
theorem of_encodeChar_eq_cons {c : Char} {b : UInt8} {tail : Octets}
    (h : String.utf8EncodeChar c = b :: tail) (hb : b.toNat < 0x80) :
    c.toNat = b.toNat ∧ tail = [] := by
  have hc : c.toNat < 0x80 :=
    Nat.not_le.1 fun hle ↦ Nat.not_le.2 hb (le_of_mem_encodeChar hle (h ▸ List.mem_cons_self))
  rw [encodeChar_of_lt hc] at h
  obtain ⟨rfl, rfl⟩ := List.cons.inj h
  rw [UInt8.toNat_ofNat']
  exact ⟨by omega, rfl⟩

/-- An octet of ASCII stands in no character but its own. -/
theorem toNat_eq_of_mem_encodeChar {c : Char} {b : UInt8} (hb : b ∈ String.utf8EncodeChar c)
    (hlt : b.toNat < 0x80) : c.toNat = b.toNat := by
  have hc : c.toNat < 0x80 :=
    Nat.not_le.1 fun hle ↦ Nat.not_le.2 hlt (le_of_mem_encodeChar hle hb)
  rw [encodeChar_of_lt hc, List.mem_singleton] at hb
  rw [hb, UInt8.toNat_ofNat']
  omega

/-- In a class within ASCII, a character is what its octets are. -/
theorem only_encodeChar_iff {p : Nat → Bool} (hp : ∀ n, p n = true → n < 0x80) (c : Char) :
    Only p (String.utf8EncodeChar c) ↔ p c.toNat = true := by
  by_cases hc : c.toNat < 0x80
  · rw [encodeChar_of_lt hc]
    have hb : (UInt8.ofNat c.toNat).toNat = c.toNat := by
      rw [UInt8.toNat_ofNat']
      omega
    simp [hb]
  · constructor
    · intro h
      obtain ⟨b, rest, hbs⟩ := List.exists_cons_of_ne_nil (String.utf8EncodeChar_ne_nil (c := c))
      have hmem : b ∈ String.utf8EncodeChar c := hbs ▸ List.mem_cons_self
      have hle := le_of_mem_encodeChar (Nat.not_lt.1 hc) hmem
      have hlt := hp _ (h b hmem)
      omega
    · exact fun h ↦ absurd (hp _ h) hc

/-- A character begins with an octet that is in the classes that it is in itself, and goes on with
octets outside ASCII, as far as classes that have all of those are concerned. -/
theorem exists_encodeChar_eq_cons (c : Char) : ∃ b tail, String.utf8EncodeChar c = b :: tail ∧
    Only CharClass.isObsText tail ∧ ∀ p : Nat → Bool,
      (∀ n, CharClass.isObsText n = true → p n = true) → p b.toNat = p c.toNat := by
  -- Outside ASCII neither side can hold, because the class ends below it.
  by_cases hc : c.toNat < 0x80
  · refine ⟨UInt8.ofNat c.toNat, [], encodeChar_of_lt hc, only_nil, fun p _ ↦ congrArg p ?_⟩
    rw [UInt8.toNat_ofNat']
    omega
  · have hall := fun b hb ↦ le_of_mem_encodeChar (Nat.not_lt.1 hc) (b := b) hb
    obtain ⟨b, tail, hbs⟩ := List.exists_cons_of_ne_nil (String.utf8EncodeChar_ne_nil (c := c))
    rw [hbs, List.forall_mem_cons] at hall
    refine ⟨b, tail, hbs, fun d hd ↦ decide_eq_true (hall.2 d hd), fun p hp ↦ ?_⟩
    rw [hp _ (decide_eq_true hall.1), hp _ (decide_eq_true (Nat.not_lt.1 hc))]

/-! ### Texts -/

@[simp] theorem encode_ofList_cons (c : Char) (cs : List Char) :
    encode (String.ofList (c :: cs)) = String.utf8EncodeChar c ++ encode (String.ofList cs) := by
  simp [encode]

/-- Where an octet of ASCII comes first in a text, it is a character. -/
theorem exists_cons_of_encode_eq_cons {s : List Char} {b : UInt8} {x : Octets}
    (h : encode (String.ofList s) = b :: x) (hb : b.toNat < 0x80) :
    ∃ c t, s = c :: t ∧ c.toNat = b.toNat ∧ encode (String.ofList t) = x := by
  cases s with
  | nil =>
    rw [String.ofList_nil, encode_empty] at h
    cases h
  | cons c t =>
    obtain ⟨d, tail, hchar, -⟩ := exists_encodeChar_eq_cons c
    rw [encode_ofList_cons, hchar] at h
    obtain ⟨rfl, hrest⟩ := List.cons.inj h
    obtain ⟨hc, rfl⟩ := of_encodeChar_eq_cons hchar hb
    exact ⟨c, t, rfl, hc, hrest⟩

/-- Characters of ASCII are spelled by one octet each. -/
theorem encode_ofList_of_ascii {cs : List Char} (h : ∀ c ∈ cs, c.toNat < 0x80) :
    encode (String.ofList cs) = cs.map fun c ↦ UInt8.ofNat c.toNat := by
  induction cs with
  | nil => exact encode_empty
  | cons c cs ih =>
    obtain ⟨hc, hcs⟩ := List.forall_mem_cons.1 h
    rw [encode_ofList_cons, encodeChar_of_lt hc, ih hcs]
    rfl

/-- The octets of a text determine it. -/
theorem encode_inj {s t : String} (h : encode s = encode t) : s = t := by
  have ht : decode? (encode t) = some s := decode?_eq_some_iff.2 h
  rw [decode?_encode] at ht
  exact (Option.some.inj ht).symm

/-- Only the empty text is spelled by no octets. -/
@[simp] theorem encode_eq_nil_iff {s : String} : encode s = [] ↔ s = "" :=
  ⟨fun h ↦ encode_inj (h.trans encode_empty.symm), fun h ↦ h ▸ encode_empty⟩

/-- A text is made of characters of a class exactly when it is spelled by octets of the class. -/
theorem only_encode_iff {p : Nat → Bool} (hp : ∀ n, p n = true → n < 0x80) (s : String) :
    Only p (encode s) ↔ ∀ c ∈ s.toList, p c.toNat = true := by
  rw [encode]
  induction s.toList with
  | nil => simp
  | cons c cs ih => simp [ih, only_encodeChar_iff hp]

/-- Octets of ASCII spell a text. -/
theorem exists_encode_of_ascii {x : Octets} (hx : ∀ b ∈ x, b.toNat < 0x80) :
    ∃ s, encode s = x := by
  induction x with
  | nil => exact ⟨"", encode_empty⟩
  | cons b x ih =>
    obtain ⟨s, rfl⟩ := ih fun c hc ↦ hx c (List.mem_cons_of_mem b hc)
    have hb := hx b List.mem_cons_self
    refine ⟨String.ofList (Char.ofNat b.toNat :: s.toList), ?_⟩
    have hchar := toNat_ofNat_of_lt hb
    have hlt : (Char.ofNat b.toNat).toNat < 0x80 := hchar.symm ▸ hb
    rw [encode_ofList_cons, encodeChar_of_lt hlt, hchar, String.ofList_toList]
    simp

/-! ### Case -/

/-- A capital letter is folded to the letter that is 32 code values further on. -/
theorem toNat_toLower {c : Char} (h : 0x41 ≤ c.toNat ∧ c.toNat ≤ 0x5A) :
    c.toLower.toNat = c.toNat + 0x20 := by
  have hupper : c.val ≥ 'A'.val ∧ c.val ≤ 'Z'.val := h
  have hval : c.toLower.val = c.val + ('a'.val - 'A'.val) := congrArg Char.val (dif_pos hupper)
  have hsum : (c.val + ('a'.val - 'A'.val)).toNat = (c.toNat + 0x20) % 4294967296 :=
    UInt32.toNat_add _ _
  rw [Char.toNat, hval, hsum]
  omega

theorem toLower_eq_self {c : Char} (h : ¬ (0x41 ≤ c.toNat ∧ c.toNat ≤ 0x5A)) : c.toLower = c :=
  dif_neg h

/-- Folding the case twice folds it no further. -/
theorem toLower_toLower (c : Char) : c.toLower.toLower = c.toLower := by
  by_cases h : 0x41 ≤ c.toNat ∧ c.toNat ≤ 0x5A
  · have hlower := toNat_toLower h
    exact toLower_eq_self (by omega)
  · rw [toLower_eq_self h, toLower_eq_self h]

/-- Only letters of ASCII have a case, so that a character takes as many octets in either. -/
theorem length_encodeChar_toLower (c : Char) :
    (String.utf8EncodeChar c.toLower).length = (String.utf8EncodeChar c).length := by
  by_cases h : 0x41 ≤ c.toNat ∧ c.toNat ≤ 0x5A
  · have hlower := toNat_toLower h
    have hlt : c.toNat < 0x80 := by omega
    have hlt' : c.toLower.toNat < 0x80 := by omega
    rw [encodeChar_of_lt hlt, encodeChar_of_lt hlt']
    rfl
  · rw [toLower_eq_self h]

end Utf8

end HttpFraming
