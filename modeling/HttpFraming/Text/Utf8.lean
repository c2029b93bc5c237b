/-!
# Text and the octets that spell it

Messages travel as octets, and their parts are handed out as text. The two are related by UTF-8, in
both directions by a function, and `Utf8.decode?_eq_some_iff` says that the functions are inverse to
each other: octets decode to a text exactly when they are the encoding of that text.

## Octets are a list

A piece of the wire is then taken apart by recursion, and what two pieces mean together is a
statement about `++`. The cost is in the two lemmas at the beginning, which pass between lists and
the arrays in which texts are kept. Nothing after `decode?_eq_some_iff` mentions an array.

## What is not said here

Which octets are valid is said through encoding alone: those that spell a text. No automaton for the
validity of UTF-8 is needed, since every reader in this library decodes what it has collected as a
whole, when it has all of it. So a character that is divided between two pieces of the wire makes no
difference, and that is a consequence of `++` and not of anything about UTF-8.
-/

namespace HttpFraming

/-- Octets, in the order in which they travel. -/
abbrev Octets := List UInt8

namespace Utf8

/-- The octets that spell a text. -/
def encode (s : String) : Octets :=
  s.toList.flatMap String.utf8EncodeChar

/-- The text that some octets spell, if they spell one. -/
def decode? (b : Octets) : Option String :=
  String.fromUTF8? b.toByteArray

/-! ### The two directions are inverse -/

/-- The octets that spell a text are those that it is kept in. -/
theorem toByteArray_encode (s : String) : (encode s).toByteArray = s.toByteArray := by
  have h := String.toByteArray_ofList (l := s.toList)
  rw [String.ofList_toList] at h
  rw [h, encode, List.utf8Encode]

theorem toByteArray_inj {a b : Octets} (h : a.toByteArray = b.toByteArray) : a = b := by
  have hl := congrArg (fun x : ByteArray ↦ x.data.toList) h
  simpa using hl

/-- Octets decode to a text exactly when they are its encoding. -/
theorem decode?_eq_some_iff {b : Octets} {s : String} : decode? b = some s ↔ encode s = b := by
  unfold decode? String.fromUTF8?
  constructor
  · intro h
    split at h
    · rename_i hv
      have hs : String.ofByteArray b.toByteArray hv = s := Option.some.inj h
      apply toByteArray_inj
      rw [toByteArray_encode, ← hs]
    · simp at h
  · rintro rfl
    -- A text is kept in valid octets, so the test on them succeeds.
    have hv : (encode s).toByteArray.IsValidUTF8 := by
      rw [toByteArray_encode]; exact s.isValidUTF8
    rw [dif_pos hv]
    congr 1
    apply String.toByteArray_inj.1
    exact toByteArray_encode s

/-- Reading back what a text was written as gives the text. -/
@[simp] theorem decode?_encode (s : String) : decode? (encode s) = some s :=
  decode?_eq_some_iff.2 rfl

@[simp] theorem encode_empty : encode "" = [] := by
  simp [encode]

@[simp] theorem encode_append (s t : String) : encode (s ++ t) = encode s ++ encode t := by
  simp [encode]

end Utf8

end HttpFraming
