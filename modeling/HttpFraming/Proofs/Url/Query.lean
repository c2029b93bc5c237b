import HttpFraming.Proofs.Url.Encoder
import HttpFraming.Url.Query

/-!
# What is written of a query can be read back

A query is written as `name=value` pairs with ampersands between them, and is read by cutting at
what could be such an ampersand or equals sign. So reading undoes writing if the marks between the
parts cannot be mistaken for marks inside them, and that is all there is to prove.

## What is written of a name or a value

Who writes the names and values is a percent encoder that is given from outside. The writer is told
for any such encoder (`Query.toTextBy`), and all that is known of it is `Percent.Encodes`: it writes
octets one by one, as they are or as an escape. That determines the text (`Query.toTextBy_eq`),
which is why the rest of this module is about `Query.toText` and names no encoder.

## What each step rests on

* The marks of a query are separators and equals signs, and no name or value has one where it is
  written. This is the one fact about form encoding that is used twice
  (`Query.eq_false_of_isWritten`).
* `Query.readParameter?_parameterText` rests on it for the equals sign: the first one in a parameter
  is the one between its name and its value, empty or not.
* `Query.split_intercalate` rests on it for the separators, and on every parameter having a text,
  for an equals sign is always written. Without that, a parameter without text at the end would be
  taken for a separator at the end, which ends nothing.
-/

namespace HttpFraming.Query

open Percent

variable {cs s : List Char}

/-! ### Parameters -/

/-- **No mark is written of a name or a value**, neither a separator nor an equals sign: those two
kinds of character are escaped. -/
theorem eq_false_of_isWritten {c : Char} (h : isWritten c.toNat = true) :
    isSeparator c = false ∧ (c == '=') = false := by
  have hne (d : Char) (hd : isWritten d.toNat = false) : c ≠ d := by
    rintro rfl
    exact Bool.false_ne_true (hd.symm.trans h)
  simp [isSeparator, hne '&' rfl, hne ';' rfl, hne '=' rfl]

/-- A name or a value is read back from what is written of it. -/
theorem decode?_escapePlus (s : String) : decode? (escapePlus (Utf8.encode s)).toList = some s := by
  rw [decode?, String.ofList_toList, unescapePlus?_encode_escapePlus, Option.bind_some,
    Utf8.decode?_encode]

/-- The parts of a parameter, with its equals sign between them. -/
theorem toList_parameterText (p : QueryParameter) :
    (parameterText p).toList = (escapePlus (Utf8.encode p.name)).toList ++
      '=' :: (escapePlus (Utf8.encode p.value)).toList := by
  simp [parameterText]

/-- The first equals sign of a parameter is the one between its name and its value. -/
theorem readParameter?_parameterText (p : QueryParameter) :
    readParameter? (parameterText p).toList = some p := by
  have hcut : cut? (· == '=') (parameterText p).toList =
      some ((escapePlus (Utf8.encode p.name)).toList, '=',
        (escapePlus (Utf8.encode p.value)).toList) := by
    rw [toList_parameterText]
    exact cut?_append rfl fun c hc ↦ (eq_false_of_isWritten (isWritten_of_mem_escapePlus hc)).2
  simp only [readParameter?, hcut, decode?_escapePlus]

/-- A parameter without name and value still has its equals sign. -/
theorem parameterText_ne_nil (p : QueryParameter) : (parameterText p).toList ≠ [] := by
  rw [toList_parameterText]
  exact List.append_ne_nil_of_right_ne_nil _ (List.cons_ne_nil _ _)

/-- A parameter has no separator in it, so that it is one parameter when the query is cut. -/
theorem isSeparator_of_mem_parameterText {p : QueryParameter} {c : Char}
    (h : c ∈ (parameterText p).toList) : isSeparator c = false := by
  rw [toList_parameterText] at h
  -- A character is one of the name, the equals sign, or one of the value.
  rcases List.mem_append.1 h with h | h
  · exact (eq_false_of_isWritten (isWritten_of_mem_escapePlus h)).1
  · rcases List.mem_cons.1 h with rfl | h
    · rfl
    · exact (eq_false_of_isWritten (isWritten_of_mem_escapePlus h)).1

/-! ### The whole query -/

/-- A text without separators is one parameter, if it is there at all. -/
theorem split_of_not_separator (hne : cs ≠ []) (h : ∀ c ∈ cs, isSeparator c = false) :
    split cs = [cs] := by
  induction cs with
  | nil => exact absurd rfl hne
  | cons c cs ih =>
    obtain ⟨hc, hcs⟩ := List.forall_mem_cons.1 h
    cases cs with
    | nil => simp [split, hc]
    | cons d cs => rw [split, hc, if_neg Bool.false_ne_true, ih (List.cons_ne_nil d cs) hcs]

/-- The first separator ends the first parameter. -/
theorem split_append {c : Char} (hc : isSeparator c = true) (h : ∀ c ∈ cs, isSeparator c = false) :
    split (cs ++ c :: s) = cs :: split s := by
  induction cs with
  | nil => simp [split, hc]
  | cons d cs ih =>
    obtain ⟨hd, hcs⟩ := List.forall_mem_cons.1 h
    rw [List.cons_append, split, hd, if_neg Bool.false_ne_true, ih hcs]

/-- Texts that are joined with ampersands are found again. -/
theorem split_intercalate {ps : List (List Char)}
    (h : ∀ p ∈ ps, p ≠ [] ∧ ∀ c ∈ p, isSeparator c = false) :
    split (['&'].intercalate ps) = ps := by
  induction ps with
  | nil => rfl
  | cons p ps ih =>
    obtain ⟨⟨hne, hp⟩, hps⟩ := List.forall_mem_cons.1 h
    -- The last text is ended by the end of the query, and all others by an ampersand.
    cases ps with
    | nil => rw [List.intercalate_singleton, split_of_not_separator hne hp]
    | cons q qs =>
      rw [List.intercalate_cons_cons, List.append_assoc, List.singleton_append,
        split_append rfl hp, ih hps]

/-- One after the other, the parameters are read back. -/
theorem mapM_readParameter? (ps : List QueryParameter) :
    (ps.map fun p ↦ (parameterText p).toList).mapM readParameter? = some ps := by
  induction ps with
  | nil => rfl
  | cons p ps ih =>
    rw [List.map_cons, List.mapM_cons, readParameter?_parameterText, ih]
    rfl

/-- The characters of a query: those of its parameters, joined. -/
theorem toList_toText (q : Query) :
    q.toText.toList = ['&'].intercalate (q.parameters.map fun p ↦ (parameterText p).toList) := by
  rw [toText, String.toList_intercalate, List.map_map]
  rfl

/-- **A query is read back from what is written of it**, whatever its names and values are, empty or
given more than once. -/
theorem parse?_toText_eq_some (q : Query) : parse? q.toText = some q := by
  have hsplit : split q.toText.toList = q.parameters.map fun p ↦ (parameterText p).toList := by
    rw [toList_toText]
    refine split_intercalate fun cs hcs ↦ ?_
    obtain ⟨p, -, rfl⟩ := List.mem_map.1 hcs
    exact ⟨parameterText_ne_nil p, fun c hc ↦ isSeparator_of_mem_parameterText hc⟩
  rw [parse?, hsplit, mapM_readParameter?]
  rfl

/-! ### Any encoder -/

section Encoder

variable {encode : (Nat → Bool) → Octets → String}

/-- A parameter as it is written with an encoder: what the encoder makes of the name and of the
value, spaces in them as plus signs. -/
def parameterTextBy (encode : (Nat → Bool) → Octets → String) (p : QueryParameter) : String :=
  escapePlusBy encode (Utf8.encode p.name) ++ "=" ++ escapePlusBy encode (Utf8.encode p.value)

/-- A query as it is written with an encoder. -/
def toTextBy (encode : (Nat → Bool) → Octets → String) (q : Query) : String :=
  String.intercalate "&" (q.parameters.map (parameterTextBy encode))

/-- An encoder that writes octets one by one leaves no choice of the text. -/
theorem toTextBy_eq (hencode : Encodes encode) (q : Query) : toTextBy encode q = toText q := by
  have hparameter : parameterTextBy encode = parameterText := by
    funext p
    rw [parameterTextBy, hencode.escapePlusBy_eq, hencode.escapePlusBy_eq, parameterText]
  rw [toTextBy, hparameter, toText]

/-- **Whatever encoder a query is written with, it is read back**, and all encoders write the same
text. -/
theorem parse?_toTextBy_of_encodes {encode : (Nat → Bool) → Octets → String}
    (hencode : Encodes encode) (q : Query) :
    toTextBy encode q = toText q ∧ parse? (toTextBy encode q) = some q := by
  rw [toTextBy_eq hencode]
  exact ⟨rfl, parse?_toText_eq_some q⟩

/-- A name that comes twice, once without a value, with marks, spaces and a letter outside ASCII. -/
theorem parse?_toTextBy_of_encodes_marks :
    Encodes (fun set data ↦ String.ofList (data.flatMap (encodeOctet set))) ∧
      toTextBy (fun set data ↦ String.ofList (data.flatMap (encodeOctet set)))
        (ofList [("a=b", "é &"), ("", "+;"), ("a=b", "")]) =
          "a%3Db=%C3%A9+%26&=%2B%3B&a%3Db=" ∧
      parse? "a%3Db=%C3%A9+%26&=%2B%3B&a%3Db=" =
        some (ofList [("a=b", "é &"), ("", "+;"), ("a=b", "")]) := by
  have hencode : Encodes (fun set data ↦ String.ofList (data.flatMap (encodeOctet set))) :=
    fun _ _ ↦ rfl
  obtain ⟨htext, hread⟩ := parse?_toTextBy_of_encodes hencode
    (ofList [("a=b", "é &"), ("", "+;"), ("a=b", "")])
  have hwritten : toText (ofList [("a=b", "é &"), ("", "+;"), ("a=b", "")]) =
      "a%3Db=%C3%A9+%26&=%2B%3B&a%3Db=" := by decide +kernel
  rw [htext, hwritten] at hread
  exact ⟨hencode, htext.trans hwritten, hread⟩

end Encoder

end HttpFraming.Query
