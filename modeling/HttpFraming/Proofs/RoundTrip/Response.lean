import HttpFraming.Proofs.Grammar.Response
import HttpFraming.Proofs.Message.Framing
import HttpFraming.Proofs.RoundTrip.Parts

/-!
# A response that is written is read back

What `Response.toText` writes of a response spells it, so that a parser accepts it and no octet
more, whatever comes after it (`Response.Writable.outcome_toText`). It gives the response back, with
the `Host` field before the others.

A reason is not trimmed, so that every reason without controls comes back as it is. A status code
comes back if it has no more than three digits; it is written with zeros in front if it has less.

## The domain

`Response.Writable` differs from its counterpart for requests in the start line only. A reason may
be empty, may consist of blanks, and may hold any text without controls, where a header value could
not. What is between the blank behind the code and the end of the line is the reason, with nothing
taken away.

## The code

That three digits are written, and which number they denote, is the one thing that has to be
computed here: the number is below a thousand, so that it has three digits at most, zeros fill up
the rest, and zeros in front of a number do not change it (`Radix.value_replicate_zero`).
-/

namespace HttpFraming

open CharClass

/-! ### Three digits -/

namespace Decimal

/-- A number below a thousand needs three digits at most. -/
theorem length_digits_le {n : Nat} (h : n < 1000) : (digits n).length ≤ 3 := by
  have hone {m : Nat} (hm : m < 10) : (digits m).length = 1 := by rw [digits, if_pos hm]; rfl
  have hnext (m : Nat) : (digits m).length ≤ (digits (m / 10)).length + 1 := by
    by_cases hm : m < 10
    · rw [hone hm]
      exact Nat.le_add_left 1 _
    · have hlength : (digits m).length = (digits (m / 10)).length + 1 := by
        rw [digits, if_neg hm, List.length_append, List.length_singleton]
      exact Nat.le_of_eq hlength
  have hlast := hone (m := n / 10 / 10) (by omega)
  calc (digits n).length ≤ (digits (n / 10)).length + 1 := hnext n
    _ ≤ (digits (n / 10 / 10)).length + 1 + 1 := Nat.succ_le_succ (hnext (n / 10))
    _ = 3 := by rw [hlast]

end Decimal

/-- Zeros in front of a number do not change it. -/
theorem Radix.value_replicate_zero (k : Nat) (digits : Octets) :
    decimal.value (List.replicate k 0x30 ++ digits) = decimal.value digits := by
  induction k with
  | zero => rfl
  | succ k ih =>
    rw [List.replicate_succ, List.cons_append]
    exact ih

/-- A status code that is written spells itself. -/
theorem spellsStatus_printPadded {n : Nat} (h : n ≤ 999) :
    SpellsStatus n (Utf8.encode (Decimal.printPadded 3 n)) := by
  have hlt : n < 1000 := Nat.lt_succ_of_le h
  have hprint := Radix.spells_print hlt
  have hlength : (Utf8.encode (Decimal.print n)).length = (Decimal.digits n).length := by
    have hascii : ∀ c ∈ Decimal.digits n, c.toNat < 0x80 := fun c hc ↦
      lt_of_isDigit (List.all_eq_true.1 (Decimal.all_isDigit_digits n) c hc)
    rw [Decimal.print, Utf8.encode_ofList_of_ascii hascii, List.length_map]
  have hzeros (k : Nat) : Utf8.encode (String.ofList (List.replicate k '0')) =
      List.replicate k 0x30 := by
    have hascii : ∀ c ∈ List.replicate k '0', c.toNat < 0x80 := by
      intro c hc
      rw [List.eq_of_mem_replicate hc]
      decide
    rw [Utf8.encode_ofList_of_ascii hascii, List.map_replicate]
    rfl
  have htext : Utf8.encode (Decimal.printPadded 3 n) =
      List.replicate (3 - (Decimal.digits n).length) 0x30 ++ Utf8.encode (Decimal.print n) := by
    rw [Decimal.printPadded, String.ofList_append, Utf8.encode_append, hzeros]
    rfl
  rw [htext]
  -- The zeros fill up to three digits, and they add nothing to the value.
  refine ⟨?_, only_append.2 ⟨?_, hprint.only⟩, ?_⟩
  · have hle := Decimal.length_digits_le hlt
    rw [List.length_append, List.length_replicate, hlength]
    omega
  · intro b hb
    rw [List.eq_of_mem_replicate hb]
    rfl
  · rw [Radix.value_replicate_zero, hprint.value]

/-! ### Responses -/

namespace Response

variable {p : Response} {limits : Limits}

/-- A response that can be written and read back. -/
structure Writable (p : Response) : Prop where
  code : p.code ≤ 999
  reason : Only isFieldValueChar (Utf8.encode p.reason)
  major : p.version.major ≤ 999
  minor : p.version.minor ≤ 999
  headers : p.headers.Writable

/-- A response keeps within some limits. -/
structure Fits (p : Response) (limits : Limits) : Prop where
  reason : (Utf8.encode p.reason).length ≤ limits.reason
  headers : p.headers.Fits limits

/-- A response with its headers in the order in which they are written. -/
def withHostFirst (p : Response) : Response :=
  { p with headers := p.headers.withHostFirst }

/-- It is written as the response was, and means the same for body and connection. -/
theorem toText_withHostFirst (p : Response) : p.withHostFirst.toText = p.toText := by
  rw [toText, toText, withHostFirst, Headers.toText_withHostFirst]

/-- The body is framed as it was. -/
theorem bodySize?_withHostFirst (p : Response) : p.withHostFirst.bodySize? = p.bodySize? := by
  have hframing : MessageHead.framing p.withHostFirst .untilEof = MessageHead.framing p .untilEof :=
    MessageHead.framing_congr rfl p.headers.getAll?_withHostFirst
  rw [bodySize?, bodySize?, hframing]
  rfl

/-- The connection is treated as it was. -/
theorem connectionStatus?_withHostFirst (p : Response) :
    MessageHead.connectionStatus? p.withHostFirst = MessageHead.connectionStatus? p :=
  MessageHead.connectionStatus?_congr rfl p.headers.getAll?_withHostFirst

/-- A response as it is written. -/
def written (p : Response) : ResponseText :=
  ⟨p.version, p.code, p.reason, p.headers.writtenLines⟩

/-- What is written of a response spells it. -/
theorem Writable.spells (hp : p.Writable) : p.written.Spells (Utf8.encode p.toText) := by
  have hspace : Utf8.encode " " = [0x20] := by decide
  have hend : Utf8.encode "\r\n" = [0x0D, 0x0A] := by decide
  have htext : Utf8.encode p.toText = [] ++ (Utf8.encode p.version.toText ++ 0x20 ::
      (Utf8.encode (Decimal.printPadded 3 p.code) ++ (0x20 :: Utf8.encode p.reason ++
        ([0x0D, 0x0A] ++ (Utf8.encode p.headers.toText ++ [0x0D, 0x0A]))))) := by
    simp [toText, hspace, hend]
  rw [htext]
  exact .mk only_nil (spellsVersion_toText hp.major hp.minor) (spellsStatus_printPadded hp.code)
    (.given hp.reason) .crlf hp.headers.spellAll .crlf

/-- What is written keeps within the limits of the response. -/
theorem Writable.fits_written (hp : p.Writable) (hlimits : p.Fits limits) :
    p.written.Fits limits where
  reason := hlimits.reason
  count := hlimits.headers.count_le hp.headers
  size := hlimits.headers.size_le

/-- What is written says the response, with `Host` first. -/
theorem Writable.response_written (hp : p.Writable) : p.written.response = p.withHostFirst := by
  rw [ResponseText.response, written, ResponseText.headers, hp.headers.ofList_field]
  rfl

/-- A parser accepts what is written of a response, and no octet of what comes after it. -/
theorem Writable.outcome_toText (hp : p.Writable) (hlimits : p.Fits limits) (y : Octets) :
    (HeadParser.new limits : ResponseParser).outcome (Utf8.encode p.toText ++ y) =
      (.accepted p.withHostFirst, (Utf8.encode p.toText).length) :=
  ResponseParser.accepts_iff_spells.2
    ⟨p.written, hp.spells, hp.fits_written hlimits, hp.response_written⟩

/-- **A response that is written is read back.** A parser takes all of its text and ends without an
error. Status code, reason and version are the same, and so are the headers, names with their casing
and values in order, but for the `Host` field, which comes first. -/
theorem response_of_toText (hp : p.Writable) (hlimits : p.Fits limits) :
    ((HeadParser.new limits : ResponseParser).parse (Utf8.encode p.toText)).2 =
        (Utf8.encode p.toText).length ∧
      ((HeadParser.new limits : ResponseParser).parse (Utf8.encode p.toText)).1.done = true ∧
      ((HeadParser.new limits : ResponseParser).parse (Utf8.encode p.toText)).1.error? = none ∧
      ∃ p' : Response,
        ((HeadParser.new limits : ResponseParser).parse (Utf8.encode p.toText)).1.head? = some p' ∧
          p'.code = p.code ∧ p'.reason = p.reason ∧ p'.version = p.version ∧
          p'.headers.toList =
            p.headers.toList.filter (sameName ·.1 "Host") ++
              p.headers.toList.filter (!sameName ·.1 "Host") := by
  have houtcome := hp.outcome_toText hlimits []
  rw [List.append_nil] at houtcome
  obtain ⟨hverdict, hconsumed⟩ := Prod.mk.inj houtcome
  obtain ⟨hdone, herror, hhead⟩ := HeadParser.of_verdict_accepted hverdict
  refine ⟨hconsumed, hdone, herror, p.withHostFirst, hhead, rfl, rfl, rfl, ?_⟩
  exact p.headers.toList_withHostFirst

/-- A code of one digit, a reason between blanks, and `Host` behind another field. -/
theorem response_of_toText_blanks :
    (⟨7, " x ", .http11, .ofList [("A", "b"), ("Host", "h")]⟩ : Response).Writable ∧
      (⟨7, " x ", .http11, .ofList [("A", "b"), ("Host", "h")]⟩ : Response).Fits .standard ∧
      ∃ p' : Response, ((HeadParser.new .standard : ResponseParser).parse
          (Utf8.encode
            (⟨7, " x ", .http11, .ofList [("A", "b"), ("Host", "h")]⟩ : Response).toText)).1.head? =
              some p' ∧
        p'.code = 7 ∧ p'.reason = " x " ∧ p'.headers.toList = [("Host", ["h"]), ("A", ["b"])] := by
  have hbuilt : (Headers.ofList [("A", "b"), ("Host", "h")]).Built :=
    (Headers.Built.empty.insertAll "A" ["b"]).insertAll "Host" ["h"]
  have hp : (⟨7, " x ", .http11, .ofList [("A", "b"), ("Host", "h")]⟩ : Response).Writable :=
    ⟨by decide, by decide, by decide, by decide, ⟨hbuilt, by decide, by decide, by decide⟩⟩
  have hfits : (⟨7, " x ", .http11, .ofList [("A", "b"), ("Host", "h")]⟩ : Response).Fits
      .standard := ⟨by decide, ⟨by decide, by decide⟩⟩
  obtain ⟨-, -, -, p', hhead, hcode, hreason, -, hheaders⟩ := response_of_toText hp hfits
  exact ⟨hp, hfits, p', hhead, hcode, hreason, hheaders.trans (by decide)⟩

end Response

end HttpFraming
