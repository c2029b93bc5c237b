import HttpFraming.Message.Framing
import HttpFraming.Proofs.Grammar.Decimal
import HttpFraming.Proofs.Message.Headers

/-!
# What the framing of a message depends on

How the body of a message is framed and whether the connection persists is decided by the version,
by the start line, and by what the headers answer when they are asked for a name. The order of the
fields does not matter, so that a message with `Host` first is framed as it was before.

What a head says about its body is described apart from how it is found out: `Coded`, `Silent` and
`Declares` are said of a message, and with each of them goes the framing that it leads to. A fourth
case is left, in which it says something about a length that is none, and then there is no framing.

## Shape

The three are propositions and decidable, so that statements elsewhere can be made about messages
and checked on some. A declared length is told by the grammar of numbers on the wire
(`Radix.Spells`), not by the function that reads it, and by all octets of the only value there is.

The laws are about any kind of message and any `fallback`, which is the framing of messages that say
nothing. Requests and responses, and responses to one method or another, differ in it and in what
they ask before, and in nothing else.
-/

namespace HttpFraming

/-! ### What a head says about its body -/

namespace MessageHead

variable {α : Type} [MessageHead α] {m m' : α}

/-- A transfer coding applies: the message gives one, and its version knows them. -/
def Coded (m : α) : Prop :=
  Version.http11 ≤ version m ∧ (headers m).values "Transfer-Encoding" ≠ []

instance (m : α) : Decidable (Coded m) :=
  inferInstanceAs (Decidable (_ ∧ _))

/-- The message says nothing about a length. -/
def Silent (m : α) : Prop :=
  (headers m).getAll? "Content-Length" = none

instance (m : α) : Decidable (Silent m) :=
  inferInstanceAs (Decidable (_ = _))

/-- The message declares a length: in one value, in digits, and so that it fits in 64 bits. -/
def Declares (m : α) (n : Nat) : Prop :=
  ∃ value, (headers m).getAll? "Content-Length" = some [value] ∧
    Radix.decimal.Spells UInt64.size n (Utf8.encode value)

/-- What is asked first is whether a transfer coding applies. -/
theorem hasTransferEncoding_iff : hasTransferEncoding m = true ↔ Coded m := by
  rw [hasTransferEncoding, Coded, Headers.values]
  cases (headers m).getAll? "Transfer-Encoding" <;> simp

section

variable {fallback : BodySize}

/-- A transfer coding decides, whatever length is declared beside it. -/
theorem framing_of_coded (h : Coded m) : framing m fallback = some .transferEncoding :=
  if_pos (hasTransferEncoding_iff.2 h)

/-- A message that says nothing is framed by default. -/
theorem framing_of_silent (h : ¬ Coded m) (hsilent : Silent m) :
    framing m fallback = some fallback := by
  rw [framing, if_neg (hasTransferEncoding_iff.not.2 h), DeclaredLength.ofHeaders, hsilent]

/-- A declared length is the length of the body. -/
theorem framing_of_declares {n : Nat} (h : ¬ Coded m) (hn : Declares m n) :
    framing m fallback = some (.contentLength n) := by
  obtain ⟨value, hvalue, hspells⟩ := hn
  have hread : Decimal.readBelow? DeclaredLength.bound value.toList = some n :=
    Radix.spells_encode_iff.1 hspells
  rw [framing, if_neg (hasTransferEncoding_iff.not.2 h), DeclaredLength.ofHeaders, hvalue]
  simp only [hread]

/-- A length that is none leaves the message without a framing. -/
theorem framing_of_malformed (h : ¬ Coded m) (hsilent : ¬ Silent m)
    (hdeclares : ∀ n, ¬ Declares m n) : framing m fallback = none := by
  have hlength : DeclaredLength.ofHeaders (headers m) = .malformed := by
    rw [DeclaredLength.ofHeaders]
    split
    · rename_i hget
      exact absurd hget hsilent
    · rename_i value hget
      split
      · rename_i n hread
        exact absurd ⟨value, hget, Radix.spells_encode_iff.2 hread⟩ (hdeclares n)
      · rfl
    · rfl
  rw [framing, if_neg (hasTransferEncoding_iff.not.2 h), hlength]

end

/-! ### What decides -/

/-- The framing of a message depends on its version and on what its headers answer. -/
theorem framing_congr {fallback : BodySize} (hversion : version m = version m')
    (hget : ∀ name, (headers m).getAll? name = (headers m').getAll? name) :
    framing m fallback = framing m' fallback := by
  have hcoding : hasTransferEncoding m = hasTransferEncoding m' := by
    rw [hasTransferEncoding, hasTransferEncoding, hversion, hget]
  have hlength : DeclaredLength.ofHeaders (headers m) = DeclaredLength.ofHeaders (headers m') := by
    rw [DeclaredLength.ofHeaders, DeclaredLength.ofHeaders, hget]
  rw [framing, framing, hcoding, hlength]

/-- So does what becomes of the connection. -/
theorem connectionStatus?_congr (hversion : version m = version m')
    (hget : ∀ name, (headers m).getAll? name = (headers m').getAll? name) :
    connectionStatus? m = connectionStatus? m' := by
  have hoptions : connectionOptions? m = connectionOptions? m' := by
    rw [connectionOptions?, connectionOptions?, hget]
  rw [connectionStatus?, connectionStatus?, hoptions, hversion]

end MessageHead

/-! ### Responses without a body -/

/-- A response with some code has no body. -/
def Bodiless (code : Nat) : Prop :=
  (100 ≤ code ∧ code < 200) ∨ code = 204 ∨ code = 304

instance (code : Nat) : Decidable (Bodiless code) :=
  inferInstanceAs (Decidable (_ ∨ _))

namespace Status

variable {status : Status}

/-- Three kinds of codes have no body. -/
theorem hasNoBody_iff : status.hasNoBody = true ↔ Bodiless status.code := by
  simp [hasNoBody, isInformational, Bodiless, or_assoc]

theorem isSuccess_iff : status.isSuccess = true ↔ 200 ≤ status.code ∧ status.code < 300 := by
  simp [isSuccess]

end Status

end HttpFraming
