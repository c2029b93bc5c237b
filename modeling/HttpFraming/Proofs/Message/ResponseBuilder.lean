import HttpFraming.Message.ResponseBuilder
import HttpFraming.Proofs.Message.Framing

/-!
# What built responses announce

A builder is asked what a response is to say of its connection and of its body. Headers can be added
to it beside that, under any name and at any time, and the question here is whether the response
still says what was asked.

* Of the connection (`ResponseBuilder.connectionStatus?_build_iff`) it does where the version does
  not imply it, because then the builder writes the `Connection` header in place of any that was
  added. Where the version implies it nothing is written, and what was added is what is read.
* Of the body (`ResponseBuilder.bodySize?_build_iff`) it does where a coding was asked for. A length
  is written in place of any that was added, but a `Transfer-Encoding` that was added stays, and
  comes before the length.

Both are equivalences, and beside each stands a response for which the condition fails.

## Steps

A caller makes any number of steps in any order, and asks for something as often as it likes. The
statements are about the builder after all of them: what it is asked for then, and which values were
added under a name (`ResponseBuilder.added`). That the headers of a builder are the lines that were
added, and nothing else, is `ResponseBuilder.headers_after`. A length that is asked for fits in 64
bits, which each step keeps (`ResponseBuilder.Measured`).

## Writing and reading

What is announced is written under three names. A law for each of them says what is found there in
the response, and a law for the others that they are as they were. What is read then depends on
these answers alone (`MessageHead.framing_congr`), so that no proof looks at the fields.
-/

namespace HttpFraming

/-! ### Connections -/

namespace ConnectionStatus

/-- The connection option that asks for a status. -/
def option : ConnectionStatus → String
  | keepAlive => "keep-alive"
  | close => "close"

/-- A version implies a status: messages that give no connection option have it. -/
def ImpliedBy (version : Version) : ConnectionStatus → Prop
  | keepAlive => Version.http11 ≤ version
  | close => ¬ Version.http11 ≤ version

instance (version : Version) (status : ConnectionStatus) : Decidable (status.ImpliedBy version) :=
  match status with
  | keepAlive => inferInstanceAs (Decidable (_ ≤ _))
  | close => inferInstanceAs (Decidable (¬ _))

/-- Connection options leave a status that the version implies as it is. -/
def LeftBy (options : TokenList) : ConnectionStatus → Prop
  | keepAlive => options.contains "close" = false
  | close => options.contains "close" = true ∨ options.contains "keep-alive" = false

instance (options : TokenList) (status : ConnectionStatus) : Decidable (status.LeftBy options) :=
  match status with
  | keepAlive => inferInstanceAs (Decidable (_ = _))
  | close => inferInstanceAs (Decidable (_ ∨ _))

/-- An empty list of options leaves every status as it is. -/
theorem leftBy_nil (status : ConnectionStatus) : status.LeftBy ⟨[]⟩ := by
  cases status with
  | keepAlive => rfl
  | close => exact .inr rfl

end ConnectionStatus

/-- There is no version between 1.0 and 1.1. -/
theorem Version.not_http11_le_iff {v : Version} : ¬ Version.http11 ≤ v ↔ v ≤ Version.http10 := by
  rw [Version.not_le, Version.lt_iff, Version.le_iff]
  simp only [Version.http11, Version.http10]
  omega

namespace MessageHead

variable {α : Type} [MessageHead α] {m : α} {status : ConnectionStatus}

theorem connectionOptions?_of_none (hget : (headers m).getAll? "Connection" = none) :
    connectionOptions? m = some ⟨[]⟩ := by
  rw [connectionOptions?, hget]

/-- The options of a message are read from all its values. -/
theorem connectionOptions?_of_some {values : List String}
    (hget : (headers m).getAll? "Connection" = some values) :
    connectionOptions? m = TokenList.parseAll? values := by
  rw [connectionOptions?, hget]

/-- A message that asks for a status and for nothing else has it. -/
theorem connectionStatus?_of_option (hversion : Version.http10 ≤ version m)
    (hget : (headers m).getAll? "Connection" = some [status.option]) :
    connectionStatus? m = some status := by
  have hoptions : connectionOptions? m = some ⟨[status.option]⟩ := by
    rw [connectionOptions?_of_some hget]
    cases status <;> decide +kernel
  rw [connectionStatus?, hoptions]
  cases status with
  | close => rfl
  | keepAlive =>
    have hpersists : Version.http11 ≤ version m ∨ (version m = Version.http10 ∧
        TokenList.contains ⟨["keep-alive"]⟩ "keep-alive" = true) := by
      by_cases hle : Version.http11 ≤ version m
      · exact .inl hle
      · exact .inr ⟨Version.le_antisymm (Version.not_http11_le_iff.1 hle) hversion, by decide⟩
    exact congrArg some (if_pos hpersists)

/-- A message has the status that its version implies if its options leave it so. -/
theorem connectionStatus?_eq_some_iff (hversion : Version.http10 ≤ version m)
    (himplied : status.ImpliedBy (version m)) :
    connectionStatus? m = some status ↔
      ∃ options, connectionOptions? m = some options ∧ status.LeftBy options := by
  rw [connectionStatus?, Option.map_eq_some_iff]
  refine exists_congr fun options ↦ and_congr_right fun _ ↦ ?_
  cases status with
  | keepAlive =>
    have hle : Version.http11 ≤ version m := himplied
    simp [ConnectionStatus.LeftBy, hle]
  | close =>
    have heq : version m = Version.http10 :=
      Version.le_antisymm (Version.not_http11_le_iff.1 himplied) hversion
    rw [heq, ConnectionStatus.LeftBy]
    cases options.contains "close" <;> cases options.contains "keep-alive" <;> decide

end MessageHead

/-! ### Steps -/

namespace ResponseBuilder

/-- A step in making a response. A length fits in 64 bits. -/
inductive Step where
  | withVersion (version : Version)
  | addHeader (name value : String)
  | keepAlive
  | close
  | contentLength (n : UInt64)
  | chunked
deriving Repr, DecidableEq

namespace Step

/-- What a step does. -/
def apply (b : ResponseBuilder) : Step → ResponseBuilder
  | withVersion version => b.withVersion version
  | addHeader name value => b.addHeader name value
  | keepAlive => b.keepAlive
  | close => b.close
  | contentLength n => b.contentLength n.toNat
  | chunked => b.chunked

/-- The header line that a step adds. -/
def line? : Step → Option (String × String)
  | addHeader name value => some (name, value)
  | _ => none

end Step

/-- A builder after some steps. -/
def after (b : ResponseBuilder) (steps : List Step) : ResponseBuilder :=
  steps.foldl Step.apply b

/-- The values that some steps add to a name, in their order. -/
def added (steps : List Step) (name : String) : List String :=
  Headers.valuesAmong (steps.filterMap Step.line?) name

variable {b : ResponseBuilder} {h : Headers} {steps : List Step} {name : String}

/-- The headers of a builder are those that are added to it, line by line. -/
theorem headers_after (b : ResponseBuilder) (steps : List Step) :
    (b.after steps).headers = b.headers.insertList (steps.filterMap Step.line?) := by
  induction steps generalizing b with
  | nil => rfl
  | cons step steps ih =>
    have hrest : (b.after (step :: steps)).headers = ((step.apply b).after steps).headers := rfl
    rw [hrest, ih]
    cases step <;> rfl

/-- A name has the values that were added to it. -/
theorem getAll?_headers_after_new (steps : List Step) (name : String) :
    (new.after steps).headers.getAll? name =
      if added steps name = [] then none else some (added steps name) := by
  rw [headers_after]
  exact Headers.getAll?_ofList _ name

/-- A body is asked for in a coding, or of a length that fits in 64 bits. -/
def Measured (b : ResponseBuilder) : Prop :=
  ∀ size, b.bodySize? = some size →
    size = .transferEncoding ∨ ∃ n < UInt64.size, size = .contentLength n

/-- A step asks for no length beyond 64 bits. -/
theorem Measured.apply (hb : b.Measured) (step : Step) : (step.apply b).Measured := by
  cases step with
  | withVersion | addHeader | keepAlive | close => exact hb
  | contentLength n =>
    rintro _ ⟨⟩
    exact .inr ⟨n.toNat, n.toNat_lt_size, rfl⟩
  | chunked =>
    rintro _ ⟨⟩
    exact .inl rfl

/-- Nor do any steps. -/
theorem Measured.after (hb : b.Measured) (steps : List Step) : (b.after steps).Measured := by
  induction steps generalizing b with
  | nil => exact hb
  | cons step steps ih => exact ih (hb.apply step)

theorem measured_new : new.Measured := by
  rintro _ ⟨⟩

/-! ### What is written

Each of the two says something under names of its own and leaves all others alone. -/

/-- What is said of the body is said under two names. -/
theorem getAll?_announceBody (hlength : sameName "Content-Length" name = false)
    (hcoding : sameName "Transfer-Encoding" name = false) :
    (b.announceBody h).getAll? name = h.getAll? name := by
  unfold announceBody
  split
  · rw [Headers.getAll?_replace h _ (List.cons_ne_nil _ _), hlength, if_neg Bool.false_ne_true]
  · rw [Headers.getAll?_insert, hcoding, if_neg Bool.false_ne_true]
  · rfl
  · rfl

/-- What is said of the connection is said under one name. -/
theorem getAll?_announceConnection (hconnection : sameName "Connection" name = false) :
    (b.announceConnection h).getAll? name = h.getAll? name := by
  have hreplace (value : String) : (h.replace "Connection" [value]).getAll? name =
      h.getAll? name := by
    rw [Headers.getAll?_replace h _ (List.cons_ne_nil _ _), hconnection,
      if_neg Bool.false_ne_true]
  unfold announceConnection
  split
  · split
    · exact hreplace _
    · rfl
  · split
    · exact hreplace _
    · rfl
  · rfl

/-- The `Connection` header is written where the version does not imply what is asked. -/
theorem getAll?_connection_build {status : ConnectionStatus}
    (hstatus : b.connectionStatus? = some status) (code : Nat) (reason : String) :
    (b.build code reason).headers.getAll? "Connection" =
      if status.ImpliedBy b.version then b.headers.getAll? "Connection"
      else some [status.option] := by
  have hbody : (b.announceBody b.headers).getAll? "Connection" = b.headers.getAll? "Connection" :=
    getAll?_announceBody (by decide) (by decide)
  have hreplace (h : Headers) (value : String) :
      (h.replace "Connection" [value]).getAll? "Connection" = some [value] := by
    rw [Headers.getAll?_replace h _ (List.cons_ne_nil _ _), sameName_refl, if_pos rfl]
  rw [build, announceConnection, hstatus]
  cases status with
  | close =>
    by_cases hle : Version.http11 ≤ b.version
    · simp only [hle, ConnectionStatus.ImpliedBy, ConnectionStatus.option, hreplace, if_true,
        not_true_eq_false, if_false]
    · simp only [hle, ConnectionStatus.ImpliedBy, hbody, not_false_eq_true, if_true, if_false]
  | keepAlive =>
    by_cases hle : Version.http11 ≤ b.version
    · have hnot : ¬ b.version ≤ Version.http10 := fun h ↦ Version.not_http11_le_iff.2 h hle
      simp only [hle, hnot, ConnectionStatus.ImpliedBy, hbody, if_true, if_false]
    · have hold : b.version ≤ Version.http10 := Version.not_http11_le_iff.1 hle
      simp only [hle, hold, ConnectionStatus.ImpliedBy, ConnectionStatus.option, hreplace, if_true,
        if_false]

/-- What is said about the body stands where it is read. -/
theorem getAll?_build_of_body (code : Nat) (reason : String)
    (hconnection : sameName "Connection" name = false) :
    (b.build code reason).headers.getAll? name = (b.announceBody b.headers).getAll? name :=
  getAll?_announceConnection hconnection

/-- A coding that is asked for applies. -/
theorem coded_build_of_transferEncoding (hversion : Version.http11 ≤ b.version)
    (hsize : b.bodySize? = some .transferEncoding) (code : Nat) (reason : String) :
    MessageHead.Coded (b.build code reason) := by
  refine ⟨hversion, ?_⟩
  have hget : (b.build code reason).headers.getAll? "Transfer-Encoding" =
      some (b.headers.values "Transfer-Encoding" ++ ["chunked"]) := by
    rw [getAll?_build_of_body code reason (by decide), announceBody, hsize]
    exact (Headers.getAll?_insert ..).trans (if_pos (sameName_refl _))
  simp [MessageHead.headers, Headers.values, hget]

/-- The length that is asked for is the one declared, whatever lengths were added. -/
theorem declares_build_of_contentLength {n : Nat} (hn : n < UInt64.size)
    (hsize : b.bodySize? = some (.contentLength n)) (code : Nat) (reason : String) :
    MessageHead.Declares (b.build code reason) n := by
  refine ⟨Decimal.print n, ?_, Radix.spells_print hn⟩
  have hget : (b.build code reason).headers.getAll? "Content-Length" = some [Decimal.print n] := by
    rw [getAll?_build_of_body code reason (by decide), announceBody, hsize]
    exact (Headers.getAll?_replace _ _ (List.cons_ne_nil _ _) _).trans (if_pos (sameName_refl _))
  exact hget

/-- To ask for a length leaves the codings that were added. -/
theorem coded_build_of_contentLength {n : Nat} (hversion : Version.http11 ≤ b.version)
    (hsize : b.bodySize? = some (.contentLength n)) (code : Nat) (reason : String) :
    MessageHead.Coded (b.build code reason) ↔ b.headers.values "Transfer-Encoding" ≠ [] := by
  have hget : (b.build code reason).headers.getAll? "Transfer-Encoding" =
      b.headers.getAll? "Transfer-Encoding" := by
    rw [getAll?_build_of_body code reason (by decide), announceBody, hsize]
    exact (Headers.getAll?_replace _ _ (List.cons_ne_nil _ _) _).trans (if_neg (by decide))
  have hvalues : (b.build code reason).headers.values "Transfer-Encoding" =
      b.headers.values "Transfer-Encoding" := congrArg (Option.getD · []) hget
  exact ⟨fun h ↦ hvalues ▸ h.2, fun h ↦ ⟨hversion, hvalues ▸ h⟩⟩

/-- The values of a name are those that were added to it. -/
theorem values_headers_after_new (steps : List Step) (name : String) :
    (new.after steps).headers.values name = added steps name := by
  rw [Headers.values, getAll?_headers_after_new]
  split
  · rename_i hnil
    exact hnil.symm
  · rfl

/-! ### What is read -/

/-- **A built response has the connection status that was asked for**, from version 1.0 on, if the
version does not imply it, if no connection option was added, or if those that were added leave it
as it is; and in no other case. -/
theorem connectionStatus?_build_iff {steps : List Step} {status : ConnectionStatus}
    (hversion : Version.http10 ≤ (new.after steps).version)
    (hstatus : (new.after steps).connectionStatus? = some status) (code : Nat)
    (reason : String) :
    MessageHead.connectionStatus? ((new.after steps).build code reason) = some status ↔
      ¬ status.ImpliedBy (new.after steps).version ∨ added steps "Connection" = [] ∨
        ∃ options, TokenList.parseAll? (added steps "Connection") = some options ∧
          status.LeftBy options := by
  have hget := getAll?_connection_build hstatus code reason
  -- Where the version implies the status, nothing is written, and what was added to the builder is
  -- what is read.
  by_cases himplied : status.ImpliedBy (new.after steps).version
  · rw [if_pos himplied, getAll?_headers_after_new] at hget
    have hread : MessageHead.connectionStatus? ((new.after steps).build code reason) =
        some status ↔ _ := MessageHead.connectionStatus?_eq_some_iff hversion himplied
    rw [hread]
    by_cases hadded : added steps "Connection" = []
    · rw [if_pos hadded] at hget
      have hoptions : MessageHead.connectionOptions? ((new.after steps).build code reason) =
          some ⟨[]⟩ := MessageHead.connectionOptions?_of_none hget
      exact ⟨fun _ ↦ .inr (.inl hadded), fun _ ↦ ⟨_, hoptions, status.leftBy_nil⟩⟩
    · rw [if_neg hadded] at hget
      have hoptions : MessageHead.connectionOptions? ((new.after steps).build code reason) =
          TokenList.parseAll? (added steps "Connection") :=
        MessageHead.connectionOptions?_of_some hget
      rw [hoptions]
      simp [himplied, hadded]
  · rw [if_neg himplied] at hget
    exact ⟨fun _ ↦ .inl himplied, fun _ ↦ MessageHead.connectionStatus?_of_option hversion hget⟩

/-- A response that is to persist, with an option that leaves it so. -/
def upgraded : List Step :=
  [.addHeader "connection" "Upgrade", .keepAlive]

/-- The version makes the connection persist, and the option does not matter to it. -/
theorem connectionStatus?_build_iff_upgraded :
    Version.http10 ≤ (new.after upgraded).version ∧
      (new.after upgraded).connectionStatus? = some .keepAlive ∧
      MessageHead.connectionStatus? ((new.after upgraded).build 101 "") = some .keepAlive := by
  have hadded : added upgraded "Connection" = ["Upgrade"] := by decide
  have hparse : TokenList.parseAll? ["Upgrade"] = some ⟨["Upgrade"]⟩ := by decide +kernel
  have hleft : ∃ options, TokenList.parseAll? (added upgraded "Connection") = some options ∧
      ConnectionStatus.LeftBy options .keepAlive := by
    rw [hadded]
    exact ⟨⟨["Upgrade"]⟩, hparse, by decide⟩
  exact ⟨by decide, rfl, (connectionStatus?_build_iff (by decide) rfl 101 "").2 (.inr (.inr hleft))⟩

/-- A response that is to persist, with an option that closes it. -/
def closed : List Step :=
  [.addHeader "Connection" "close", .keepAlive]

/-- The connection closes that was to persist. -/
theorem connectionStatus?_build_ne :
    Version.http10 ≤ (new.after closed).version ∧
      (new.after closed).connectionStatus? = some .keepAlive ∧
      MessageHead.connectionStatus? ((new.after closed).build 200 "OK") ≠ some .keepAlive := by
  decide +kernel

/-- **A built response is framed as was asked for**, from version 1.1 on and with a code that allows
a body, if a coding was asked for or none was added; and in no other case. -/
theorem bodySize?_build_iff {steps : List Step} {size : BodySize}
    (hversion : Version.http11 ≤ (new.after steps).version)
    (hsize : (new.after steps).bodySize? = some size) {code : Nat} (hcode : ¬ Bodiless code)
    (reason : String) :
    ((new.after steps).build code reason).bodySize? = some size ↔
      size = .transferEncoding ∨ added steps "Transfer-Encoding" = [] := by
  have hbody : ((new.after steps).build code reason).bodySize? =
      MessageHead.framing ((new.after steps).build code reason) .untilEof :=
    if_neg (Status.hasNoBody_iff.not.2 hcode)
  rw [hbody]
  -- A length is written beside any coding that was added, and the coding decides.
  rcases measured_new.after steps size hsize with rfl | ⟨n, hn, rfl⟩
  · have hcoded := coded_build_of_transferEncoding hversion hsize code reason
    exact ⟨fun _ ↦ .inl rfl, fun _ ↦ MessageHead.framing_of_coded hcoded⟩
  · have hcoded := coded_build_of_contentLength hversion hsize code reason
    rw [values_headers_after_new] at hcoded
    by_cases hadded : added steps "Transfer-Encoding" = []
    · have hdeclares := declares_build_of_contentLength hn hsize code reason
      exact ⟨fun _ ↦ .inr hadded, fun _ ↦
        MessageHead.framing_of_declares (hcoded.not.2 (not_not_intro hadded)) hdeclares⟩
    · rw [MessageHead.framing_of_coded (hcoded.2 hadded)]
      simp [hadded]

/-- The greatest length there is, asked for between two others that are added. -/
def longest : List Step :=
  [.addHeader "Content-Length" "1", .contentLength 18446744073709551615,
    .addHeader "content-length" "2"]

/-- The lengths that are added do not matter. -/
theorem bodySize?_build_iff_longest :
    (Version.http11 ≤ (new.after longest).version ∧ ¬ Bodiless 200) ∧
      (new.after longest).bodySize? = some (.contentLength 18446744073709551615) ∧
      ((new.after longest).build 200 "OK").bodySize? =
        some (.contentLength 18446744073709551615) := by
  have hadded : added longest "Transfer-Encoding" = [] := by decide
  exact ⟨by decide, rfl,
    (bodySize?_build_iff (by decide) rfl (by decide) "OK").2 (.inr hadded)⟩

/-- A length asked for where a coding is added. -/
def compressed : List Step :=
  [.addHeader "Transfer-Encoding" "gzip", .contentLength 5]

/-- The body is not of the length that was asked for. -/
theorem bodySize?_build_ne :
    (Version.http11 ≤ (new.after compressed).version ∧ ¬ Bodiless 200) ∧
      (new.after compressed).bodySize? = some (.contentLength 5) ∧
      ((new.after compressed).build 200 "OK").bodySize? ≠ some (.contentLength 5) := by
  decide

end ResponseBuilder

end HttpFraming
