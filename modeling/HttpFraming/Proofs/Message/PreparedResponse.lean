import HttpFraming.Proofs.FieldValue.Lines
import HttpFraming.Proofs.Message.ResponseBuilder

/-!
# Responses that treat the connection as their request does

The response to a request is begun with the status that the request gives to the connection. The
response has a version of its own, in which the same status may have to be said where the request
did not have to say it, or the other way round. Whatever else is added to such a response, if it
does not concern the connection, the status that is read from the response is the status that was
read from the request (`Request.prepareResponse_of_built`).

There are two reasons not to begin a response: a version without persistence, and connection options
that are no token list. The version comes first.

## Why steps are restricted

A builder does not keep what is asked of it from being contradicted: a `Connection` header that is
added by hand is read before what the version implies
(`ResponseBuilder.connectionStatus?_build_iff`). So the result is about steps after which no
connection option was given. `Step.LeavesConnection` decides it step by step, by the name of a
header and by what is asked, and `ResponseBuilder.Asks` is the invariant of the builder that such
steps keep. A change of the version is excluded as well, since the result names the version that the
response has.

## From the builder to what is read

The invariant holds of the builder that a request begins with, and each step keeps it (`Asks.apply`,
`Asks.after`). That the status which is asked for is then read from the response does not depend on
the request any more (`Asks.connectionStatus?_build`).
-/

namespace HttpFraming

/-! ### What is read from a message -/

namespace MessageHead

variable {α : Type} [MessageHead α] {m : α}

/-- The connection options of a message are read unless one of the values is no token list. -/
theorem connectionStatus?_eq_none_iff (hm : (headers m).Regular) :
    connectionStatus? m = none ↔
      ∃ value ∈ (headers m).values "Connection", ¬ TokenList.IsList value := by
  rw [connectionStatus?, Option.map_eq_none_iff, Headers.values]
  cases hget : (headers m).getAll? "Connection" with
  | none => simp [connectionOptions?_of_none hget]
  | some values =>
    rw [connectionOptions?_of_some hget, Option.getD_some]
    exact TokenList.parseAll?_eq_none_iff (hm.ne_nil_of_getAll? hget)

end MessageHead

/-! ### Steps that leave the connection alone -/

namespace ResponseBuilder

/-- A step that says nothing about the connection: it adds a header under another name, or asks for
a body. -/
def Step.LeavesConnection : Step → Prop
  | .addHeader name _ => sameName name "Connection" = false
  | .contentLength _ | .chunked => True
  | .withVersion _ | .keepAlive | .close => False

instance (step : Step) : Decidable step.LeavesConnection :=
  match step with
  | .addHeader _ _ => inferInstanceAs (Decidable (_ = _))
  | .contentLength _ | .chunked => inferInstanceAs (Decidable True)
  | .withVersion _ | .keepAlive | .close => inferInstanceAs (Decidable False)

/-- A builder that asks for a status in version 1.1, in which no connection option was given. -/
structure Asks (status : ConnectionStatus) (b : ResponseBuilder) : Prop where
  version : b.version = .http11
  status : b.connectionStatus? = some status
  options : b.headers.getAll? "Connection" = none

variable {b : ResponseBuilder} {status : ConnectionStatus} {steps : List Step}

theorem asks_keepAlive : Asks .keepAlive new.keepAlive :=
  ⟨rfl, rfl, rfl⟩

theorem asks_close : Asks .close new.close :=
  ⟨rfl, rfl, rfl⟩

/-- **What one step keeps.** -/
theorem Asks.apply (hb : Asks status b) {step : Step} (hstep : step.LeavesConnection) :
    Asks status (step.apply b) := by
  cases step with
  | addHeader name value =>
    have hname : sameName name "Connection" = false := hstep
    refine ⟨hb.version, hb.status, ?_⟩
    show (b.headers.insert name value).getAll? "Connection" = none
    rw [Headers.getAll?_insert, hname, if_neg Bool.false_ne_true, hb.options]
  | contentLength | chunked => exact ⟨hb.version, hb.status, hb.options⟩
  | withVersion | keepAlive | close => exact hstep.elim

/-- **What any steps keep.** -/
theorem Asks.after (hb : Asks status b) (hsteps : ∀ step ∈ steps, step.LeavesConnection) :
    Asks status (b.after steps) := by
  induction steps generalizing b with
  | nil => exact hb
  | cons step steps ih =>
    obtain ⟨hstep, hsteps⟩ := List.forall_mem_cons.1 hsteps
    exact ih (hb.apply hstep) hsteps

/-- What is asked for is read from the response, written or not. -/
theorem Asks.connectionStatus?_build (hb : Asks status b) (code : Nat) (reason : String) :
    MessageHead.connectionStatus? (b.build code reason) = some status := by
  have hversion : Version.http10 ≤ (b.build code reason).version := by
    show Version.http10 ≤ b.version
    rw [hb.version]
    decide
  have hget := getAll?_connection_build hb.status code reason
  by_cases himplied : status.ImpliedBy b.version
  · rw [if_pos himplied, hb.options] at hget
    exact (MessageHead.connectionStatus?_eq_some_iff hversion himplied).2
      ⟨⟨[]⟩, MessageHead.connectionOptions?_of_none hget, status.leftBy_nil⟩
  · rw [if_neg himplied] at hget
    exact MessageHead.connectionStatus?_of_option hversion hget

end ResponseBuilder

/-! ### Beginning a response -/

namespace Request

open ResponseBuilder

variable {q : Request}

/-- No response is begun to a version below 1.0. -/
theorem prepareResponse_of_major_eq_zero (hmajor : q.version.major = 0) :
    q.prepareResponse = .error .unsupportedVersion := by
  rw [prepareResponse, if_pos (by omega)]

/-- No response is begun where no status can be read. -/
theorem prepareResponse_of_none (hmajor : q.version.major ≠ 0)
    (hstatus : MessageHead.connectionStatus? q = none) :
    q.prepareResponse = .error .badMessage := by
  rw [prepareResponse, if_neg (by omega), hstatus]

/-- A response is begun with the status that the request gives to the connection. -/
theorem exists_prepareResponse_eq_ok (hmajor : q.version.major ≠ 0) {status : ConnectionStatus}
    (hstatus : MessageHead.connectionStatus? q = some status) :
    ∃ b, q.prepareResponse = .ok b ∧ Asks status b := by
  rw [prepareResponse, if_neg (by omega), hstatus]
  cases status with
  | keepAlive => exact ⟨_, rfl, asks_keepAlive⟩
  | close => exact ⟨_, rfl, asks_close⟩

/-- From version 1.0 on, a bad message is one without a status. -/
theorem prepareResponse_eq_badMessage_iff (hmajor : q.version.major ≠ 0) :
    q.prepareResponse = .error .badMessage ↔ MessageHead.connectionStatus? q = none := by
  constructor
  · intro hbad
    by_contra hsome
    obtain ⟨status, hstatus⟩ := Option.ne_none_iff_exists'.1 hsome
    obtain ⟨b, hok, -⟩ := exists_prepareResponse_eq_ok hmajor hstatus
    cases hok.symm.trans hbad
  · exact prepareResponse_of_none hmajor

/-- The version is not supported exactly if it is below 1.0. -/
theorem prepareResponse_eq_unsupportedVersion_iff (q : Request) :
    q.prepareResponse = .error .unsupportedVersion ↔ q.version.major = 0 := by
  constructor
  · intro hunsupported
    by_contra hmajor
    cases hstatus : MessageHead.connectionStatus? q with
    | none => cases (prepareResponse_of_none hmajor hstatus).symm.trans hunsupported
    | some status =>
      obtain ⟨b, hok, -⟩ := exists_prepareResponse_eq_ok hmajor hstatus
      cases hok.symm.trans hunsupported
  · exact prepareResponse_of_major_eq_zero

/-- **A response treats the connection as its request does.** It is not begun if the version of the
request is below 1.0, and then if a `Connection` value is no token list. Otherwise, whatever steps
follow that do not concern the connection, each response that is built has version 1.1 and the
status that the request has. -/
theorem prepareResponse_of_built (q : Request) (hq : q.headers.Built) :
    (q.prepareResponse = .error .unsupportedVersion ↔ q.version.major = 0) ∧
      (q.version.major ≠ 0 →
        (q.prepareResponse = .error .badMessage ↔
          ∃ value ∈ q.headers.values "Connection", ¬ TokenList.IsList value) ∧
        ((∀ value ∈ q.headers.values "Connection", TokenList.IsList value) →
          ∃ b status, q.prepareResponse = .ok b ∧
            MessageHead.connectionStatus? q = some status ∧
            ∀ steps : List Step, (∀ step ∈ steps, step.LeavesConnection) →
              ∀ (code : Nat) (reason : String),
                ((b.after steps).build code reason).version = .http11 ∧
                  MessageHead.connectionStatus? ((b.after steps).build code reason) =
                    some status)) := by
  have hnone : MessageHead.connectionStatus? q = none ↔
      ∃ value ∈ q.headers.values "Connection", ¬ TokenList.IsList value :=
    MessageHead.connectionStatus?_eq_none_iff hq.regular
  refine ⟨prepareResponse_eq_unsupportedVersion_iff q, fun hmajor ↦
    ⟨(prepareResponse_eq_badMessage_iff hmajor).trans hnone, fun hlists ↦ ?_⟩⟩
  have hread : MessageHead.connectionStatus? q ≠ none := by
    rw [Ne, hnone]
    rintro ⟨value, hmem, hvalue⟩
    exact hvalue (hlists value hmem)
  obtain ⟨status, hstatus⟩ := Option.ne_none_iff_exists'.1 hread
  obtain ⟨b, hok, hasks⟩ := exists_prepareResponse_eq_ok hmajor hstatus
  refine ⟨b, status, hok, hstatus, fun steps hsteps code reason ↦ ?_⟩
  have hafter := hasks.after hsteps
  exact ⟨hafter.version, hafter.connectionStatus?_build code reason⟩

/-- A request of version 1.0 that asks for persistence, in two lines and among other options. -/
def persistent : Request :=
  ⟨.get, "/", .http10,
    Headers.empty.insertList [("connection", ", Upgrade ,"), ("Connection", "Keep-Alive")]⟩

/-- In version 1.1 nothing has to be written of it. -/
theorem prepareResponse_of_built_persistent :
    persistent.headers.Built ∧
      (∀ value ∈ persistent.headers.values "Connection", TokenList.IsList value) ∧
      ∃ b, persistent.prepareResponse = .ok b ∧
        MessageHead.connectionStatus?
          ((b.after [.addHeader "Connections" "close", .contentLength 5]).build 200 "OK") =
            some .keepAlive := by
  have hbuilt : persistent.headers.Built := Headers.Built.empty.insertList _
  have hlists : ∀ value ∈ persistent.headers.values "Connection", TokenList.IsList value := by
    intro value hvalue
    have hmem : value ∈ [", Upgrade ,", "Keep-Alive"] := hvalue
    have hread : ∀ text ∈ [", Upgrade ,", "Keep-Alive"],
        TokenList.element.readList? text.toList ≠ none := by decide +kernel
    exact not_not.1 (mt TokenList.readList?_element_eq_none_iff.2 (hread value hmem))
  obtain ⟨b, status, hok, hstatus, hresponse⟩ :=
    ((prepareResponse_of_built persistent hbuilt).2 (by decide)).2 hlists
  have hkept : MessageHead.connectionStatus? persistent = some .keepAlive := by decide +kernel
  obtain rfl : status = .keepAlive := Option.some.inj (hstatus.symm.trans hkept)
  exact ⟨hbuilt, hlists, b, hok, (hresponse _ (by decide) 200 "OK").2⟩

end Request

end HttpFraming
