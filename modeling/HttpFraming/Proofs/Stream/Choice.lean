import HttpFraming.Proofs.FieldValue.Lines
import HttpFraming.Proofs.Message.Framing
import HttpFraming.Stream.BodyReader

/-!
# Which reader a body gets

Two parties to a connection have to agree where a body ends, and only the heads tell them. If they
choose different readers for the same head, one of them takes for the next message what the other
takes for a part of this one. So which reader a head gets must not depend on anything but the head.

## The rule

Which codings the values of a head list together is described here apart from how it is found out
(`ExtensionList.Together`), as the length that a head declares is beside the framing of messages
(`MessageHead.Declares`, `MessageHead.Silent`). The rule itself is `BodyReader.Follows`:

* where a coding applies, `chunked` as the only coding gives a reader of chunks, any other list of
  codings is refused as unsupported, and what is no list is refused as bad. The length does not
  matter;
* elsewhere a declared length gives a reader of so many octets, and a length that is malformed or
  contradicted is refused as bad;
* a message that says nothing gets the reader `silent`. A request has no body then, and the body of
  a response ends with the connection.

Each line says when, and only when, so `Follows` leaves one choice for each head.

## The three ways to ask

`BodyReader.choice_unambiguous` says that a reader for a request, for a response, and for a response
to a given request follow this rule, whatever the headers are, and names the responses that are
beyond the rule because they have no body at all. A response to a known request is read as one to an
unknown request, unless the request refuses a body with its code (`Request.Refuses`).
-/

namespace HttpFraming

/-! ### Lists of extensions in several values -/

namespace ExtensionList

open FieldValue

/-- Each value is a list of extensions, and together they hold these. -/
inductive Together : List String → List Extension → Prop
  | nil : Together [] []
  | cons {value : String} {l : ExtensionList} {values : List String} {extensions : List Extension}
    (first : parse? value = some l) (rest : Together values extensions) :
    Together (value :: values) (l.extensions ++ extensions)

variable {values : List String} {extensions : List Extension}

/-- What values hold together is what their lists are, one after the other. -/
theorem together_iff : Together values extensions ↔ ∃ lists : List (List Extension),
    (values.map String.toList).map element.readList? = lists.map some ∧
      lists.flatten = extensions := by
  constructor
  · intro h
    induction h with
    | nil => exact ⟨[], rfl, rfl⟩
    | @cons value l _ _ first rest ih =>
      obtain ⟨lists, hread, rfl⟩ := ih
      obtain ⟨extensions, hvalue, rfl⟩ := Option.map_eq_some_iff.1 first
      refine ⟨extensions :: lists, ?_, List.flatten_cons⟩
      rw [List.map_cons, List.map_cons, List.map_cons, hvalue, hread]
  · rintro ⟨lists, h, rfl⟩
    induction values generalizing lists with
    | nil =>
      obtain rfl := List.map_eq_nil_iff.1 h.symm
      exact .nil
    | cons value values ih =>
      obtain ⟨extensions, lists, rfl, hvalue, hvalues⟩ := List.map_eq_cons_iff.1 h.symm
      rw [List.flatten_cons]
      exact .cons (congrArg (Option.map mk) hvalue.symm) (ih lists hvalues.symm)

/-- What is read from several values is what they hold together. -/
theorem parseAll?_eq_some_iff (hne : values ≠ []) :
    parseAll? values = some ⟨extensions⟩ ↔ Together values extensions := by
  rw [together_iff, ← ElementReader.readLists?_eq_some_iff (List.map_eq_nil_iff.not.2 hne)]
  simp [parseAll?]

/-- One value that is no list spoils all of them, and nothing else does. -/
theorem parseAll?_eq_none_iff (hne : values ≠ []) :
    parseAll? values = none ↔ ∃ value ∈ values, parse? value = none := by
  rw [parseAll?, Option.map_eq_none_iff,
    ElementReader.readLists?_eq_none_iff (List.map_eq_nil_iff.not.2 hne)]
  simp [parse?]

end ExtensionList

/-- A request lets no response with some code have a body. -/
def Request.Refuses (q : Request) (code : Nat) : Prop :=
  q.method = .head ∨ (q.method = .connect ∧ 200 ≤ code ∧ code < 300)

instance (q : Request) (code : Nat) : Decidable (q.Refuses code) :=
  inferInstanceAs (Decidable (_ ∨ _))

/-! ### The rule -/

namespace BodyReader

open MessageHead

variable {α : Type} [MessageHead α] {m : α} {options : ReadOptions} {s : Source}

/-- A choice of reader follows the headers of a message. `silent` reads the body of a message that
says nothing about it. -/
structure Follows (m : α) (silent : BodyReader) (options : ReadOptions) (s : Source)
    (choice : Except BodyError BodyReader) : Prop where
  /-- Where a coding applies, the body is read if `chunked` is the only one, -/
  chunked (h : Coded m) : choice = .ok (.chunked (.new options s)) ↔
    ∃ coding, ExtensionList.Together ((headers m).values "Transfer-Encoding") [coding] ∧
      sameName coding.name "chunked" = true
  /-- is refused as unsupported if there is another list of codings, -/
  unsupported (h : Coded m) : choice = .error .unsupportedEncoding ↔
    ∃ codings, ExtensionList.Together ((headers m).values "Transfer-Encoding") codings ∧
      ∀ coding, codings = [coding] → sameName coding.name "chunked" = false
  /-- and as bad if there is no list. -/
  notList (h : Coded m) : choice = .error .badMessage ↔
    ∃ value ∈ (headers m).values "Transfer-Encoding", ExtensionList.parse? value = none
  /-- Elsewhere the body has the length that is declared, -/
  plain (h : ¬ Coded m) (r : BodyReader) : choice = .ok r ↔
    (∃ n, Declares m n ∧ r = .bound (.new options n s)) ∨ Silent m ∧ r = silent
  /-- and is refused as bad if something else than a length is. -/
  malformed (h : ¬ Coded m) : choice = .error .badMessage ↔ ¬ Silent m ∧ ∀ n, ¬ Declares m n

/-- What becomes of the values of `Transfer-Encoding`, whether or not a coding applies. -/
theorem ofTransferEncoding_iff (h : Headers) (options : ReadOptions) (s : Source) :
    (ofTransferEncoding h options s = .ok (.chunked (.new options s)) ↔
        ∃ coding, ExtensionList.parseAll? (h.values "Transfer-Encoding") = some ⟨[coding]⟩ ∧
          sameName coding.name "chunked" = true) ∧
      (ofTransferEncoding h options s = .error .unsupportedEncoding ↔
        ∃ codings, ExtensionList.parseAll? (h.values "Transfer-Encoding") = some ⟨codings⟩ ∧
          ∀ coding, codings = [coding] → sameName coding.name "chunked" = false) ∧
      (ofTransferEncoding h options s = .error .badMessage ↔
        ExtensionList.parseAll? (h.values "Transfer-Encoding") = none) := by
  rw [ofTransferEncoding, ← Headers.values]
  rcases ExtensionList.parseAll? (h.values "Transfer-Encoding") with _ | ⟨_ | ⟨coding, _ | ⟨_, _⟩⟩⟩
  · simp
  · simp
  · cases hname : sameName coding.name "chunked" <;> simp [hname]
  · simp

/-- A message that gives a coding is read in that coding. -/
theorem follows_of_coded {silent : BodyReader} (h : Coded m) :
    Follows m silent options s (ofTransferEncoding (headers m) options s) := by
  obtain ⟨hchunked, hunsupported, hbad⟩ := ofTransferEncoding_iff (headers m) options s
  refine ⟨fun _ ↦ ?_, fun _ ↦ ?_, fun _ ↦ ?_, absurd h, absurd h⟩
  · simpa only [ExtensionList.parseAll?_eq_some_iff h.2] using hchunked
  · simpa only [ExtensionList.parseAll?_eq_some_iff h.2] using hunsupported
  · simpa only [ExtensionList.parseAll?_eq_none_iff h.2] using hbad

/-- A choice by the length alone: what it is when there is none, one, or something else. -/
theorem follows_of_not_coded {silent : BodyReader} {choice : Except BodyError BodyReader}
    (h : ¬ Coded m) (hsilent : Silent m → choice = .ok silent)
    (hdeclares : ∀ n, Declares m n → choice = .ok (.bound (.new options n s)))
    (hmalformed : ¬ Silent m → (∀ n, ¬ Declares m n) → choice = .error .badMessage) :
    Follows m silent options s choice := by
  refine ⟨fun hcoded ↦ absurd hcoded h, fun hcoded ↦ absurd hcoded h,
    fun hcoded ↦ absurd hcoded h, fun _ r ↦ ?_, fun _ ↦ ?_⟩
  · constructor
    · intro hr
      by_cases hs : Silent m
      · rw [hsilent hs] at hr
        exact .inr ⟨hs, (Except.ok.inj hr).symm⟩
      by_cases hd : ∃ n, Declares m n
      · obtain ⟨n, hn⟩ := hd
        rw [hdeclares n hn] at hr
        exact .inl ⟨n, hn, (Except.ok.inj hr).symm⟩
      · rw [hmalformed hs (not_exists.1 hd)] at hr
        cases hr
    · rintro (⟨n, hn, rfl⟩ | ⟨hs, rfl⟩)
      · exact hdeclares n hn
      · exact hsilent hs
  · constructor
    · intro hbad
      refine ⟨fun hs ↦ ?_, fun n hn ↦ ?_⟩
      · rw [hsilent hs] at hbad
        cases hbad
      · rw [hdeclares n hn] at hbad
        cases hbad
    · rintro ⟨hs, hd⟩
      exact hmalformed hs hd

/-- A choice by the framing of a message follows its headers. -/
theorem follows_ofFraming {fallback : BodySize} {silent : BodyReader}
    (hsilent : ofFraming (some fallback) (headers m) options s = .ok silent) :
    Follows m silent options s (ofFraming (framing m fallback) (headers m) options s) := by
  by_cases h : Coded m
  · rw [framing_of_coded h]
    exact follows_of_coded h
  · refine follows_of_not_coded h (fun hs ↦ ?_) (fun n hn ↦ ?_) (fun hs hd ↦ ?_)
    · rw [framing_of_silent h hs, hsilent]
    · rw [framing_of_declares h hn]
      rfl
    · rw [framing_of_malformed h hs hd]
      rfl

/-! ### The three ways to ask -/

/-- A coding never leads to a body that ends with the connection. -/
theorem ofTransferEncoding_ne_untilEof (h : Headers) (r : UntilEofBody) :
    ofTransferEncoding h options s ≠ .ok (.untilEof r) := by
  rw [ofTransferEncoding]
  intro hr
  split at hr
  · cases hr
  · split at hr
    · cases hr
    · cases hr
  · cases hr

/-- No request is read until the connection ends. -/
theorem forRequest_ne_untilEof (q : Request) (r : UntilEofBody) :
    forRequest q options s ≠ .ok (.untilEof r) := by
  rw [forRequest, Request.bodySize?]
  by_cases h : Coded q
  · rw [framing_of_coded h]
    exact ofTransferEncoding_ne_untilEof q.headers r
  · intro hr
    have hfollows : Follows q (.bound (.new options 0 s)) options s
        (ofFraming (framing q (.contentLength 0)) q.headers options s) := follows_ofFraming rfl
    rcases (hfollows.plain h (.untilEof r)).1 hr with ⟨n, -, heq⟩ | ⟨-, heq⟩
    · cases heq
    · cases heq

/-- Where the request refuses a body, there is none, whatever the headers of the response say. -/
theorem bodySizeFor?_of_refuses {p : Response} {q : Request} (h : q.Refuses p.code) :
    p.bodySizeFor? q = some (.contentLength 0) := by
  rw [Response.bodySizeFor?]
  split
  · rfl
  · rename_i hfirst
    rcases h with hhead | ⟨hconnect, hsuccess⟩
    · simp [hhead] at hfirst
    · rw [hconnect, Status.isSuccess_iff.2 hsuccess]
      rfl

/-- The request counts only where it refuses a body: for all others the two framings of a response
agree. -/
theorem bodySizeFor?_of_not_refuses {p : Response} {q : Request} (h : ¬ q.Refuses p.code) :
    p.bodySizeFor? q = p.bodySize? := by
  obtain ⟨hhead, hconnect⟩ := not_or.1 h
  have hrefuses : (q.method == .connect && p.status.isSuccess) = false := by
    rw [Bool.and_eq_false_imp]
    intro hmethod
    exact Bool.eq_false_iff.2 fun hsuccess ↦
      hconnect ⟨eq_of_beq hmethod, Status.isSuccess_iff.1 hsuccess⟩
  rw [Response.bodySizeFor?, Response.bodySize?, beq_eq_false_iff_ne.2 hhead, Bool.or_false,
    hrefuses]
  rfl

/-- **Body framing is unambiguous.** The choice of a reader follows the headers of a request, of
which no body ends with the connection. It follows the headers of a response likewise, whose body
ends with the connection if they say nothing, unless its code allows no body. Which request is
answered matters only where it refuses a body. -/
theorem choice_unambiguous (q : Request) (p : Response) (options : ReadOptions) (s : Source) :
    (∀ r, forRequest q options s ≠ .ok (.untilEof r)) ∧
      Follows q (.bound (.new options 0 s)) options s (forRequest q options s) ∧
      (Bodiless p.code → forResponse p options s = .ok (.bound (.new options 0 s))) ∧
      (¬ Bodiless p.code →
        Follows p (.untilEof (.new options s)) options s (forResponse p options s)) ∧
      (q.Refuses p.code → forResponseTo p q options s = .ok (.bound (.new options 0 s))) ∧
      (¬ q.Refuses p.code → forResponseTo p q options s = forResponse p options s) := by
  refine ⟨forRequest_ne_untilEof q, follows_ofFraming rfl, fun h ↦ ?_, fun h ↦ ?_, fun h ↦ ?_,
    fun h ↦ ?_⟩
  · rw [forResponse, Response.bodySize?, if_pos (Status.hasNoBody_iff.2 h)]
    rfl
  · rw [forResponse, Response.bodySize?, if_neg (Status.hasNoBody_iff.not.2 h)]
    exact follows_ofFraming rfl
  · rw [forResponseTo, bodySizeFor?_of_refuses h]
    rfl
  · rw [forResponseTo, bodySizeFor?_of_not_refuses h]
    rfl

/-- A request in a coding, with two lengths beside it. -/
def codedConnect : Request :=
  ⟨.connect, "a:1", .http11, .ofList [("Transfer-Encoding", "Chunked"), ("Content-Length", "5"),
    ("Content-Length", "5")]⟩

/-- A response whose length is not made of digits. -/
def malformedLength (code : Nat) : Response :=
  ⟨code, "", .http11, .ofList [("Content-Length", "+5")]⟩

/-- A connection that has ended. -/
def endedSource : Source :=
  ⟨[], [], 0⟩

/-- The lengths of the request do not matter, and the malformed one of the response matters neither
with a code that allows no body nor as an answer to the request. -/
theorem choice_unambiguous_connect :
    (Coded codedConnect ∧ forRequest codedConnect .standard endedSource =
        .ok (.chunked (.new .standard endedSource))) ∧
      (Bodiless 304 ∧ forResponse (malformedLength 304) .standard endedSource =
        .ok (.bound (.new .standard 0 endedSource))) ∧
      (¬ Bodiless 200 ∧
        forResponse (malformedLength 200) .standard endedSource = .error .badMessage) ∧
      (codedConnect.Refuses 200 ∧
        forResponseTo (malformedLength 200) codedConnect .standard endedSource =
          .ok (.bound (.new .standard 0 endedSource))) ∧
      ¬ codedConnect.Refuses 404 ∧
        forResponseTo (malformedLength 404) codedConnect .standard endedSource =
          forResponse (malformedLength 404) .standard endedSource := by
  have hcoded : Coded codedConnect := by decide
  have hcoding : ExtensionList.Together ((headers codedConnect).values "Transfer-Encoding")
      [⟨"Chunked", []⟩] := by
    have hparse : ExtensionList.parse? "Chunked" = some ⟨[⟨"Chunked", []⟩]⟩ := by cbv
    exact .cons hparse .nil
  have hdeclares (n : Nat) : ¬ Declares (malformedLength 200) n := by
    rintro ⟨value, hvalue, hspells⟩
    have hget : (headers (malformedLength 200)).getAll? "Content-Length" = some ["+5"] := by decide
    rw [hget] at hvalue
    cases hvalue
    exact absurd hspells.only (by decide)
  obtain ⟨-, hrequest, -, hresponse, hrefused, -⟩ :=
    choice_unambiguous codedConnect (malformedLength 200) .standard endedSource
  obtain ⟨-, -, hbodiless, -⟩ :=
    choice_unambiguous codedConnect (malformedLength 304) .standard endedSource
  obtain ⟨-, -, -, -, -, hanswer⟩ :=
    choice_unambiguous codedConnect (malformedLength 404) .standard endedSource
  refine ⟨⟨hcoded, (hrequest.chunked hcoded).2 ⟨_, hcoding, by decide⟩⟩,
    ⟨by decide, hbodiless (by decide)⟩, ⟨by decide, ?_⟩, ⟨by decide, hrefused (by decide)⟩,
    by decide, hanswer (by decide)⟩
  exact ((hresponse (by decide)).malformed (by decide)).2 ⟨by decide, hdeclares⟩

end BodyReader

end HttpFraming
