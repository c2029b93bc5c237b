import HttpFraming.Proofs.Grammar.Request
import HttpFraming.Proofs.Message.Framing
import HttpFraming.Proofs.RoundTrip.Parts

/-!
# A request that is written is read back

What `Request.toText` writes of a request spells it, so that a parser accepts it and no octet more,
whatever comes after it (`Request.Writable.outcome_toText`). It gives the request back, with the
`Host` field before the others.

## The domain

`Request.Writable` is what a request has to be for that. Its method has to be a token of 32 octets
at most, its target must not be empty nor contain blanks or controls, the numbers of its version
have to be below 1000, and its headers have to be writable. Each of these is what the grammar says
of the part. A request that was read satisfies all of them, which is shown elsewhere.

A method is more than its name: `GET` as an extension would be read as the method of that name. This
is why it is asked that the method comes from a text.

## Up to `Host`

The request that is read is `withHostFirst`. It is written as the same text, and body and connection
are treated as they were, because these depend on the headers only by what is found of a name.
-/

namespace HttpFraming

open CharClass

namespace Method

/-- A text that names a method is a token. -/
theorem isToken_of_parse? {s : String} {m : Method} (h : parse? s = some m) :
    isToken s = true := by
  rw [parse?] at h
  cases hknown : known.find? (·.name == s) with
  | some k =>
    have hname : k.name = s := by simpa using List.find?_some hknown
    have htokens : ∀ k ∈ known, isToken k.name = true := by decide
    exact hname ▸ htokens k (List.mem_of_find?_eq_some hknown)
  | none =>
    rw [hknown] at h
    by_cases htoken : isToken s = true
    · exact htoken
    · simp [htoken] at h

theorem only_of_isToken {s : String} (h : isToken s = true) : Only isTchar (Utf8.encode s) := by
  rw [isToken, Bool.and_eq_true, List.all_eq_true] at h
  exact (Utf8.only_encode_iff lt_of_isTchar s).2 h.2

theorem ne_empty_of_isToken {s : String} (h : isToken s = true) : s ≠ "" := by
  rintro rfl
  exact absurd h (by decide)

end Method

namespace Request

variable {q : Request} {limits : Limits}

/-- A request that can be written and read back. -/
structure Writable (q : Request) : Prop where
  method : ∃ s, Method.parse? s = some q.method
  method_le : (Utf8.encode q.method.name).length ≤ 32
  target_ne : q.target ≠ ""
  target : Only isTargetChar (Utf8.encode q.target)
  major : q.version.major ≤ 999
  minor : q.version.minor ≤ 999
  headers : q.headers.Writable

/-- A request keeps within some limits. -/
structure Fits (q : Request) (limits : Limits) : Prop where
  target : (Utf8.encode q.target).length ≤ limits.target
  headers : q.headers.Fits limits

/-- A request with its headers in the order in which they are written. -/
def withHostFirst (q : Request) : Request :=
  { q with headers := q.headers.withHostFirst }

/-- It is written as the request was, and means the same for body and connection. -/
theorem toText_withHostFirst (q : Request) : q.withHostFirst.toText = q.toText := by
  rw [toText, toText, withHostFirst, Headers.toText_withHostFirst]

/-- The body is framed as it was. -/
theorem bodySize?_withHostFirst (q : Request) : q.withHostFirst.bodySize? = q.bodySize? := by
  rw [bodySize?, bodySize?]
  exact MessageHead.framing_congr rfl q.headers.getAll?_withHostFirst

/-- The connection is treated as it was. -/
theorem connectionStatus?_withHostFirst (q : Request) :
    MessageHead.connectionStatus? q.withHostFirst = MessageHead.connectionStatus? q :=
  MessageHead.connectionStatus?_congr rfl q.headers.getAll?_withHostFirst

/-- A request as it is written. -/
def written (q : Request) : RequestText :=
  ⟨q.method.name, q.target, q.version, q.headers.writtenLines⟩

/-- The name of a method that can be written names it. -/
theorem Writable.parse?_name (hq : q.Writable) : Method.parse? q.method.name = some q.method := by
  obtain ⟨s, hs⟩ := hq.method
  rw [Method.name_of_parse? hs, hs]

/-- What is written of a request spells it. -/
theorem Writable.spells (hq : q.Writable) : q.written.Spells (Utf8.encode q.toText) := by
  have hspace : Utf8.encode " " = [0x20] := by decide
  have hend : Utf8.encode "\r\n" = [0x0D, 0x0A] := by decide
  have htext : Utf8.encode q.toText = [] ++ (Utf8.encode q.method.name ++ 0x20 ::
      (Utf8.encode q.target ++ (0x20 :: Utf8.encode q.version.toText ++
        ([0x0D, 0x0A] ++ (Utf8.encode q.headers.toText ++ [0x0D, 0x0A]))))) := by
    simp [toText, hspace, hend]
  have htoken := Method.isToken_of_parse? hq.parse?_name
  have hmethod : Utf8.encode q.method.name ≠ [] :=
    Utf8.encode_eq_nil_iff.not.2 (Method.ne_empty_of_isToken htoken)
  have htarget : Utf8.encode q.target ≠ [] := Utf8.encode_eq_nil_iff.not.2 hq.target_ne
  rw [htext]
  exact .mk only_nil hmethod (Method.only_of_isToken htoken) hq.method_le htarget hq.target
    (.given (spellsVersion_toText hq.major hq.minor)) .crlf hq.headers.spellAll .crlf

/-- What is written keeps within the limits of the request. -/
theorem Writable.fits_written (hq : q.Writable) (hlimits : q.Fits limits) :
    q.written.Fits limits where
  target := hlimits.target
  count := hlimits.headers.count_le hq.headers
  size := hlimits.headers.size_le

/-- What is written says the request, with `Host` first. -/
theorem Writable.request?_written (hq : q.Writable) :
    q.written.request? = some q.withHostFirst := by
  rw [RequestText.request?, written, hq.parse?_name, Option.map_some, RequestText.headers,
    hq.headers.ofList_field]
  rfl

/-- A parser accepts what is written of a request, and no octet of what comes after it. -/
theorem Writable.outcome_toText (hq : q.Writable) (hlimits : q.Fits limits) (y : Octets) :
    (HeadParser.new limits : RequestParser).outcome (Utf8.encode q.toText ++ y) =
      (.accepted q.withHostFirst, (Utf8.encode q.toText).length) :=
  RequestParser.accepts_iff_spells.2
    ⟨q.written, hq.spells, hq.fits_written hlimits, hq.request?_written⟩

/-- **A request that is written is read back.** A parser takes all of its text and ends without an
error. Method, target and version are the same, and so are the headers, names with their casing and
values in order, but for the `Host` field, which comes first. -/
theorem parse_toText (hq : q.Writable) (hlimits : q.Fits limits) :
    ((HeadParser.new limits : RequestParser).parse (Utf8.encode q.toText)).2 =
        (Utf8.encode q.toText).length ∧
      ((HeadParser.new limits : RequestParser).parse (Utf8.encode q.toText)).1.done = true ∧
      ((HeadParser.new limits : RequestParser).parse (Utf8.encode q.toText)).1.error? = none ∧
      ∃ q' : Request,
        ((HeadParser.new limits : RequestParser).parse (Utf8.encode q.toText)).1.head? = some q' ∧
          q'.method = q.method ∧ q'.target = q.target ∧ q'.version = q.version ∧
          q'.headers.toList =
            q.headers.toList.filter (sameName ·.1 "Host") ++
              q.headers.toList.filter (!sameName ·.1 "Host") := by
  have houtcome := hq.outcome_toText hlimits []
  rw [List.append_nil] at houtcome
  obtain ⟨hverdict, hconsumed⟩ := Prod.mk.inj houtcome
  obtain ⟨hdone, herror, hhead⟩ := HeadParser.of_verdict_accepted hverdict
  refine ⟨hconsumed, hdone, herror, q.withHostFirst, hhead, rfl, rfl, rfl, ?_⟩
  simp only [withHostFirst, Headers.withHostFirst, Headers.toList, Headers.hostFirst,
    List.map_append, List.filter_map, Function.comp_def]

/-- A request in which `Host` does not come first. -/
theorem parse_toText_host_last :
    (⟨.get, "/", .http11, .ofList [("A", "b"), ("Host", "h")]⟩ : Request).Writable ∧
      (⟨.get, "/", .http11, .ofList [("A", "b"), ("Host", "h")]⟩ : Request).Fits .standard ∧
      ∃ q' : Request, ((HeadParser.new .standard : RequestParser).parse
          (Utf8.encode (⟨.get, "/", .http11, .ofList [("A", "b"), ("Host", "h")]⟩ : Request).toText)
            ).1.head? = some q' ∧
        q'.headers.toList = [("Host", ["h"]), ("A", ["b"])] := by
  have hbuilt : (Headers.ofList [("A", "b"), ("Host", "h")]).Built :=
    (Headers.Built.empty.insertAll "A" ["b"]).insertAll "Host" ["h"]
  have hq : (⟨.get, "/", .http11, .ofList [("A", "b"), ("Host", "h")]⟩ : Request).Writable :=
    ⟨⟨"GET", by decide⟩, by decide, by decide, by decide, by decide, by decide,
      ⟨hbuilt, by decide, by decide, by decide⟩⟩
  have hfits : (⟨.get, "/", .http11, .ofList [("A", "b"), ("Host", "h")]⟩ : Request).Fits
      .standard := ⟨by decide, ⟨by decide, by decide⟩⟩
  obtain ⟨-, -, -, q', hhead, -, -, -, hheaders⟩ := parse_toText hq hfits
  exact ⟨hq, hfits, q', hhead, hheaders.trans (by decide)⟩

end Request

end HttpFraming
