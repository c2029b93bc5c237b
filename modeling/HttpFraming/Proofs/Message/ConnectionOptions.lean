import HttpFraming.Proofs.Message.PreparedResponse

/-!
# Connection options are a set

Whether a connection persists is decided by the version of a message and by which options are among
those that it gives, and by nothing else. It does not matter where an option stands, in which of
several `Connection` lines, in what case, or how often.

There are two ways to say so. The options can be compared as what they are, a set of names
(`TokenList.Among`). Or they can be compared as they are written: `TokenList.SpellsLines` tells
which tokens some lines spell, so that blanks, empty list elements and the ends of lines are left
out of account, and `TokenList.Rearranged` says what may be done to the tokens. Either way the two
messages have the same status (`MessageHead.connectionStatus?_of_among`), be they requests or
responses.

## What it rests on

* A status asks its options whether two names are among them, and asks nothing else
  (`MessageHead.connectionStatus?_of_contains`).
* To rearrange tokens does not change what is among them
  (`TokenList.Rearranged.exists_sameName_iff`). The induction is over the steps of the
  rearrangement, of which three do something and two say that steps can be undone and repeated.
* A message gives all its lines to one reader, and they are read exactly where each of them is a
  list (`TokenList.parseAll?_eq_some_iff`). This is the place where `Headers.Built` is used: a name
  that is there has a value, so that there is a first line.

A message whose options are no lists has no status. The main theorem says so too, for otherwise two
messages could agree by having none.
-/

namespace HttpFraming

open FieldValue

namespace TokenList

variable {option token : String} {tokens tokens' values : List String}

/-! ### What lines spell -/

/-- Header lines that are token lists, with the tokens of all of them in their order. Blanks, empty
elements and the ends of lines are not told. -/
inductive SpellsLines : List String → List String → Prop
  | nil : SpellsLines [] []
  | cons {line tokens : List String} {value : String} {values : List String}
    (list : SpellsList IsToken line value.toList) (rest : SpellsLines tokens values) :
    SpellsLines (line ++ tokens) (value :: values)

/-- An option is among those that some lines give, in whatever case. -/
def Among (option : String) (values : List String) : Prop :=
  ∃ value ∈ values, ∃ tokens, SpellsList IsToken tokens value.toList ∧
    ∃ token ∈ tokens, sameName token option = true

/-- Lines spell the tokens of the lists that each of them is read as. -/
theorem spellsLines_iff : SpellsLines tokens values ↔
    ∃ lists : List (List String),
      (values.map String.toList).map element.readList? = lists.map some ∧
        lists.flatten = tokens := by
  constructor
  · intro h
    induction h with
    | nil => exact ⟨[], rfl, rfl⟩
    | @cons line tokens value values hlist _ ih =>
      obtain ⟨lists, hlists, rfl⟩ := ih
      refine ⟨line :: lists, ?_, rfl⟩
      rw [List.map_cons, List.map_cons, List.map_cons, hlists,
        reads_element.readList?_eq_some_iff.2 hlist]
  · rintro ⟨lists, hlists, rfl⟩
    induction values generalizing lists with
    | nil =>
      obtain rfl := List.map_eq_nil_iff.1 hlists.symm
      exact .nil
    | cons value values ih =>
      obtain ⟨line, lists, rfl, hline, hrest⟩ := List.map_eq_cons_iff.1 hlists.symm
      exact .cons (reads_element.readList?_eq_some_iff.1 hline.symm) (ih lists hrest.symm)

/-- Lines that are there are read as one list exactly if they spell it. -/
theorem parseAll?_eq_some_iff (hne : values ≠ []) {l : TokenList} :
    parseAll? values = some l ↔ SpellsLines l.tokens values := by
  have hne' : values.map String.toList ≠ [] := List.map_eq_nil_iff.not.2 hne
  simp only [spellsLines_iff, parseAll?, Option.map_eq_some_iff,
    element.readLists?_eq_some_iff hne']
  constructor
  · rintro ⟨tokens, hlists, rfl⟩
    exact hlists
  · exact fun h ↦ ⟨l.tokens, h, rfl⟩

/-- Lines that are lists spell some tokens. -/
theorem exists_spellsLines (h : ∀ value ∈ values, IsList value) :
    ∃ tokens, SpellsLines tokens values := by
  induction values with
  | nil => exact ⟨[], .nil⟩
  | cons value values ih =>
    obtain ⟨⟨line, hline⟩, hvalues⟩ := List.forall_mem_cons.1 h
    obtain ⟨tokens, htokens⟩ := ih hvalues
    exact ⟨line ++ tokens, .cons hline htokens⟩

/-- Lines that spell tokens are lists. -/
theorem SpellsLines.isList (h : SpellsLines tokens values) : ∀ value ∈ values, IsList value := by
  induction h with
  | nil => exact List.forall_mem_nil _
  | @cons line tokens value values hlist _ ih => exact List.forall_mem_cons.2 ⟨⟨line, hlist⟩, ih⟩

/-- What is among some lines is what stands among the tokens that they spell. -/
theorem SpellsLines.among_iff (h : SpellsLines tokens values) :
    Among option values ↔ ∃ token ∈ tokens, sameName token option = true := by
  induction h with
  | nil => simp [Among]
  | @cons line tokens value values hlist _ ih =>
    have hfirst : (∃ tokens, SpellsList IsToken tokens value.toList ∧
        ∃ token ∈ tokens, sameName token option = true) ↔
          ∃ token ∈ line, sameName token option = true := by
      constructor
      · rintro ⟨line', hlist', hmem⟩
        rwa [reads_element.spellsList_unique hlist hlist']
      · exact fun hmem ↦ ⟨line, hlist, hmem⟩
    rw [Among] at ih ⊢
    simp only [List.mem_cons, or_and_right, exists_or, exists_eq_left, hfirst, ih,
      List.mem_append]

/-- An option is in a list if a token of it has its name. -/
theorem contains_iff {l : TokenList} :
    l.contains option = true ↔ ∃ token ∈ l.tokens, sameName token option = true :=
  List.any_eq_true

/-! ### What may be done to tokens -/

/-- Tokens with the same set of names: they are put in another order, written in another case, or
repeated; and whatever comes of doing so several times, or of undoing it. -/
inductive Rearranged : List String → List String → Prop
  | reorder {tokens tokens' : List String} (perm : tokens.Perm tokens') : Rearranged tokens tokens'
  | recase {tokens tokens' : List String}
    (same : List.Forall₂ (fun token token' ↦ sameName token token' = true) tokens tokens') :
    Rearranged tokens tokens'
  | duplicate {token : String} {tokens : List String} (mem : token ∈ tokens) :
    Rearranged tokens (token :: tokens)
  | symm {tokens tokens' : List String} (h : Rearranged tokens tokens') : Rearranged tokens' tokens
  | trans {tokens tokens' tokens'' : List String} (h : Rearranged tokens tokens')
    (h' : Rearranged tokens' tokens'') : Rearranged tokens tokens''

/-- Tokens in another case have the same names among them. -/
theorem exists_sameName_of_forall₂
    (h : List.Forall₂ (fun token token' ↦ sameName token token' = true) tokens tokens') :
    (∃ token ∈ tokens, sameName token option = true) ↔
      ∃ token ∈ tokens', sameName token option = true := by
  induction h with
  | nil => exact Iff.rfl
  | cons hsame _ ih => simp only [List.mem_cons, exists_eq_or_imp, ih, sameName_congr hsame]

/-- **To rearrange tokens does not change what is among them.** -/
theorem Rearranged.exists_sameName_iff (h : Rearranged tokens tokens') :
    (∃ token ∈ tokens, sameName token option = true) ↔
      ∃ token ∈ tokens', sameName token option = true := by
  induction h with
  | reorder hperm => simp only [hperm.mem_iff]
  | recase hsame => exact exists_sameName_of_forall₂ hsame
  | @duplicate token tokens hmem =>
    simp only [List.mem_cons, exists_eq_or_imp]
    exact ⟨.inr, fun hor ↦ hor.elim (fun hsame ↦ ⟨token, hmem, hsame⟩) id⟩
  | symm _ ih => exact ih.symm
  | trans _ _ ih ih' => exact ih.trans ih'

end TokenList

namespace MessageHead

open TokenList

variable {α β : Type} [MessageHead α] [MessageHead β] {m : α} {m' : β}

/-- The options of a message are the tokens that its `Connection` lines spell. -/
theorem connectionOptions?_eq_some_iff (hm : (headers m).Regular) {options : TokenList} :
    connectionOptions? m = some options ↔
      SpellsLines options.tokens ((headers m).values "Connection") := by
  rw [Headers.values]
  cases hget : (headers m).getAll? "Connection" with
  | none =>
    rw [connectionOptions?_of_none hget, Option.some.injEq]
    constructor
    · rintro rfl
      exact .nil
    · obtain ⟨tokens⟩ := options
      rintro ⟨⟩
      rfl
  | some values =>
    rw [connectionOptions?_of_some hget, parseAll?_eq_some_iff (hm.ne_nil_of_getAll? hget)]
    rfl

/-- Of its options a status depends on what is among them. -/
theorem connectionStatus?_of_contains {options options' : TokenList}
    (hversion : version m = version m') (hoptions : connectionOptions? m = some options)
    (hoptions' : connectionOptions? m' = some options')
    (hsame : ∀ option, options.contains option = options'.contains option) :
    connectionStatus? m = connectionStatus? m' := by
  rw [connectionStatus?, connectionStatus?, hoptions, hoptions']
  simp only [Option.map_some, hsame, hversion]

/-- Messages whose lines have the same names among their tokens have the same status. -/
theorem connectionStatus?_of_spellsLines (hm : (headers m).Regular) (hm' : (headers m').Regular)
    (hversion : version m = version m') {tokens tokens' : List String}
    (hspells : SpellsLines tokens ((headers m).values "Connection"))
    (hspells' : SpellsLines tokens' ((headers m').values "Connection"))
    (hsame : ∀ option, (∃ token ∈ tokens, sameName token option = true) ↔
      ∃ token ∈ tokens', sameName token option = true) :
    connectionStatus? m = connectionStatus? m' := by
  have hoptions : connectionOptions? m = some ⟨tokens⟩ :=
    (connectionOptions?_eq_some_iff hm).2 hspells
  have hoptions' : connectionOptions? m' = some ⟨tokens'⟩ :=
    (connectionOptions?_eq_some_iff hm').2 hspells'
  refine connectionStatus?_of_contains hversion hoptions hoptions' fun option ↦ ?_
  rw [Bool.eq_iff_iff, contains_iff, contains_iff]
  exact hsame option

/-- **Connection options are a set.** A message has no status exactly if one of its `Connection`
values is no token list. Two messages of one version, whose values are token lists, have the same
status if the same options are among them; so they have it if the one spells the tokens of the
other, rearranged and laid out in other lines. -/
theorem connectionStatus?_of_among (hm : (headers m).Built) (hm' : (headers m').Built) :
    (connectionStatus? m = none ↔
        ∃ value ∈ (headers m).values "Connection", ¬ IsList value) ∧
      (version m = version m' →
        ((∀ value ∈ (headers m).values "Connection", IsList value) →
          (∀ value ∈ (headers m').values "Connection", IsList value) →
          (∀ option, Among option ((headers m).values "Connection") ↔
            Among option ((headers m').values "Connection")) →
          connectionStatus? m = connectionStatus? m') ∧
        ∀ tokens tokens', SpellsLines tokens ((headers m).values "Connection") →
          SpellsLines tokens' ((headers m').values "Connection") → Rearranged tokens tokens' →
          connectionStatus? m = connectionStatus? m') := by
  refine ⟨connectionStatus?_eq_none_iff hm.regular, fun hversion ↦
    ⟨fun hlists hlists' hsame ↦ ?_, fun tokens tokens' hspells hspells' hrearranged ↦ ?_⟩⟩
  · obtain ⟨tokens, hspells⟩ := exists_spellsLines hlists
    obtain ⟨tokens', hspells'⟩ := exists_spellsLines hlists'
    refine connectionStatus?_of_spellsLines hm.regular hm'.regular hversion hspells hspells'
      fun option ↦ ?_
    rw [← hspells.among_iff, ← hspells'.among_iff]
    exact hsame option
  · exact connectionStatus?_of_spellsLines hm.regular hm'.regular hversion hspells hspells'
      fun _ ↦ hrearranged.exists_sameName_iff

/-- A response of version 1.0 with the options of `Request.persistent`, in one line, in another
order and case, and one of them twice. -/
def persistentAnswer : Response :=
  ⟨200, "OK", .http10, Headers.empty.insertList [("Connection", "keep-alive,, UPGRADE , upgrade")]⟩

/-- The options of `Request.persistent`, given in another way. -/
theorem connectionStatus?_of_among_persistent :
    (headers Request.persistent).Built ∧ (headers persistentAnswer).Built ∧
      (∀ option, Among option ((headers Request.persistent).values "Connection") ↔
        Among option ((headers persistentAnswer).values "Connection")) ∧
      connectionStatus? Request.persistent = connectionStatus? persistentAnswer := by
  have hbuilt : (headers Request.persistent).Built := Headers.Built.empty.insertList _
  have hbuilt' : (headers persistentAnswer).Built := Headers.Built.empty.insertList _
  have hspells : SpellsLines ["Upgrade", "Keep-Alive"]
      ((headers Request.persistent).values "Connection") :=
    (parseAll?_eq_some_iff (l := ⟨["Upgrade", "Keep-Alive"]⟩) (by decide)).1 (by decide +kernel)
  have hspells' : SpellsLines ["keep-alive", "UPGRADE", "upgrade"]
      ((headers persistentAnswer).values "Connection") :=
    (parseAll?_eq_some_iff (l := ⟨["keep-alive", "UPGRADE", "upgrade"]⟩) (by decide)).1
      (by decide +kernel)
  have hrearranged : Rearranged ["Upgrade", "Keep-Alive"] ["keep-alive", "UPGRADE", "upgrade"] := by
    have htwice : Rearranged ["Upgrade", "Keep-Alive"] ["Upgrade", "Upgrade", "Keep-Alive"] :=
      .duplicate List.mem_cons_self
    have hcase : Rearranged ["Upgrade", "Upgrade", "Keep-Alive"]
        ["UPGRADE", "upgrade", "keep-alive"] :=
      .recase (.cons (by decide) (.cons (by decide) (.cons (by decide) .nil)))
    have horder : Rearranged ["UPGRADE", "upgrade", "keep-alive"]
        ["keep-alive", "UPGRADE", "upgrade"] := .reorder (by decide)
    exact (htwice.trans hcase).trans horder
  have hsame : ∀ option, Among option ((headers Request.persistent).values "Connection") ↔
      Among option ((headers persistentAnswer).values "Connection") := fun option ↦ by
    rw [hspells.among_iff, hspells'.among_iff]
    exact hrearranged.exists_sameName_iff
  exact ⟨hbuilt, hbuilt', hsame,
    ((connectionStatus?_of_among hbuilt hbuilt').2 rfl).1 hspells.isList hspells'.isList hsame⟩

end MessageHead

end HttpFraming
