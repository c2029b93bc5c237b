import HttpFraming.Proofs.Grammar.Decimal
import HttpFraming.Url.Basic

/-!
# The authority of a URL

An authority is read at its first `@` and at its first colon, or first bracket, after that. What is
found there is described without an order of search: `Url.readAuthority?_eq_some_iff` says that an
authority is read from a text exactly when it is well formed and the text consists of its parts. All
that reading forgets is how a port was written.

## One equivalence for each step

Reading goes down from the authority to its host and port, and from there to an IP literal or a
name. Each of these steps has an equivalence of its own, which says what the step reads and from
which texts, and the equivalence of a step uses those of the steps below it and unfolds nothing but
the step itself. The ports are the only place where a text and what is read from it differ by more
than marks, so a text for the port is a variable of every equivalence (`SpellsPort`).

## Why the first mark is the right one

A text is cut at the first of some marks, and what is found in front is taken for a part. That the
parts are the ones that were meant depends on none of them having the mark in it, which is a matter
of character classes: a host is made of host characters, or is a literal, in which colons stand
between brackets, and neither those nor ports have an `@` in them (`not_mem_hostPort`). User
information may have colons, but no `@`.
-/

namespace HttpFraming.Url

open CharClass

/-! ### Parts of an authority -/

/-- A host: an IP literal, which has a colon in it, or a name. -/
def IsHost (host : String) : Prop :=
  (':' ∈ host.toList ∧ ∀ c ∈ host.toList, isLiteralChar c.toNat = true) ∨
    ∀ c ∈ host.toList, isHostChar c.toNat = true

instance (host : String) : Decidable (IsHost host) :=
  inferInstanceAs (Decidable (_ ∨ _))

/-- What may stand behind a host: nothing, or a colon and a port, which may be left out and which
may have zeros in front. -/
inductive SpellsPort : Option Nat → List Char → Prop
  | absent : SpellsPort none []
  | empty : SpellsPort none [':']
  | given {n : Nat} {digits : List Char}
    (digits_eq : Decimal.readBelow? portBound digits = some n) : SpellsPort (some n) (':' :: digits)

/-- A port as it is written. -/
def portChars (port : Option Nat) : List Char :=
  port.elim [] fun n ↦ ':' :: Decimal.digits n

/-- User information as it is written. -/
def userinfoChars (userinfo : Option String) : List Char :=
  userinfo.elim [] fun i ↦ i.toList ++ ['@']

/-- A host as it is written. -/
def hostChars (host : String) : List Char :=
  if ':' ∈ host.toList then '[' :: (host.toList ++ [']']) else host.toList

variable {host : String} {port : Option Nat} {digits p s : List Char} {c : Char}

/-- A port is spelled by what is written of it. -/
theorem spellsPort_portChars (h : ∀ n ∈ port, n < portBound) :
    SpellsPort port (portChars port) := by
  cases port with
  | none => exact .absent
  | some n => exact .given (Decimal.readBelow?_digits (h n rfl))

/-- A port that is read is below the bound. -/
theorem SpellsPort.lt (h : SpellsPort port p) : ∀ n ∈ port, n < portBound := by
  cases h with
  | absent => simp
  | empty => simp
  | given hdigits =>
    rintro n ⟨⟩
    exact (Decimal.readBelow?_eq_some_iff.1 hdigits).2.2.2

/-- A port is read from the digits behind a colon, and none from a colon that nothing follows. -/
theorem readPort?_eq_some_iff : readPort? digits = some port ↔ SpellsPort port (':' :: digits) := by
  constructor
  · intro h
    cases digits with
    | nil =>
      obtain rfl : none = port := Option.some.inj h
      exact .empty
    | cons d digits =>
      obtain ⟨n, hn, rfl⟩ := Option.map_eq_some_iff.1 h
      exact .given hn
  · intro h
    cases h with
    | empty => rfl
    | @given n _ hn =>
      cases digits with
      | nil => exact absurd rfl (Decimal.readBelow?_eq_some_iff.1 hn).1
      | cons d digits => exact Option.map_eq_some_iff.2 ⟨n, hn, rfl⟩

theorem toList_hostText (host : String) : (hostText host).toList = hostChars host := by
  rw [hostText, hostChars]
  split <;> simp_all

/-! ### The characters of a host and a port -/

theorem isHostChar_of_isLiteralChar {n : Nat} (h : isLiteralChar n = true) (hn : n ≠ 0x3A) :
    isHostChar n = true := by
  simp only [isLiteralChar, isHostChar, Bool.or_eq_true, Bool.and_eq_true, beq_iff_eq,
    decide_eq_true_eq] at h ⊢
  rcases h with (h | h) | h
  · simp [h]
  · exact absurd h hn
  · simp [h]

theorem isHostChar_of_isDigit {n : Nat} (h : isDigit n = true) : isHostChar n = true := by
  simp [isHostChar, isUnreserved, isAlphanumeric, h]

theorem SpellsPort.class_of_mem (hport : SpellsPort port p) (h : c ∈ p) :
    c = ':' ∨ isDigit c.toNat = true := by
  cases hport with
  | absent => cases h
  | empty => exact .inl (List.mem_singleton.1 h)
  | given hdigits =>
    rcases List.mem_cons.1 h with h | h
    · exact .inl h
    · exact .inr ((Decimal.readBelow?_eq_some_iff.1 hdigits).2.1 c h)

/-- In a host and a port stand host characters, and three others. -/
theorem class_of_mem_hostPort (hhost : IsHost host) (hport : SpellsPort port p)
    (h : c ∈ hostChars host ++ p) :
    c = '[' ∨ c = ']' ∨ c = ':' ∨ isHostChar c.toNat = true := by
  have hclass : ∀ d ∈ host.toList, d = ':' ∨ isHostChar d.toNat = true := by
    intro d hd
    rcases hhost with ⟨-, hliteral⟩ | hname
    · by_cases hcolon : d.toNat = 0x3A
      · exact .inl (Char.toNat_inj.1 hcolon)
      · exact .inr (isHostChar_of_isLiteralChar (hliteral d hd) hcolon)
    · exact .inr (hname d hd)
  rcases List.mem_append.1 h with h | h
  · rw [hostChars] at h
    split at h
    · simp only [List.mem_cons, List.mem_append, List.not_mem_nil, or_false] at h
      rcases h with h | h | h
      · exact .inl h
      · exact .inr (.inr (hclass c h))
      · exact .inr (.inl h)
    · exact .inr (.inr (hclass c h))
  · exact .inr (.inr ((hport.class_of_mem h).imp_right isHostChar_of_isDigit))

/-- Only host characters, brackets and colons stand in a host with its port. -/
theorem not_mem_hostPort (hhost : IsHost host) (hport : SpellsPort port p)
    (hmarks : c ∉ ['[', ']', ':']) (hc : isHostChar c.toNat = false) : c ∉ hostChars host ++ p := by
  intro h
  rcases class_of_mem_hostPort hhost hport h with rfl | rfl | rfl | hclass
  · exact hmarks (by simp)
  · exact hmarks (by simp)
  · exact hmarks (by simp)
  · exact absurd (hc.symm.trans hclass) Bool.false_ne_true

/-! ### Reading a host and a port -/

theorem not_mem_of_class {q : Nat → Bool} {mark : Char} (hmark : q mark.toNat = false)
    (hs : ∀ c ∈ s, q c.toNat = true) : mark ∉ s :=
  fun hmem ↦ absurd (hmark.symm.trans (hs mark hmem)) Bool.false_ne_true

/-- **What is read behind an opening bracket**: a literal, the closing bracket, and a port. -/
theorem readLiteral?_eq_some_iff : readLiteral? s = some (host, port) ↔
    (':' ∈ host.toList ∧ ∀ c ∈ host.toList, isLiteralChar c.toNat = true) ∧
      ∃ p, SpellsPort port p ∧ s = host.toList ++ ']' :: p := by
  constructor
  · intro h
    rw [readLiteral?] at h
    split at h
    · cases h
    · rename_i before mark rest hcut
      obtain ⟨rfl, rfl, -⟩ := cut?_mark_eq_some_iff.1 hcut
      split at h
      · rename_i hbefore
        have hliteral : ':' ∈ before ∧ ∀ c ∈ before, isLiteralChar c.toNat = true := by
          simpa using hbefore
        split at h
        · cases h
          exact ⟨by simpa using hliteral, [], .absent, by simp⟩
        · rename_i digits
          obtain ⟨port', hport, heq⟩ := Option.map_eq_some_iff.1 h
          cases heq
          exact ⟨by simpa using hliteral, ':' :: digits, readPort?_eq_some_iff.1 hport, by simp⟩
        · cases h
      · cases h
  · rintro ⟨⟨hcolon, hliteral⟩, p, hport, rfl⟩
    have hhost : (host.toList.contains ':' &&
        host.toList.all fun c ↦ isLiteralChar c.toNat) = true := by simpa using ⟨hcolon, hliteral⟩
    rw [readLiteral?, cut?_mark_append (not_mem_of_class (by decide) hliteral)]
    simp only [hhost, if_true]
    cases hport with
    | absent => simp
    | empty => simp [readPort?]
    | given hdigits => simp [readPort?_eq_some_iff.2 (.given hdigits)]

/-- **What is read without a bracket**: a name, up to the first colon, and a port. -/
theorem readName?_eq_some_iff : readName? s = some (host, port) ↔
    (∀ c ∈ host.toList, isHostChar c.toNat = true) ∧
      ∃ p, SpellsPort port p ∧ s = host.toList ++ p := by
  constructor
  · intro h
    rw [readName?] at h
    cases hcut : cut? (· == ':') s with
    | none =>
      simp only [hcut, readPort?, Option.map_some, Option.ite_none_right_eq_some,
        List.all_eq_true, Option.some.injEq, Prod.mk.injEq] at h
      obtain ⟨hname, rfl, rfl⟩ := h
      exact ⟨by simpa using hname, [], .absent, by simp⟩
    | some cut =>
      obtain ⟨before, mark, digits⟩ := cut
      simp only [hcut, Option.ite_none_right_eq_some, List.all_eq_true, Option.map_eq_some_iff,
        Prod.mk.injEq] at h
      obtain ⟨hname, port', hport, rfl, rfl⟩ := h
      obtain ⟨rfl, rfl, -⟩ := cut?_mark_eq_some_iff.1 hcut
      exact ⟨by simpa using hname, ':' :: digits, readPort?_eq_some_iff.1 hport, by simp⟩
  · rintro ⟨hname, p, hport, rfl⟩
    have hcolon : ':' ∉ host.toList := not_mem_of_class (by decide) hname
    have hall : host.toList.all (fun c ↦ isHostChar c.toNat) = true := List.all_eq_true.2 hname
    cases hport with
    | absent =>
      simp only [List.append_nil, readName?, cut?_mark_eq_none_iff.2 hcolon, hall, if_true,
        readPort?, Option.map_some, String.ofList_toList]
    | empty =>
      simp only [readName?, cut?_mark_append hcolon, hall, if_true, readPort?, Option.map_some,
        String.ofList_toList]
    | given hdigits =>
      simp only [readName?, cut?_mark_append hcolon, hall, if_true,
        readPort?_eq_some_iff.2 (.given hdigits), Option.map_some, String.ofList_toList]

/-- **A host and its port**: which of the two steps reads them is told by the first character. -/
theorem readHostPort?_eq_some_iff : readHostPort? s = some (host, port) ↔
    IsHost host ∧ ∃ p, SpellsPort port p ∧ s = hostChars host ++ p := by
  constructor
  · intro h
    rw [readHostPort?.eq_def] at h
    split at h
    · obtain ⟨hliteral, p, hport, rfl⟩ := readLiteral?_eq_some_iff.1 h
      exact ⟨.inl hliteral, p, hport, by simp [hostChars, hliteral.1]⟩
    · obtain ⟨hname, p, hport, rfl⟩ := readName?_eq_some_iff.1 h
      have hcolon : ':' ∉ host.toList := not_mem_of_class (by decide) hname
      exact ⟨.inr hname, p, hport, by rw [hostChars, if_neg hcolon]⟩
  · rintro ⟨hhost, p, hport, rfl⟩
    -- A host with a colon in it is written in brackets, and cannot be a name.
    by_cases hcolon : ':' ∈ host.toList
    · have hliteral : ∀ c ∈ host.toList, isLiteralChar c.toNat = true := by
        rcases hhost with ⟨-, hliteral⟩ | hname
        · exact hliteral
        · exact absurd (hname _ hcolon) (by decide)
      have hread : readLiteral? (host.toList ++ ']' :: p) = some (host, port) :=
        readLiteral?_eq_some_iff.2 ⟨⟨hcolon, hliteral⟩, p, hport, rfl⟩
      simpa [hostChars, hcolon, readHostPort?] using hread
    · have hname : ∀ c ∈ host.toList, isHostChar c.toNat = true := by
        rcases hhost with ⟨hc, -⟩ | hname
        · exact absurd hc hcolon
        · exact hname
      rw [hostChars, if_neg hcolon, readHostPort?.eq_def]
      split
      · rename_i rest heq
        -- Neither a host character nor what begins a port is a bracket.
        have hmem : '[' ∈ host.toList ++ p := heq ▸ List.mem_cons_self
        rcases List.mem_append.1 hmem with hmem | hmem
        · exact absurd (hname _ hmem) (by decide)
        · exact absurd (hport.class_of_mem hmem) (by decide)
      · exact readName?_eq_some_iff.2 ⟨hname, p, hport, rfl⟩

/-! ### Reading an authority -/

/-- The parts of an authority that can be read for a scheme. -/
structure Authority.WellFormed (scheme : Option String) (a : Authority) : Prop where
  userinfo : ∀ i ∈ a.userinfo, '@' ∉ i.toList
  host : IsHost a.host
  http : isHttp scheme = true → a.userinfo = none ∧ a.host ≠ ""

/-- **An authority is read exactly from the texts that consist of its parts**, if it is well formed
for its scheme. -/
theorem readAuthority?_eq_some_iff {scheme : Option String} {a : Authority} :
    readAuthority? scheme s = some a ↔ a.WellFormed scheme ∧
      ∃ p, SpellsPort a.port p ∧ s = userinfoChars a.userinfo ++ (hostChars a.host ++ p) := by
  constructor
  · intro h
    rw [readAuthority?] at h
    split at h
    · rename_i userinfo mark hostPort hcut
      obtain ⟨rfl, rfl, hbefore⟩ := cut?_mark_eq_some_iff.1 hcut
      split at h
      · cases h
      · rename_i hrefused
        obtain ⟨⟨host, port⟩, hread, rfl⟩ := Option.map_eq_some_iff.1 h
        obtain ⟨hhost, p, hport, rfl⟩ := readHostPort?_eq_some_iff.1 hread
        refine ⟨⟨?_, hhost, fun hhttp ↦ ?_⟩, p, hport, by simp [userinfoChars]⟩
        · rintro i ⟨⟩ hmem
          rw [String.toList_ofList] at hmem
          exact hbefore hmem
        · exact absurd (by rw [hhttp, Bool.true_or]) hrefused
    · rename_i hcut
      split at h
      · cases h
      · rename_i host port hread
        obtain ⟨hhost, p, hport, rfl⟩ := readHostPort?_eq_some_iff.1 hread
        split at h
        · cases h
        · rename_i hrefused
          cases h
          refine ⟨⟨by rintro i ⟨⟩, hhost, fun hhttp ↦ ⟨rfl, ?_⟩⟩, p, hport, rfl⟩
          rintro rfl
          exact hrefused (by rw [hhttp]; rfl)
  · rintro ⟨⟨huserinfo, hhost, hhttp⟩, p, hport, rfl⟩
    obtain ⟨userinfo, host, port⟩ := a
    have hread : readHostPort? (hostChars host ++ p) = some (host, port) :=
      readHostPort?_eq_some_iff.2 ⟨hhost, p, hport, rfl⟩
    -- If there is no user information, no `@` may be found further on.
    have hat : '@' ∉ hostChars host ++ p := not_mem_hostPort hhost hport (by decide) (by decide)
    cases userinfo with
    | none =>
      have hallowed : (host.isEmpty && isHttp scheme) = false := by
        rw [Bool.and_comm, Bool.and_eq_false_imp]
        exact fun h ↦ by simpa using (hhttp h).2
      simp only [userinfoChars, Option.elim_none, List.nil_append, readAuthority?,
        cut?_mark_eq_none_iff.2 hat, hread, hallowed, Bool.false_eq_true, if_false]
    | some i =>
      have hallowed : (isHttp scheme || (hostChars host ++ p).contains '@') = false := by
        rw [Bool.or_eq_false_iff]
        refine ⟨Bool.eq_false_iff.2 fun h ↦ ?_, by simpa using hat⟩
        exact Option.some_ne_none i (hhttp h).1
      simp only [userinfoChars, Option.elim_some, List.append_assoc, List.singleton_append,
        readAuthority?, cut?_mark_append (huserinfo i rfl), hread, hallowed, Bool.false_eq_true,
        if_false, Option.map_some, String.ofList_toList]

end HttpFraming.Url
