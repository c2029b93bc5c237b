import HttpFraming.FieldValue.Sequence
import HttpFraming.Text.CaseFold

/-!
# Token lists

Lists such as the value of `Connection`: tokens separated by commas. A token keeps the casing in
which it was written, and is compared without regard to it. So there are two questions of equality.
`TokenList.sameTokens` asks whether two lists hold the same tokens in the same order; equality of
the type asks whether they were written alike.

The grammar is that of any list, with tokens as elements, and there is nothing to prove here but
that a token does not lengthen the text (`TokenList.element`). What a token list means for a
connection is decided elsewhere, by membership alone.
-/

namespace HttpFraming

/-- Tokens in the order in which a header value lists them. -/
structure TokenList where
  tokens : List String
deriving Repr, DecidableEq

namespace TokenList

open FieldValue

/-- One token. -/
def element : ElementReader String where
  read? s := (token? s).map fun (t, rest) ↦ (String.ofList t, rest)
  length_le h := by
    obtain ⟨⟨t, r⟩, ht, heq⟩ := Option.map_eq_some_iff.1 h
    cases heq
    exact length_le_of_token? ht

/-- Reads a list from one header value. -/
def parse? (value : String) : Option TokenList :=
  (element.readList? value.toList).map TokenList.mk

/-- Reads a list from all values of a header, in their order. -/
def parseAll? (values : List String) : Option TokenList :=
  (element.readLists? (values.map String.toList)).map TokenList.mk

/-- The number of tokens, repetitions included. -/
def size (l : TokenList) : Nat :=
  l.tokens.length

def isEmpty (l : TokenList) : Bool :=
  l.tokens.isEmpty

/-- Whether a token is in the list, in whatever case. -/
def contains (l : TokenList) (name : String) : Bool :=
  l.tokens.any (sameName · name)

/-- Whether two lists hold the same tokens in the same order, in whatever case. -/
def sameTokens (l m : TokenList) : Bool :=
  l.tokens.map foldCase == m.tokens.map foldCase

end TokenList

end HttpFraming
