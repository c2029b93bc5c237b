import HttpFraming.Proofs.Message.Headers

/-!
# Headers as a multimap

To who uses them, headers are a list of names, each in the casing in which it first came in and with
its values, in which a name is found by its key. `Multimap` says what the operations do to such a
list: they look at all of its entries, and what is counted is counted anew.

Headers change the first field of a name and keep a count beside the fields. That nobody can tell
the two apart, whatever operations came before, is `Headers.agrees_edit`. It rests on the names
being distinct (`Headers.Regular`): else the first field of a name would not be all there is of it.

## The reference

A multimap is what a maintainer would write without a thought for speed. It is a plain list, an
operation maps over all entries, and nothing is kept that could be computed. So its laws are
evident: an operation on a name leaves the entries of all other names as they are, in their order
(`Multimap.others_alter`). In this form they carry over to headers.

## One operation, and any number

`Field.Regular.entries_alter` is the one place where the first field and all fields of a name are
compared. By it, each operation on headers is the operation on what they look like
(`Headers.Regular.toList_apply`), and keeps them regular, so that the induction over the operations
goes through. What can be asked of headers is compared once, for all regular headers
(`Headers.Regular.agrees`), and not after each operation.
-/

namespace HttpFraming

/-- Names, in the casing in which they first came in, with their values in the order of arrival. -/
abbrev Multimap := List (String × List String)

namespace Multimap

def contains (m : Multimap) (name : String) : Bool :=
  m.any (sameName ·.1 name)

/-- All values of a name, in the order of arrival. -/
def getAll? (m : Multimap) (name : String) : Option (List String) :=
  (m.find? (sameName ·.1 name)).map Prod.snd

/-- The value of a name that has exactly one. -/
def get? (m : Multimap) (name : String) : Option String :=
  ((m.getAll? name).filter (·.length == 1)).bind List.head?

/-- The number of values of all names. -/
def size (m : Multimap) : Nat :=
  (m.flatMap Prod.snd).length

/-- The entries of all names but one. -/
def others (m : Multimap) (name : String) : Multimap :=
  m.filter (!sameName ·.1 name)

/-- Changes the values of a name, in the place and in the casing that it has. A name that is not
there comes in at the end. -/
def alter (m : Multimap) (name : String) (g : List String → List String) : Multimap :=
  if m.contains name then m.map fun e ↦ if sameName e.1 name then (e.1, g e.2) else e
  else m ++ [(name, g [])]

/-- Adds values to a name. Without values nothing changes. -/
def insertAll (m : Multimap) (name : String) (values : List String) : Multimap :=
  if values = [] then m else m.alter name (· ++ values)

/-- Gives a name other values. Without values the name is dropped. -/
def replace (m : Multimap) (name : String) (values : List String) : Multimap :=
  if values = [] then m.others name else m.alter name fun _ ↦ values

variable {m before after : Multimap} {e : String × List String} {name : String}
  {g : List String → List String}

/-! ### One name at a time

An operation on a name leaves all others as they are. -/

/-- **To change a name leaves the others.** -/
theorem others_alter (m : Multimap) (name : String) (g : List String → List String) :
    (m.alter name g).others name = m.others name := by
  have hmap (m : Multimap) :
      others (m.map fun e ↦ if sameName e.1 name then (e.1, g e.2) else e) name =
        m.others name := by
    induction m with
    | nil => rfl
    | cons e m ih => cases he : sameName e.1 name <;> simp_all [others]
  unfold alter
  split
  · exact hmap m
  · simp [others]

theorem others_others (m : Multimap) (name : String) :
    (m.others name).others name = m.others name := by
  simp [others]

/-- To add values to a name leaves the others. -/
theorem others_insertAll (m : Multimap) (name : String) (values : List String) :
    (m.insertAll name values).others name = m.others name := by
  unfold insertAll
  split
  · rfl
  · exact m.others_alter name _

/-- To give a name other values leaves the others. -/
theorem others_replace (m : Multimap) (name : String) (values : List String) :
    (m.replace name values).others name = m.others name := by
  unfold replace
  split
  · exact m.others_others name
  · exact m.others_alter name _

end Multimap

/-! ### What headers look like -/

namespace Field

variable {f : Field} {fs before after : List Field} {name : String}
  {g : List String → List String}

/-- A name with its values. -/
def entry (f : Field) : String × List String :=
  (f.name, f.values)

/-- The entries of some fields. -/
def entries (fs : List Field) : Multimap :=
  fs.map entry

/-- The values of a name are found in either. -/
theorem getAll?_entries (fs : List Field) (name : String) :
    (entries fs).getAll? name = find? fs name := by
  induction fs with
  | nil => rfl
  | cons f fs ih =>
    rw [find?, ← ih]
    cases hf : sameName f.name name <;> simp [entries, entry, Multimap.getAll?, hf]

/-- A name is there in either. -/
theorem contains_entries (fs : List Field) (name : String) :
    (entries fs).contains name = (find? fs name).isSome := by
  induction fs with
  | nil => rfl
  | cons f fs ih =>
    have hcons : (entries (f :: fs)).contains name =
        (sameName f.name name || (entries fs).contains name) := rfl
    rw [hcons, ih, find?]
    cases sameName f.name name <;> rfl

/-- There are as many values in either. -/
theorem size_entries (fs : List Field) : (entries fs).size = count fs := by
  induction fs with
  | nil => rfl
  | cons f fs ih =>
    have hcons : (entries (f :: fs)).size = (f.values ++ (entries fs).flatMap Prod.snd).length :=
      rfl
    rw [hcons, List.length_append, count, ← ih]
    rfl

theorem others_entries_of_absent (h : Absent name fs) : (entries fs).others name = entries fs := by
  refine List.filter_eq_self.2 fun e he ↦ ?_
  obtain ⟨f, hf, rfl⟩ := List.mem_map.1 he
  simp [entry, h f hf]

/-- **To change the first field of a name is to change the name.** -/
theorem Regular.entries_alter (h : Regular fs) (g : List String → List String) (name : String) :
    entries (alter g fs name) = (entries fs).alter name g := by
  rcases absent_or_split name fs with habsent | ⟨before, f, after, rfl, habsent, hf⟩
  · have hcontains : (entries fs).contains name = false := by
      rw [contains_entries, find?_of_absent habsent]
      rfl
    rw [alter_of_absent habsent, Multimap.alter, hcontains]
    simp [entries, entry]
  · have hcontains : (entries (before ++ f :: after)).contains name = true := by
      rw [contains_entries, find?_split habsent hf]
      rfl
    have hmap {fs : List Field} (hfs : Absent name fs) :
        (entries fs).map (fun e ↦ if sameName e.1 name then (e.1, g e.2) else e) = entries fs := by
      rw [entries, List.map_map]
      exact List.map_congr_left fun f hf ↦ by simp [entry, hfs f hf]
    -- The multimap changes every entry of the name, and the headers change the first field. In
    -- regular headers there is no other.
    obtain ⟨-, hafter⟩ := h.absent_of_split hf
    have hsplit (v : List String) : entries (before ++ ⟨f.name, v⟩ :: after) =
        entries before ++ (f.name, v) :: entries after := List.map_append
    calc entries (alter g (before ++ f :: after) name)
      _ = entries before ++ (f.name, g f.values) :: entries after := by
        rw [alter_split habsent hf, hsplit]
      _ = (entries (before ++ f :: after)).alter name g := by
        rw [Multimap.alter, if_pos hcontains, hsplit f.values, List.map_append, List.map_cons,
          hmap habsent, hmap hafter, if_pos hf]

/-- To drop the first field of a name is to drop the name. -/
theorem Regular.entries_erase (h : Regular fs) (name : String) :
    entries (erase fs name) = (entries fs).others name := by
  rcases absent_or_split name fs with habsent | ⟨before, f, after, rfl, habsent, hf⟩
  · rw [others_entries_of_absent habsent, erase_of_absent habsent]
  · obtain ⟨-, hafter⟩ := h.absent_of_split hf
    have hsplit : (entries (before ++ f :: after)).others name =
        (entries before).others name ++ (entries after).others name := by
      simp [Multimap.others, entries, entry, hf]
    rw [erase_split habsent hf, hsplit, others_entries_of_absent habsent,
      others_entries_of_absent hafter]
    exact List.map_append

end Field

namespace Headers

variable {h : Headers}

/-- Nobody can tell headers and a multimap apart. -/
structure Agrees (h : Headers) (m : Multimap) : Prop where
  toList : h.toList = m
  getAll? : ∀ name, h.getAll? name = m.getAll? name
  get? : ∀ name, h.get? name = m.get? name
  contains : ∀ name, h.contains name = m.contains name
  size : h.size = m.size
  isEmpty : h.isEmpty = m.isEmpty

/-- Nobody can tell regular headers from what they look like. -/
theorem Regular.agrees (hh : Regular h) : Agrees h h.toList where
  toList := rfl
  getAll? name := (Field.getAll?_entries h.fields name).symm
  get? name := by
    rw [Multimap.get?]
    have hget : Multimap.getAll? h.toList name = h.getAll? name :=
      Field.getAll?_entries h.fields name
    rw [hget, Headers.get?]
    rcases h.getAll? name with _ | _ | ⟨v, _ | ⟨v', values⟩⟩ <;> rfl
  contains name := (Field.contains_entries h.fields name).symm
  size := hh.size.trans (Field.size_entries h.fields).symm
  isEmpty := by
    have hnil : h.toList.isEmpty = true ↔ h.fields = [] := by simp [toList]
    exact Bool.eq_iff_iff.2 (hh.isEmpty_iff.trans hnil.symm)

/-! ### One operation -/

/-- Values are added as in a multimap. -/
theorem Regular.toList_insertAll (hh : Regular h) (name : String) (values : List String) :
    (h.insertAll name values).toList = Multimap.insertAll h.toList name values := by
  rw [Multimap.insertAll, Headers.insertAll]
  by_cases hvalues : values = []
  · rw [if_pos (by simpa using hvalues), if_pos hvalues]
  · rw [if_neg (by simpa using hvalues), if_neg hvalues, Field.append_eq_alter]
    exact hh.fields.entries_alter _ name

/-- A name is dropped as in a multimap. -/
theorem Regular.toList_erase (hh : Regular h) (name : String) :
    (h.erase name).toList = Multimap.others h.toList name := by
  rw [toList, fields_erase]
  exact hh.fields.entries_erase name

/-- A name is given other values as in a multimap. -/
theorem Regular.toList_replace (hh : Regular h) (name : String) (values : List String) :
    (h.replace name values).toList = Multimap.replace h.toList name values := by
  rw [Multimap.replace]
  by_cases hvalues : values = []
  · rw [Headers.replace, if_pos (by simpa using hvalues), if_pos hvalues]
    exact hh.toList_erase name
  · rw [if_neg hvalues, toList, fields_replace h name hvalues, Field.replace_eq_alter]
    exact hh.fields.entries_alter _ name

/-! ### Any number of operations -/

/-- An operation that changes headers. -/
inductive Edit where
  | insert (name value : String)
  | insertAll (name : String) (values : List String)
  | replace (name : String) (values : List String)
  | erase (name : String)
deriving Repr, DecidableEq

namespace Edit

/-- The name that an operation is about. -/
def name : Edit → String
  | insert name _ | insertAll name _ | replace name _ | erase name => name

/-- What an operation does to headers. -/
def apply (h : Headers) : Edit → Headers
  | insert name value => h.insert name value
  | insertAll name values => h.insertAll name values
  | replace name values => h.replace name values
  | erase name => h.erase name

/-- What it does to a multimap. -/
def applyTo (m : Multimap) : Edit → Multimap
  | insert name value => m.insertAll name [value]
  | insertAll name values => m.insertAll name values
  | replace name values => m.replace name values
  | erase name => m.others name

end Edit

/-- An operation keeps headers regular. -/
theorem Regular.apply (hh : Regular h) (e : Edit) : Regular (e.apply h) := by
  cases e with
  | insert name value => exact hh.insertAll name [value]
  | insertAll name values => exact hh.insertAll name values
  | replace name values => exact hh.replace name values
  | erase name => exact hh.erase name

/-- **One operation** does to headers what it does to a multimap. -/
theorem Regular.toList_apply (hh : Regular h) (e : Edit) :
    (e.apply h).toList = e.applyTo h.toList := by
  cases e with
  | insert name value => exact hh.toList_insertAll name [value]
  | insertAll name values => exact hh.toList_insertAll name values
  | replace name values => exact hh.toList_replace name values
  | erase name => exact hh.toList_erase name

/-- An operation leaves all names but its own. -/
theorem Edit.others_applyTo (m : Multimap) (e : Edit) :
    (e.applyTo m).others e.name = m.others e.name := by
  cases e with
  | insert name value => exact m.others_insertAll name [value]
  | insertAll name values => exact m.others_insertAll name values
  | replace name values => exact m.others_replace name values
  | erase name => exact m.others_others name

/-- Headers after some operations. -/
def edit (h : Headers) (edits : List Edit) : Headers :=
  edits.foldl Edit.apply h

/-- **Any operations** do to headers what they do to a multimap. -/
theorem Regular.edit (hh : Regular h) (edits : List Edit) :
    Regular (h.edit edits) ∧ (h.edit edits).toList = edits.foldl Edit.applyTo h.toList := by
  induction edits generalizing h with
  | nil => exact ⟨hh, rfl⟩
  | cons e edits ih =>
    obtain ⟨hregular, hlist⟩ := ih (hh.apply e)
    rw [hh.toList_apply e] at hlist
    exact ⟨hregular, hlist⟩

/-- **Headers are an ordered multimap in which case does not count.** After any operations nobody
can tell them from the multimap that went through the same operations, a further operation leaves
all names but its own as they are, and a name has the values that some lines give it when these are
added one by one. -/
theorem agrees_edit (edits : List Edit) (e : Edit) (lines : List (String × String))
    (name : String) :
    Agrees (empty.edit edits) (edits.foldl Edit.applyTo []) ∧
      Multimap.others (e.apply (empty.edit edits)).toList e.name =
        Multimap.others (empty.edit edits).toList e.name ∧
      (ofList lines).getAll? name =
        if valuesAmong lines name = [] then none else some (valuesAmong lines name) := by
  obtain ⟨hregular, hlist⟩ := regular_empty.edit edits
  refine ⟨?_, ?_, getAll?_ofList lines name⟩
  · have hagrees := hregular.agrees
    rw [hlist] at hagrees
    exact hagrees
  · rw [hregular.toList_apply e]
    exact Edit.others_applyTo _ e

end Headers

end HttpFraming
