import HttpFraming.Message.Headers
import Mathlib.Data.List.Nodup

/-!
# Headers that the operations build

Whatever the operations on headers build is regular: a name has one field, a field has a value, and
the count is the number of values (`Headers.Built.regular`). The lines of regular headers say all
there is about them. Added line by line, they give the same headers again, with `Host` first
(`Headers.Regular.insertList_lines`).

## The first field of a name

All operations look for the first field of a name, and a list of fields in which a name occurs is
split there: fields before it, none of which has the name, the field, and any fields behind it
(`Field.absent_or_split`). What an operation does to such a list is said once for each operation,
and the operations themselves are not unfolded any more. To add values and to replace them is one
function with a parameter (`Field.alter`), so that there is one set of laws for both.

## Regularity

Names are compared without regard to their case. So that a name has one field is said of the folded
names, which are keys: they are distinct (`Field.Regular.nodup`). Regularity is kept by whatever
changes a field without its name, adds one of a new name, drops one or puts the fields in another
order, and each operation is one of these.

`Headers.Built` is the inductive predicate of what the operations build, and is what other modules
are about. `Headers.Regular` is what they use.

## `Host` first

Headers are written with the field of `Host` in front. The text and what is found of a name are the
same whether or not it was there before, but the fields are not, so that to write headers and to
read them gives `withHostFirst`. Its order is a permutation of the fields, which is why regularity
is about no order.
-/

namespace HttpFraming

namespace Field

variable {f : Field} {fs before after : List Field} {name : String} {values : List String}

/-- No field has a name. -/
def Absent (name : String) (fs : List Field) : Prop :=
  ∀ f ∈ fs, sameName f.name name = false

/-- A name is absent, or it has a first field. -/
theorem absent_or_split (name : String) (fs : List Field) :
    Absent name fs ∨ ∃ before f after, fs = before ++ f :: after ∧ Absent name before ∧
      sameName f.name name = true := by
  induction fs with
  | nil => exact .inl (List.forall_mem_nil _)
  | cons g fs ih =>
    cases hg : sameName g.name name with
    | true => exact .inr ⟨[], g, fs, rfl, List.forall_mem_nil _, hg⟩
    | false =>
      rcases ih with habsent | ⟨before, f, after, rfl, habsent, hf⟩
      · exact .inl (List.forall_mem_cons.2 ⟨hg, habsent⟩)
      · exact .inr ⟨g :: before, f, after, rfl, List.forall_mem_cons.2 ⟨hg, habsent⟩, hf⟩

/-! ### Adding and giving values

Both change the values of the first field of a name, or add a field. -/

/-- Gives the first field of a name the values that `g` makes of its own, or adds a field with those
that `g` makes of none. -/
def alter (g : List String → List String) : List Field → String → List Field
  | [], name => [⟨name, g []⟩]
  | f :: fs, name =>
    if sameName f.name name then ⟨f.name, g f.values⟩ :: fs else f :: alter g fs name

variable {g : List String → List String}

theorem append_eq_alter (fs : List Field) (name : String) (values : List String) :
    append fs name values = alter (· ++ values) fs name := by
  induction fs with
  | nil => rfl
  | cons f fs ih => rw [append, alter, ih]

theorem replace_eq_alter (fs : List Field) (name : String) (values : List String) :
    replace fs name values = alter (fun _ ↦ values) fs name := by
  induction fs with
  | nil => rfl
  | cons f fs ih => rw [replace, alter, ih]

theorem append_append (fs : List Field) (name : String) (values values' : List String) :
    append (append fs name values) name values' = append fs name (values ++ values') := by
  induction fs with
  | nil => simp [append]
  | cons g fs ih => cases hg : sameName g.name name <;> simp [append, hg, ih]

/-! ### The first field of a name

No operation minds the fields in front of it. -/

/-- A name is found behind fields that do not have it. -/
theorem find?_append_left (h : Absent name before) : find? (before ++ fs) name = find? fs name := by
  induction before with
  | nil => rfl
  | cons f before ih =>
    obtain ⟨hf, hbefore⟩ := List.forall_mem_cons.1 h
    simp [find?, hf, ih hbefore]

/-- Fields that do not have the name stay in front. -/
theorem alter_append_left (h : Absent name before) :
    alter g (before ++ fs) name = before ++ alter g fs name := by
  induction before with
  | nil => rfl
  | cons f before ih =>
    obtain ⟨hf, hbefore⟩ := List.forall_mem_cons.1 h
    simp [alter, hf, ih hbefore]

/-- Fields that do not have the name stay in front of one that is dropped. -/
theorem erase_append_left (h : Absent name before) :
    erase (before ++ fs) name = before ++ erase fs name := by
  induction before with
  | nil => rfl
  | cons f before ih =>
    obtain ⟨hf, hbefore⟩ := List.forall_mem_cons.1 h
    simp [erase, hf, ih hbefore]

theorem find?_of_absent (h : Absent name fs) : find? fs name = none := by
  have hfind : find? (fs ++ []) name = find? [] name := find?_append_left h
  simpa [find?] using hfind

theorem alter_of_absent (h : Absent name fs) : alter g fs name = fs ++ [⟨name, g []⟩] := by
  have halter : alter g (fs ++ []) name = fs ++ alter g [] name := alter_append_left h
  simpa [alter] using halter

theorem erase_of_absent (h : Absent name fs) : erase fs name = fs := by
  have herase : erase (fs ++ []) name = fs ++ erase [] name := erase_append_left h
  simpa [erase] using herase

theorem find?_split (h : Absent name before) (hf : sameName f.name name = true) :
    find? (before ++ f :: after) name = some f.values := by
  rw [find?_append_left h, find?, if_pos hf]

theorem alter_split (h : Absent name before) (hf : sameName f.name name = true) :
    alter g (before ++ f :: after) name = before ++ ⟨f.name, g f.values⟩ :: after := by
  rw [alter_append_left h, alter, if_pos hf]

theorem erase_split (h : Absent name before) (hf : sameName f.name name = true) :
    erase (before ++ f :: after) name = before ++ after := by
  rw [erase_append_left h, erase, if_pos hf]

/-- A name whose values are changed has the new ones, and all others have what they had. -/
theorem find?_alter (g : List String → List String) (fs : List Field) (n name : String) :
    find? (alter g fs n) name =
      if sameName n name then some (g ((find? fs name).getD [])) else find? fs name := by
  induction fs with
  | nil => rfl
  | cons f fs ih =>
    rw [alter, find?]
    cases hf : sameName f.name n with
    | true =>
      rw [if_pos rfl, find?, sameName_congr hf]
      cases sameName n name <;> rfl
    | false =>
      rw [if_neg Bool.false_ne_true, find?, ih]
      -- The first field is another than the one that was altered, and may still be the one that is
      -- asked for.
      cases hname : sameName f.name name with
      | true =>
        have hn : sameName n name = false := by
          rw [sameName_comm, ← sameName_congr hname]
          exact hf
        simp [hn]
      | false => rfl

@[simp] theorem count_append (fs gs : List Field) : count (fs ++ gs) = count fs + count gs := by
  induction fs with
  | nil => simp [count]
  | cons f fs ih => simp [count, ih, Nat.add_assoc]

theorem length_flatMap_lines (fs : List Field) : (fs.flatMap lines).length = count fs := by
  induction fs with
  | nil => rfl
  | cons f fs ih => simp [count, lines, ih]

/-! ### The fields of one kind before the others -/

/-- To put some fields in front does not change the number of values. -/
theorem count_partition (p : Field → Bool) (fs : List Field) :
    count (fs.filter p ++ fs.filter (!p ·)) = count fs := by
  induction fs with
  | nil => rfl
  | cons f fs ih =>
    rw [count_append] at ih ⊢
    cases hf : p f <;> simp [hf, count] <;> omega

/-- A name is found among the fields of a kind if its fields are of that kind. -/
theorem find?_filter {p : Field → Bool} (hp : ∀ f, sameName f.name name = true → p f = true)
    (fs : List Field) : find? (fs.filter p) name = find? fs name := by
  induction fs with
  | nil => rfl
  | cons f fs ih =>
    cases hf : sameName f.name name with
    | true => simp [find?, hp f hf, hf]
    | false => cases hpf : p f <;> simp [find?, hpf, hf, ih]

/-- A name is absent from the fields of a kind if its fields are not of that kind. -/
theorem absent_filter {p : Field → Bool} (hp : ∀ f, sameName f.name name = true → p f = false)
    (fs : List Field) : Absent name (fs.filter p) := by
  intro f hf
  have hkept : p f = true := (List.mem_filter.1 hf).2
  refine Bool.eq_false_iff.2 fun hname ↦ ?_
  exact absurd ((hp f hname).symm.trans hkept) Bool.false_ne_true

/-! ### What is true of all fields -/

/-- What holds of a name and of its values when they are added holds of the field to which they are
added, if it does not mind the case of the name. -/
theorem forall_append {N : String → Prop} {V : String → String → Prop}
    (hcase : ∀ a b v, sameName a b = true → V b v → V a v)
    (hfs : ∀ f ∈ fs, N f.name ∧ ∀ v ∈ f.values, V f.name v) (hname : N name)
    (hvalues : ∀ v ∈ values, V name v) :
    ∀ f ∈ append fs name values, N f.name ∧ ∀ v ∈ f.values, V f.name v := by
  rcases absent_or_split name fs with habsent | ⟨before, g, after, rfl, habsent, hg⟩
  · rw [append_eq_alter, alter_of_absent habsent]
    exact List.forall_mem_append.2 ⟨hfs, List.forall_mem_singleton.2 ⟨hname, hvalues⟩⟩
  · rw [append_eq_alter, alter_split habsent hg]
    obtain ⟨hbefore, hrest⟩ := List.forall_mem_append.1 hfs
    obtain ⟨⟨hgname, hgvalues⟩, hafter⟩ := List.forall_mem_cons.1 hrest
    refine List.forall_mem_append.2 ⟨hbefore, List.forall_mem_cons.2 ⟨⟨hgname, ?_⟩, hafter⟩⟩
    exact List.forall_mem_append.2 ⟨hgvalues, fun v hv ↦ hcase g.name name v hg (hvalues v hv)⟩

/-! ### Regular fields -/

/-- The key under which a field is found. -/
def key (f : Field) : List Char :=
  foldCase f.name

/-- Each name has one field, and each field a value. -/
structure Regular (fs : List Field) : Prop where
  nodup : (fs.map key).Nodup
  values_ne_nil : ∀ f ∈ fs, f.values ≠ []

theorem absent_iff : Absent name fs ↔ foldCase name ∉ fs.map key := by
  simp only [Absent, List.mem_map, not_exists, not_and, sameName, beq_eq_false_iff_ne, key]

/-- Fields are regular if the first one has values and a new name, and the others are. -/
theorem regular_cons : Regular (f :: fs) ↔ f.values ≠ [] ∧ Absent f.name fs ∧ Regular fs := by
  constructor
  · rintro ⟨hnodup, hvalues⟩
    obtain ⟨hkey, hnodup⟩ := List.nodup_cons.1 hnodup
    obtain ⟨hf, hvalues⟩ := List.forall_mem_cons.1 hvalues
    exact ⟨hf, absent_iff.2 hkey, hnodup, hvalues⟩
  · rintro ⟨hf, habsent, hnodup, hvalues⟩
    exact ⟨List.nodup_cons.2 ⟨absent_iff.1 habsent, hnodup⟩, List.forall_mem_cons.2 ⟨hf, hvalues⟩⟩

/-- The order of the fields does not matter. -/
theorem Regular.perm {gs : List Field} (h : Regular fs) (hperm : gs.Perm fs) : Regular gs where
  nodup := (hperm.map key).nodup_iff.2 h.nodup
  values_ne_nil f hf := h.values_ne_nil f (hperm.mem_iff.1 hf)

theorem regular_middle : Regular (before ++ f :: after) ↔ Regular (f :: (before ++ after)) :=
  ⟨fun h ↦ h.perm List.perm_middle.symm, fun h ↦ h.perm List.perm_middle⟩

/-- A field of a new name is added. -/
theorem Regular.concat (h : Regular fs) (habsent : Absent name fs) (hvalues : values ≠ []) :
    Regular (fs ++ [⟨name, values⟩]) := by
  rw [regular_middle, List.append_nil, regular_cons]
  exact ⟨hvalues, habsent, h⟩

/-- A field of the same name takes the place of another. -/
theorem Regular.update (h : Regular (before ++ f :: after)) (hvalues : values ≠ []) :
    Regular (before ++ ⟨f.name, values⟩ :: after) := by
  rw [regular_middle, regular_cons] at h ⊢
  exact ⟨hvalues, h.2⟩

theorem Regular.drop (h : Regular (before ++ f :: after)) : Regular (before ++ after) :=
  (regular_cons.1 (regular_middle.1 h)).2.2

/-- A name that is found is found in one field only. -/
theorem Regular.absent_of_split (h : Regular (before ++ f :: after))
    (hf : sameName f.name name = true) : Absent name before ∧ Absent name after := by
  obtain ⟨-, habsent, -⟩ := regular_cons.1 (regular_middle.1 h)
  have hothers : Absent name (before ++ after) := fun f' hf' ↦ by
    rw [sameName_comm, ← sameName_congr hf, sameName_comm]
    exact habsent f' hf'
  exact List.forall_mem_append.1 hothers

/-- The names differ in more than their case. -/
theorem Regular.pairwise (h : Regular fs) : fs.Pairwise fun f g ↦ sameName f.name g.name = false :=
  (List.pairwise_map.1 h.nodup).imp fun hne ↦ by simpa [sameName, key] using hne

/-- What is found is counted. -/
theorem length_le_count {values : List String} (h : find? fs name = some values) :
    values.length ≤ count fs := by
  rcases absent_or_split name fs with habsent | ⟨before, f, after, rfl, habsent, hf⟩
  · rw [find?_of_absent habsent] at h
    cases h
  · rw [find?_split habsent hf] at h
    cases h
    simp only [count_append, count]
    omega

end Field

namespace Headers

/-- The values of a name, none if the name is not there. -/
def values (h : Headers) (name : String) : List String :=
  (h.getAll? name).getD []

variable {h : Headers} {name : String} {values : List String}

/-- Headers that are built from nothing by the operations. -/
inductive Built : Headers → Prop
  | empty : Built .empty
  | insertAll {h : Headers} (built : Built h) (name : String) (values : List String) :
    Built (h.insertAll name values)
  | replace {h : Headers} (built : Built h) (name : String) (values : List String) :
    Built (h.replace name values)
  | erase {h : Headers} (built : Built h) (name : String) : Built (h.erase name)

/-- The fields are regular, and their values are counted. -/
structure Regular (h : Headers) : Prop where
  fields : Field.Regular h.fields
  size : h.size = Field.count h.fields

theorem regular_mk {fs : List Field} {n : Nat} :
    Regular ⟨fs, n⟩ ↔ Field.Regular fs ∧ n = Field.count fs :=
  ⟨fun h ↦ ⟨h.fields, h.size⟩, fun h ↦ ⟨h.1, h.2⟩⟩

theorem regular_empty : Regular .empty :=
  ⟨⟨List.nodup_nil, List.forall_mem_nil _⟩, rfl⟩

/-- To add values keeps headers regular. -/
theorem Regular.insertAll (hh : Regular h) (name : String) (values : List String) :
    Regular (h.insertAll name values) := by
  obtain ⟨fields, size⟩ := h
  obtain ⟨hfields, rfl⟩ := regular_mk.1 hh
  by_cases hvalues : values = []
  · rw [Headers.insertAll, if_pos (by simpa using hvalues)]
    exact ⟨hfields, rfl⟩
  rw [Headers.insertAll, if_neg (by simpa using hvalues)]
  rcases Field.absent_or_split name fields with habsent | ⟨before, f, after, rfl, habsent, hf⟩
  · rw [Field.append_eq_alter, Field.alter_of_absent habsent]
    exact ⟨hfields.concat habsent hvalues, by simp [Field.count]⟩
  · rw [Field.append_eq_alter, Field.alter_split habsent hf]
    refine ⟨hfields.update (by simp [hvalues]), ?_⟩
    simp only [Field.count_append, Field.count, List.length_append]
    omega

/-- To drop a name keeps headers regular. -/
theorem Regular.erase (hh : Regular h) (name : String) : Regular (h.erase name) := by
  obtain ⟨fields, size⟩ := h
  obtain ⟨hfields, rfl⟩ := regular_mk.1 hh
  rcases Field.absent_or_split name fields with habsent | ⟨before, f, after, rfl, habsent, hf⟩
  · rw [Headers.erase, getAll?, Field.find?_of_absent habsent]
    exact ⟨hfields, rfl⟩
  · rw [Headers.erase, getAll?, Field.find?_split habsent hf, Field.erase_split habsent hf]
    refine ⟨hfields.drop, ?_⟩
    simp only [Field.count_append, Field.count]
    omega

/-- To give a name other values keeps headers regular. -/
theorem Regular.replace (hh : Regular h) (name : String) (values : List String) :
    Regular (h.replace name values) := by
  by_cases hvalues : values = []
  · rw [Headers.replace, if_pos (by simpa using hvalues)]
    exact hh.erase name
  obtain ⟨fields, size⟩ := h
  obtain ⟨hfields, rfl⟩ := regular_mk.1 hh
  rw [Headers.replace, if_neg (by simpa using hvalues)]
  rcases Field.absent_or_split name fields with habsent | ⟨before, f, after, rfl, habsent, hf⟩
  · rw [getAll?, Field.find?_of_absent habsent, Field.replace_eq_alter,
      Field.alter_of_absent habsent]
    exact ⟨hfields.concat habsent hvalues, by simp [Field.count]⟩
  · rw [getAll?, Field.find?_split habsent hf, Field.replace_eq_alter,
      Field.alter_split habsent hf]
    refine ⟨hfields.update hvalues, ?_⟩
    simp only [Field.count_append, Field.count]
    omega

/-- Headers without values have no field. -/
theorem Regular.isEmpty_iff (hh : Regular h) : h.isEmpty = true ↔ h.fields = [] := by
  obtain ⟨fields, size⟩ := h
  obtain ⟨hfields, rfl⟩ := regular_mk.1 hh
  cases fields with
  | nil => exact ⟨fun _ ↦ rfl, fun _ ↦ rfl⟩
  | cons f fs =>
    have hvalues := List.length_pos_iff.2 (hfields.values_ne_nil f List.mem_cons_self)
    simp only [isEmpty, Field.count, beq_iff_eq, reduceCtorEq, iff_false]
    omega

/-- **Whatever the operations build is regular.** -/
theorem Built.regular (hh : Built h) : h.Regular := by
  induction hh with
  | empty => exact regular_empty
  | insertAll _ name values ih => exact ih.insertAll name values
  | replace _ name values ih => exact ih.replace name values
  | erase _ name ih => exact ih.erase name

/-! ### What is found of a name -/

/-- A name that is there has a value. -/
theorem Regular.ne_nil_of_getAll? (hh : Regular h) (hget : h.getAll? name = some values) :
    values ≠ [] := by
  rcases Field.absent_or_split name h.fields with habsent | ⟨before, f, after, hfs, habsent, hf⟩
  · rw [getAll?, Field.find?_of_absent habsent] at hget
    cases hget
  · rw [getAll?, hfs, Field.find?_split habsent hf] at hget
    cases hget
    exact hh.fields.values_ne_nil f (hfs ▸ List.mem_append_right before List.mem_cons_self)

/-- A name has one value more, and all others have what they had. -/
theorem getAll?_insert (h : Headers) (n v name : String) :
    (h.insert n v).getAll? name =
      if sameName n name then some (h.values name ++ [v]) else h.getAll? name := by
  have hinsert : (h.insert n v).fields = Field.append h.fields n [v] := rfl
  rw [getAll?, hinsert, Field.append_eq_alter, Field.find?_alter]
  rfl

theorem fields_replace (h : Headers) (name : String) (hvalues : values ≠ []) :
    (h.replace name values).fields = Field.replace h.fields name values := by
  rw [Headers.replace, if_neg (by simpa using hvalues)]
  cases h.getAll? name <;> rfl

theorem fields_erase (h : Headers) (name : String) :
    (h.erase name).fields = Field.erase h.fields name := by
  rcases Field.absent_or_split name h.fields with habsent | ⟨before, f, after, hfs, habsent, hf⟩
  · rw [Headers.erase, getAll?, Field.find?_of_absent habsent, Field.erase_of_absent habsent]
  · rw [Headers.erase, getAll?, hfs, Field.find?_split habsent hf]

/-- A name has its new values, and all others have what they had. -/
theorem getAll?_replace (h : Headers) (n : String) (hvalues : values ≠ []) (name : String) :
    (h.replace n values).getAll? name =
      if sameName n name then some values else h.getAll? name := by
  rw [getAll?, fields_replace h n hvalues, Field.replace_eq_alter, Field.find?_alter]
  rfl

/-! ### Line by line -/

/-- The values that some lines give a name. -/
def valuesAmong (lines : List (String × String)) (name : String) : List String :=
  (lines.filter (sameName ·.1 name)).map Prod.snd

/-- Headers after some more fields. -/
def insertList (h : Headers) (fields : List (String × String)) : Headers :=
  fields.foldl (fun h f ↦ h.insert f.1 f.2) h

/-- Lines can be added in two parts. -/
theorem insertList_append (h : Headers) (fields fields' : List (String × String)) :
    h.insertList (fields ++ fields') = (h.insertList fields).insertList fields' :=
  List.foldl_append

/-- A name has the values that it had, and then those of the lines. -/
theorem getAll?_insertList (h : Headers) (lines : List (String × String)) (name : String) :
    (h.insertList lines).getAll? name =
      if valuesAmong lines name = [] then h.getAll? name
      else some (h.values name ++ valuesAmong lines name) := by
  induction lines generalizing h with
  | nil => rfl
  | cons l lines ih =>
    have hrest : (h.insertList (l :: lines)).getAll? name =
        ((h.insert l.1 l.2).insertList lines).getAll? name := rfl
    rw [hrest, ih, Headers.values, getAll?_insert]
    cases hl : sameName l.1 name with
    | false =>
      have hskip : valuesAmong (l :: lines) name = valuesAmong lines name := by
        simp [valuesAmong, hl]
      rw [if_neg Bool.false_ne_true, hskip]
      rfl
    | true =>
      have htake : valuesAmong (l :: lines) name = l.2 :: valuesAmong lines name := by
        simp [valuesAmong, hl]
      rw [if_pos rfl, htake, if_neg (List.cons_ne_nil _ _)]
      split
      · rename_i hnil
        rw [hnil]
      · rw [Option.getD_some, List.append_assoc, List.singleton_append]

/-- A name has the values that the lines give it, and is not there if they give it none. -/
theorem getAll?_ofList (lines : List (String × String)) (name : String) :
    (ofList lines).getAll? name =
      if valuesAmong lines name = [] then none else some (valuesAmong lines name) :=
  getAll?_insertList empty lines name

/-- Values can be added to a name in two parts. -/
theorem insertAll_insertAll (h : Headers) (name : String) (values values' : List String) :
    (h.insertAll name values).insertAll name values' = h.insertAll name (values ++ values') := by
  cases values with
  | nil => rfl
  | cons v values =>
    cases values' with
    | nil => rw [List.append_nil]; rfl
    | cons v' values' =>
      simp only [insertAll, List.isEmpty_cons, List.cons_append, Bool.false_eq_true, if_false,
        Field.append_append, List.length_append, List.length_cons, mk.injEq, true_and]
      omega

/-- The lines of a field add its values. -/
theorem insertList_field (h : Headers) (f : Field) :
    h.insertList f.lines = h.insertAll f.name f.values := by
  obtain ⟨name, values⟩ := f
  induction values generalizing h with
  | nil => rfl
  | cons v values ih =>
    have hinsert : h.insertList (Field.lines ⟨name, v :: values⟩) =
        (h.insert name v).insertList (Field.lines ⟨name, values⟩) := rfl
    rw [hinsert, ih, Headers.insert, insertAll_insertAll]
    rfl

/-- The lines of fields that are new add these fields. -/
theorem insertList_flatMap_lines {fs : List Field} (hfields : Field.Regular (h.fields ++ fs)) :
    h.insertList (fs.flatMap Field.lines) = ⟨h.fields ++ fs, h.size + Field.count fs⟩ := by
  induction fs generalizing h with
  | nil => simp [insertList, Field.count]
  | cons f fs ih =>
    obtain ⟨hvalues, habsent, -⟩ := Field.regular_cons.1 (Field.regular_middle.1 hfields)
    have hbefore : Field.Absent f.name h.fields := fun g hg ↦
      habsent g (List.mem_append_left fs hg)
    have hinsert : h.insertAll f.name f.values = ⟨h.fields ++ [f], h.size + f.values.length⟩ := by
      rw [insertAll, if_neg (by simpa using hvalues), Field.append_eq_alter,
        Field.alter_of_absent hbefore, List.nil_append]
    rw [List.flatMap_cons, insertList_append, insertList_field, hinsert,
      ih (by simpa using hfields)]
    simp [Field.count, Nat.add_assoc]

/-- To add a value builds headers. -/
theorem Built.insert (hh : Built h) (name value : String) : Built (h.insert name value) :=
  hh.insertAll name [value]

/-- To add lines builds headers. -/
theorem Built.insertList (hh : Built h) (fields : List (String × String)) :
    Built (h.insertList fields) := by
  induction fields generalizing h with
  | nil => exact hh
  | cons f fields ih => exact ih (hh.insert f.1 f.2)

/-- Each line adds to the number of values. -/
theorem size_insertList (h : Headers) (fields : List (String × String)) :
    (h.insertList fields).size = h.size + fields.length := by
  induction fields generalizing h with
  | nil => rfl
  | cons f fields ih =>
    have hinsert : (h.insert f.1 f.2).size = h.size + 1 := rfl
    have hrest := ih (h.insert f.1 f.2)
    rw [hinsert] at hrest
    rw [List.length_cons, Nat.add_comm fields.length, ← Nat.add_assoc]
    exact hrest

/-- What holds of all names and values that are added holds of all fields. -/
theorem forall_fields_insertList {N : String → Prop} {V : String → String → Prop}
    (hcase : ∀ a b v, sameName a b = true → V b v → V a v) {fields : List (String × String)}
    (hh : ∀ f ∈ h.fields, N f.name ∧ ∀ v ∈ f.values, V f.name v)
    (hfields : ∀ f ∈ fields, N f.1 ∧ V f.1 f.2) :
    ∀ f ∈ (h.insertList fields).fields, N f.name ∧ ∀ v ∈ f.values, V f.name v := by
  induction fields generalizing h with
  | nil => exact hh
  | cons l fields ih =>
    obtain ⟨⟨hname, hvalue⟩, hfields⟩ := List.forall_mem_cons.1 hfields
    exact ih (Field.forall_append hcase hh hname (List.forall_mem_singleton.2 hvalue)) hfields

/-! ### `Host` first -/

/-- The headers in the order in which they are written. -/
def withHostFirst (h : Headers) : Headers :=
  ⟨h.hostFirst, h.size⟩

/-- With `Host` first, the fields are the same. -/
theorem perm_hostFirst (h : Headers) : h.hostFirst.Perm h.fields :=
  List.filter_append_perm (fun f : Field ↦ sameName f.name "Host") h.fields

theorem count_hostFirst (h : Headers) : Field.count h.hostFirst = Field.count h.fields :=
  Field.count_partition (fun f ↦ sameName f.name "Host") h.fields

theorem Regular.length_lines (hh : Regular h) : h.lines.length = h.size := by
  rw [lines, Field.length_flatMap_lines, count_hostFirst, hh.size]

/-- The lines of headers are the lines of their fields. -/
theorem perm_lines (h : Headers) : h.lines.Perm (h.fields.flatMap Field.lines) :=
  h.perm_hostFirst.flatMap_right Field.lines

/-- The lines of `Host` come first, and then those of the others in their order. -/
theorem Regular.lines_of_host (hh : Regular h) {f : Field} (hf : f ∈ h.fields)
    (hhost : sameName f.name "Host" = true) :
    h.lines = f.lines ++ (h.fields.filter (!sameName ·.name "Host")).flatMap Field.lines := by
  obtain ⟨before, after, hsplit⟩ := List.append_of_mem hf
  have hregular := hh.fields
  rw [hsplit] at hregular
  obtain ⟨hbefore, hafter⟩ := hregular.absent_of_split hhost
  have hfirst : h.fields.filter (sameName ·.name "Host") = [f] := by
    have hnone {fs : List Field} (hfs : Field.Absent "Host" fs) :
        fs.filter (sameName ·.name "Host") = [] :=
      List.filter_eq_nil_iff.2 fun g hg ↦ by simp [hfs g hg]
    rw [hsplit, List.filter_append, List.filter_cons_of_pos (by simpa using hhost),
      hnone hbefore, hnone hafter, List.nil_append]
  rw [lines, hostFirst, hfirst, List.singleton_append, List.flatMap_cons]

/-- Without `Host`, the lines are in the order of the fields. -/
theorem lines_of_absent (hhost : Field.Absent "Host" h.fields) :
    h.lines = h.fields.flatMap Field.lines := by
  have hfirst : h.fields.filter (sameName ·.name "Host") = [] :=
    List.filter_eq_nil_iff.2 fun g hg ↦ by simp [hhost g hg]
  have hrest : h.fields.filter (!sameName ·.name "Host") = h.fields :=
    List.filter_eq_self.2 fun g hg ↦ by simp [hhost g hg]
  rw [lines, hostFirst, hfirst, hrest, List.nil_append]

/-- **The lines of headers give the headers**, with `Host` first. -/
theorem Regular.insertList_lines (hh : Regular h) :
    empty.insertList h.lines = h.withHostFirst := by
  have hfields : Field.Regular (empty.fields ++ h.hostFirst) := hh.fields.perm h.perm_hostFirst
  have hsize : empty.size + h.size = h.size := Nat.zero_add h.size
  rw [lines, insertList_flatMap_lines hfields, count_hostFirst, ← hh.size, hsize]
  rfl

/-- Headers with `Host` first are written as they were before. -/
theorem toText_withHostFirst (h : Headers) : h.withHostFirst.toText = h.toText := by
  have hfirst : h.withHostFirst.hostFirst = h.hostFirst := by
    simp [withHostFirst, hostFirst]
  rw [toText, toText, lines, lines, hfirst]

/-- Names and values are the same, and those of `Host` come first. -/
theorem toList_withHostFirst (h : Headers) :
    h.withHostFirst.toList =
      h.toList.filter (sameName ·.1 "Host") ++ h.toList.filter (!sameName ·.1 "Host") := by
  simp only [withHostFirst, toList, hostFirst, List.map_append, List.filter_map,
    Function.comp_def]

/-- Whether `Host` comes first does not matter to who asks for a name. -/
theorem getAll?_withHostFirst (h : Headers) (name : String) :
    h.withHostFirst.getAll? name = h.getAll? name := by
  -- Whether a field is moved to the front is the same for all fields of one name.
  have hsame (f : Field) (hf : sameName f.name name = true) :
      sameName f.name "Host" = sameName name "Host" := sameName_congr hf "Host"
  rw [getAll?, withHostFirst, hostFirst, getAll?]
  cases hname : sameName name "Host" with
  | true =>
    rw [hname] at hsame
    have hothers : Field.Absent name (h.fields.filter (!sameName ·.name "Host")) :=
      Field.absent_filter (fun f hf ↦ by rw [hsame f hf]; rfl) h.fields
    rcases Field.absent_or_split name (h.fields.filter (sameName ·.name "Host")) with
      habsent | ⟨before, f, after, hsplit, habsent, hf⟩
    · rw [Field.find?_append_left habsent, Field.find?_of_absent hothers,
        ← Field.find?_filter hsame, Field.find?_of_absent habsent]
    · rw [← Field.find?_filter hsame h.fields, hsplit, List.append_assoc, List.cons_append,
        Field.find?_split habsent hf, Field.find?_split habsent hf]
  | false =>
    rw [hname] at hsame
    rw [Field.find?_append_left (Field.absent_filter hsame h.fields)]
    exact Field.find?_filter (fun f hf ↦ by rw [hsame f hf]; rfl) h.fields

end Headers

end HttpFraming
