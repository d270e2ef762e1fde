/-!
# Ordered dictionaries

Everything that an answer lists by name is listed in ascending order of the names,
each name once.  `Fields` are the raw entries, as they stand inside a JSON object or
a resolved response; a `Dictionary` is a list of fields that is known to ascend.

A dictionary is known by what `get?` finds in it (`Dictionary.ext_get?`).  Storing a name
again replaces its value (`get?_insert`), so that of a list of entries the last one with a
name counts (`get?_ofList`).
-/

namespace ContentApi

/-- Named values in the order in which they stand. -/
abbrev Fields (α : Type) := List (String × α)

namespace Fields

variable {α β : Type}

/-- The value of the first field with the given name. -/
def get? (name : String) : Fields α → Option α
  | [] => none
  | (key, value) :: rest => if key = name then some value else get? name rest

/-- Puts a value in front of the first greater name, replacing that of the same name. -/
def insert (name : String) (value : α) : Fields α → Fields α
  | [] => [(name, value)]
  | (key, old) :: rest =>
      if name < key then (name, value) :: (key, old) :: rest
      else if key < name then (key, old) :: insert name value rest
      else (name, value) :: rest

/-- Inserts every entry in turn, so that of equal names the last one stays. -/
def insertAll (entries : List (String × α)) (fields : Fields α) : Fields α :=
  entries.foldl (fun result entry => insert entry.1 entry.2 result) fields

/-- The names strictly ascend. -/
def Ascending (fields : Fields α) : Prop :=
  fields.Pairwise fun earlier later => earlier.1 < later.1

theorem eq_of_not_lt {left right : String}
    (notLess : ¬ left < right) (notGreater : ¬ right < left) : left = right :=
  String.le_antisymm (String.not_lt.mp notGreater) (String.not_lt.mp notLess)

/-- Looking up after storing: the stored name has the new value, the rest is kept. -/
theorem get?_insert (name wanted : String) (value : α) (fields : Fields α) :
    get? wanted (insert name value fields) =
      if name = wanted then some value else get? wanted fields := by
  induction fields with
  | nil => simp [insert, get?]
  | cons entry rest ih =>
      obtain ⟨key, old⟩ := entry
      simp only [insert]
      split
      · simp [get?]
      · split
        · rename_i notLess greater
          have different : key ≠ name := fun same =>
            String.lt_irrefl name (same ▸ greater)
          simp only [get?, ih]
          by_cases found : key = wanted
          · subst found
            simp [Ne.symm different]
          · simp [found]
        · rename_i notLess notGreater
          obtain rfl := eq_of_not_lt notLess notGreater
          by_cases found : name = wanted <;> simp [get?, found]

theorem mem_insert {name : String} {value : α} {fields : Fields α}
    {entry : String × α} (member : entry ∈ insert name value fields) :
    entry = (name, value) ∨ entry ∈ fields := by
  induction fields with
  | nil => simpa [insert] using member
  | cons head rest ih =>
      obtain ⟨key, old⟩ := head
      simp only [insert] at member
      split at member
      · simpa using member
      · split at member
        · rcases List.mem_cons.mp member with rfl | member
          · simp
          · rcases ih member with found | found <;> simp [found]
        · rcases List.mem_cons.mp member with rfl | member <;> simp [*]

/-- Storing keeps the names ascending. -/
theorem Ascending.insert {fields : Fields α} (ascending : Ascending fields)
    (name : String) (value : α) : Ascending (insert name value fields) := by
  induction fields with
  | nil => simp [Fields.insert, Ascending]
  | cons head rest ih =>
      obtain ⟨key, old⟩ := head
      obtain ⟨above, tail⟩ := List.pairwise_cons.mp ascending
      simp only [Fields.insert]
      split
      · rename_i less
        refine List.pairwise_cons.mpr ⟨?_, ascending⟩
        intro entry member
        rcases List.mem_cons.mp member with rfl | member
        · exact less
        · exact String.lt_trans less (above entry member)
      · split
        · rename_i notLess greater
          refine List.pairwise_cons.mpr ⟨?_, ih tail⟩
          intro entry member
          rcases mem_insert member with rfl | member
          · exact greater
          · exact above entry member
        · rename_i notLess notGreater
          obtain rfl := eq_of_not_lt notLess notGreater
          exact List.pairwise_cons.mpr ⟨above, tail⟩

theorem mem_of_get? {name : String} {value : α} {fields : Fields α}
    (found : get? name fields = some value) : (name, value) ∈ fields := by
  induction fields with
  | nil => simp [get?] at found
  | cons head rest ih =>
      obtain ⟨key, old⟩ := head
      simp only [get?] at found
      split at found
      · rename_i same
        subst same
        obtain rfl := Option.some.inj found
        exact List.mem_cons_self
      · exact List.mem_cons_of_mem _ (ih found)

/-- In ascending fields, looking a name up finds the one entry with that name. -/
theorem Ascending.get?_eq_some_iff {name : String} {value : α} {fields : Fields α}
    (ascending : Ascending fields) :
    get? name fields = some value ↔ (name, value) ∈ fields := by
  refine ⟨mem_of_get?, fun member => ?_⟩
  induction fields with
  | nil => simp at member
  | cons head rest ih =>
      obtain ⟨key, old⟩ := head
      obtain ⟨above, tail⟩ := List.pairwise_cons.mp ascending
      rcases List.mem_cons.mp member with same | member
      · obtain ⟨rfl, rfl⟩ := Prod.mk.inj same
        simp [get?]
      · have different : key ≠ name := fun same =>
          String.lt_irrefl name (same ▸ above (name, value) member)
        simpa [get?, different] using ih tail member

/-- Ascending fields in which the same values are found are the same. -/
theorem Ascending.ext {left right : Fields α}
    (leftAscends : Ascending left) (rightAscends : Ascending right)
    (same : ∀ name, get? name left = get? name right) : left = right := by
  have sameMembers : ∀ entry, entry ∈ left ↔ entry ∈ right := fun (name, value) => by
    rw [← leftAscends.get?_eq_some_iff, ← rightAscends.get?_eq_some_iff, same]
  clear same
  induction left generalizing right with
  | nil =>
      cases right with
      | nil => rfl
      | cons head rest => simpa using sameMembers head
  | cons leftHead leftRest ih =>
      cases right with
      | nil => simpa using sameMembers leftHead
      | cons rightHead rightRest =>
          obtain ⟨leftAbove, leftTail⟩ := List.pairwise_cons.mp leftAscends
          obtain ⟨rightAbove, rightTail⟩ := List.pairwise_cons.mp rightAscends
          have sameHead : leftHead = rightHead := by
            rcases List.mem_cons.mp
              ((sameMembers leftHead).mp List.mem_cons_self) with same | member
            · exact same
            · rcases List.mem_cons.mp
                ((sameMembers rightHead).mpr List.mem_cons_self) with same | other
              · exact same.symm
              · exact absurd
                  (String.lt_trans (leftAbove _ other) (rightAbove _ member))
                  (String.lt_irrefl _)
          subst sameHead
          congr 1
          refine ih leftTail rightTail fun entry => ⟨fun member => ?_, fun member => ?_⟩
          · rcases List.mem_cons.mp
              ((sameMembers entry).mp (List.mem_cons_of_mem _ member)) with same | found
            · subst same
              exact absurd (leftAbove _ member) (String.lt_irrefl _)
            · exact found
          · rcases List.mem_cons.mp
              ((sameMembers entry).mpr (List.mem_cons_of_mem _ member)) with same | found
            · subst same
              exact absurd (rightAbove _ member) (String.lt_irrefl _)
            · exact found

theorem get?_append (wanted : String) (front back : Fields α) :
    get? wanted (front ++ back) = (get? wanted front).or (get? wanted back) := by
  induction front with
  | nil => simp [get?]
  | cons head rest ih =>
      obtain ⟨key, value⟩ := head
      by_cases found : key = wanted <;> simp [get?, found, ih]

/-- Of the inserted entries with a name the last one is found. -/
theorem get?_insertAll (wanted : String) (entries : List (String × α))
    (fields : Fields α) :
    get? wanted (insertAll entries fields) =
      (get? wanted entries.reverse).or (get? wanted fields) := by
  induction entries generalizing fields with
  | nil => simp [insertAll, get?]
  | cons head rest ih =>
      obtain ⟨key, value⟩ := head
      have step : insertAll ((key, value) :: rest) fields =
          insertAll rest (insert key value fields) := rfl
      rw [step, ih, get?_insert, List.reverse_cons, get?_append]
      by_cases found : key = wanted <;> simp [get?, found]

theorem get?_filter (keep : String → Bool) (wanted : String) (fields : Fields α) :
    get? wanted (fields.filter fun entry => keep entry.1) =
      if keep wanted then get? wanted fields else none := by
  induction fields with
  | nil => simp [get?]
  | cons head rest ih =>
      obtain ⟨key, value⟩ := head
      by_cases found : key = wanted
      · subst found
        by_cases kept : keep key <;> simp [get?, kept, ih]
      · by_cases kept : keep key <;> simp [get?, kept, ih, found]

theorem ascending_nil : Ascending ([] : Fields α) :=
  List.Pairwise.nil

theorem Ascending.insertAll {fields : Fields α} (ascending : Ascending fields)
    (entries : List (String × α)) : Ascending (insertAll entries fields) := by
  induction entries generalizing fields with
  | nil => exact ascending
  | cons entry rest ih => exact ih (ascending.insert entry.1 entry.2)

theorem Ascending.filter {fields : Fields α} (ascending : Ascending fields)
    (keep : String × α → Bool) : Ascending (fields.filter keep) :=
  List.Pairwise.filter keep ascending

end Fields

/-- Named values in ascending order of the names, each name once. -/
structure Dictionary (α : Type) where
  /-- The entries in ascending order. -/
  fields : Fields α
  ascending : Fields.Ascending fields
deriving DecidableEq

namespace Dictionary

variable {α β : Type}

/-- No entry. -/
def empty : Dictionary α :=
  ⟨[], Fields.ascending_nil⟩

instance : EmptyCollection (Dictionary α) := ⟨empty⟩

instance : Inhabited (Dictionary α) := ⟨empty⟩

/-- The value stored under a name. -/
def get? (dictionary : Dictionary α) (name : String) : Option α :=
  Fields.get? name dictionary.fields

/-- Stores a value under a name, replacing the value it had. -/
def insert (dictionary : Dictionary α) (name : String) (value : α) : Dictionary α :=
  ⟨Fields.insert name value dictionary.fields,
    dictionary.ascending.insert name value⟩

/-- The entries of a list; of equal names the last one counts. -/
def ofList (entries : List (String × α)) : Dictionary α :=
  ⟨Fields.insertAll entries [],
    Fields.ascending_nil.insertAll entries⟩

/-- The names in ascending order. -/
def names (dictionary : Dictionary α) : List String :=
  dictionary.fields.map Prod.fst

/-- Whether a name has a value. -/
def contains (dictionary : Dictionary α) (name : String) : Bool :=
  (dictionary.get? name).isSome

/-- Whether there is no entry. -/
def isEmpty (dictionary : Dictionary α) : Bool :=
  dictionary.fields.isEmpty

/-- The entries whose name passes a test. -/
def filterNames (dictionary : Dictionary α) (keep : String → Bool) : Dictionary α :=
  ⟨dictionary.fields.filter fun entry => keep entry.1,
    dictionary.ascending.filter _⟩

/-- The names as a set. -/
def nameSet (dictionary : Dictionary α) : Dictionary Unit :=
  ⟨dictionary.fields.map fun (entry : String × α) => (entry.1, ()),
    List.Pairwise.map _ (fun _ _ less => less) dictionary.ascending⟩

@[simp]
theorem get?_empty (name : String) : (empty : Dictionary α).get? name = none :=
  rfl

theorem get?_insert (dictionary : Dictionary α) (name wanted : String) (value : α) :
    (dictionary.insert name value).get? wanted =
      if name = wanted then some value else dictionary.get? wanted :=
  Fields.get?_insert name wanted value dictionary.fields

/-- A dictionary is known by what is found in it. -/
theorem ext_get? {left right : Dictionary α}
    (same : ∀ name, left.get? name = right.get? name) : left = right := by
  obtain ⟨leftFields, leftAscends⟩ := left
  obtain ⟨rightFields, rightAscends⟩ := right
  obtain rfl : leftFields = rightFields := leftAscends.ext rightAscends same
  rfl

/-- The value of a name is that of its last entry. -/
theorem get?_ofList (entries : List (String × α)) (wanted : String) :
    (ofList entries).get? wanted = Fields.get? wanted entries.reverse := by
  simp [ofList, get?, Fields.get?_insertAll, Fields.get?]

theorem get?_filterNames (dictionary : Dictionary α) (keep : String → Bool)
    (wanted : String) :
    (dictionary.filterNames keep).get? wanted =
      if keep wanted then dictionary.get? wanted else none :=
  Fields.get?_filter keep wanted dictionary.fields

end Dictionary

/-- A set of names, listed in ascending order. -/
abbrev NameSet := Dictionary Unit

namespace NameSet

/-- The names of a list, without repetitions. -/
def ofList (names : List String) : NameSet :=
  Dictionary.ofList (names.map (·, ()))

/-- The set with one more name. -/
def add (names : NameSet) (name : String) : NameSet :=
  names.insert name ()

/-- The set of a list holds the names that are in the list. -/
theorem contains_ofList (names : List String) (wanted : String) :
    (ofList names).contains wanted = names.contains wanted := by
  have found : ∀ list : List String,
      (Fields.get? wanted (list.map (·, ()))).isSome = list.contains wanted := by
    intro list
    induction list with
    | nil => rfl
    | cons name rest ih =>
        by_cases same : name = wanted
        · simp [Fields.get?, same]
        · have unequal : (wanted == name) = false := by
            simpa using Ne.symm same
          rw [List.contains_cons, unequal, Bool.false_or, ← ih]
          simp [Fields.get?, same]
  rw [Dictionary.contains, ofList, Dictionary.get?_ofList, ← List.map_reverse, found]
  exact Bool.eq_iff_iff.mpr (by simp)

theorem contains_add (names : NameSet) (name wanted : String) :
    (names.add name).contains wanted = (decide (name = wanted) || names.contains wanted) := by
  rw [Dictionary.contains, add, Dictionary.get?_insert]
  by_cases same : name = wanted <;> simp [same, Dictionary.contains]

end NameSet

end ContentApi
