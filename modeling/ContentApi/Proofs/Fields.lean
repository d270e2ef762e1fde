import ContentApi.Dictionary
import Mathlib.Data.List.Forall2

/-!
# More on fields

Fields that are changed value by value keep their names, so that looking up, inserting and
ascending go along with the change.  Among entries that are still to be inserted the last
one of a name counts (`get?_reverse`).  Fields that are related value by value are looked up
side by side (`Alike.exists_values`).
-/

namespace ContentApi.Fields

variable {α β : Type}

/-- The fields with every value changed. -/
def mapValues (change : α → β) (fields : Fields α) : Fields β :=
  fields.map fun (name, value) => (name, change value)

theorem get?_mapValues (change : α → β) (wanted : String) (fields : Fields α) :
    get? wanted (mapValues change fields) = (get? wanted fields).map change := by
  induction fields with
  | nil => rfl
  | cons field rest ih =>
      rcases field with ⟨name, value⟩
      by_cases found : name = wanted
      · simp [mapValues, get?, found]
      · simpa [mapValues, get?, found] using ih

theorem mapValues_insert (change : α → β) (name : String) (value : α) (fields : Fields α) :
    mapValues change (insert name value fields) =
      insert name (change value) (mapValues change fields) := by
  induction fields with
  | nil => rfl
  | cons field rest ih =>
      rcases field with ⟨key, old⟩
      have step : mapValues change ((key, old) :: rest) =
          (key, change old) :: mapValues change rest := rfl
      rw [step, insert, insert]
      split
      · rfl
      · split
        · rw [← ih]
          rfl
        · rfl

theorem mapValues_insertAll (change : α → β) (entries fields : Fields α) :
    mapValues change (insertAll entries fields) =
      insertAll (mapValues change entries) (mapValues change fields) := by
  induction entries generalizing fields with
  | nil => rfl
  | cons entry rest ih =>
      have step : insertAll (entry :: rest) fields =
          insertAll rest (insert entry.1 entry.2 fields) := rfl
      rw [step, ih, mapValues_insert]
      rfl

theorem Ascending.mapValues {fields : Fields α} (ascending : Ascending fields)
    (change : α → β) : Ascending (mapValues change fields) :=
  List.Pairwise.map _ (fun _ _ less => less) ascending

theorem get?_eq_head? (wanted : String) (entries : List (String × α)) :
    get? wanted entries =
      ((entries.filter fun entry => entry.1 = wanted).map Prod.snd).head? := by
  induction entries with
  | nil => rfl
  | cons entry rest ih =>
      rcases entry with ⟨name, value⟩
      by_cases found : name = wanted
      · simp [get?, found]
      · simp [get?, found, ih]

/-- From the back the last entry of a name is found. -/
theorem get?_reverse (wanted : String) (entries : List (String × α)) :
    get? wanted entries.reverse =
      ((entries.filter fun entry => entry.1 = wanted).map Prod.snd).getLast? := by
  rw [get?_eq_head?, List.filter_reverse, List.map_reverse, List.head?_reverse]

theorem get?_eq_none_iff {wanted : String} {fields : Fields α} :
    get? wanted fields = none ↔ wanted ∉ fields.map Prod.fst := by
  induction fields with
  | nil => simp [get?]
  | cons field rest ih =>
      rcases field with ⟨name, value⟩
      by_cases found : name = wanted
      · simp [get?, found]
      · simp [get?, found, Ne.symm found, ih]

/-- If no later entry has its name, an entry is found from the back. -/
theorem get?_reverse_of_last {name : String} {back : List (String × α)}
    (last : name ∉ back.map Prod.fst) (front : List (String × α)) (value : α) :
    get? name (front ++ (name, value) :: back).reverse = some value := by
  have passed : get? name back.reverse = none := by
    rw [get?_eq_none_iff, List.map_reverse, List.mem_reverse]
    exact last
  have shape : (front ++ (name, value) :: back).reverse =
      back.reverse ++ (name, value) :: front.reverse := by
    simp
  rw [shape, get?_append, passed, Option.none_or]
  simp [get?]

/-! ## Fields side by side -/

/-- Fields with the same names in the same order, the values of which are related. -/
def Alike (related : α → β → Prop) (fields : Fields α) (others : Fields β) : Prop :=
  List.Forall₂ (fun field other => field.1 = other.1 ∧ related field.2 other.2) fields others

theorem Alike.get? {related : α → β → Prop} {fields : Fields α} {others : Fields β}
    (alike : Alike related fields others) (name : String) :
    Option.Rel related (Fields.get? name fields) (Fields.get? name others) := by
  induction alike with
  | nil => exact .none
  | @cons field other _ _ same _ ih =>
      rcases field with ⟨key, value⟩
      rcases other with ⟨_, body⟩
      rcases same with ⟨rfl, holds⟩
      by_cases found : key = name
      · simpa [Fields.get?, found] using Option.Rel.some holds
      · simpa [Fields.get?, found] using ih

theorem Alike.reverse {related : α → β → Prop} {fields : Fields α} {others : Fields β}
    (alike : Alike related fields others) : Alike related fields.reverse others.reverse :=
  List.forall₂_reverse_iff.mpr alike

/-- Related fields have the same names, and under each of them related values. -/
theorem Alike.exists_values [Inhabited β] {related : α → β → Prop} {fields : Fields α}
    {others : Fields β} (alike : Alike related fields others) :
    ∃ values : String → β,
      (∀ name value, Fields.get? name fields = some value → related value (values name)) ∧
      ∀ name, Fields.get? name others =
        (Fields.get? name fields).map fun _ => values name := by
  refine ⟨fun name => (Fields.get? name others).getD default, ?_, ?_⟩
  · intro name value found
    have both := alike.get? name
    rw [found] at both
    show related value ((Fields.get? name others).getD default)
    generalize Fields.get? name others = opposite at both ⊢
    cases both with
    | some holds => exact holds
  · intro name
    have both := alike.get? name
    show Fields.get? name others =
      (Fields.get? name fields).map fun _ => (Fields.get? name others).getD default
    generalize Fields.get? name others = opposite at both ⊢
    generalize Fields.get? name fields = own at both ⊢
    cases both with
    | none => rfl
    | some holds => rfl

end ContentApi.Fields
