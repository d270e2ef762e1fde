import ContentApi.Proofs.Request.Reading
import Mathlib.Data.List.Induction

/-!
# Known and unknown parameters

A request is known by the values that it has for each name, in their order
(`Parameters.ofPairs_eq`).  Reading it takes the first values of the known names, and hands on
all values of the others without looking at them (`Context.ofRequest_eq_map`).  So the known
parameters and the others do not interfere: what is read, and whether and why it is refused,
depends on nothing but the first values of the known names (`Context.ofRequest_separates`).
-/

namespace ContentApi

/-! ## Values by name -/

/-- The values that some pairs have for a name, in their order. -/
def valuesFor (pairs : List (String × String)) (name : String) : List String :=
  (pairs.filter fun pair => pair.1 == name).map Prod.snd

variable {pairs others : List (String × String)} {name : String}

theorem valuesFor_append (front back : List (String × String)) (name : String) :
    valuesFor (front ++ back) name = valuesFor front name ++ valuesFor back name := by
  rw [valuesFor, List.filter_append, List.map_append, ← valuesFor, ← valuesFor]

theorem valuesFor_singleton (pair : String × String) (name : String) :
    valuesFor [pair] name = if pair.1 = name then [pair.2] else [] := by
  by_cases same : pair.1 = name <;> simp [valuesFor, same]

theorem valuesFor_eq_nil_iff : valuesFor pairs name = [] ↔ name ∉ pairs.map Prod.fst := by
  rw [valuesFor, List.map_eq_nil_iff, List.filter_eq_nil_iff, List.mem_map, not_exists]
  simp

theorem valuesFor_filter (keep : String → Bool) (kept : keep name) :
    valuesFor (pairs.filter fun pair => keep pair.1) name = valuesFor pairs name := by
  rw [valuesFor, List.filter_filter, valuesFor]
  congr 1
  apply List.filter_congr
  intro pair _
  by_cases same : pair.1 = name
  · simp [same, kept]
  · simp [same]

namespace Parameters

theorem get?_ofPairs (pairs : List (String × String)) (name : String) :
    (ofPairs pairs).get? name =
      if valuesFor pairs name = [] then none else some (valuesFor pairs name) := by
  induction pairs using List.reverseRecOn with
  | nil => rfl
  | append_singleton pairs pair ih =>
      have added : ofPairs (pairs ++ [pair]) = (ofPairs pairs).add pair.1 pair.2 := by
        rw [ofPairs, List.foldl_append, ← ofPairs]
        rfl
      rw [added, add, Dictionary.get?_insert, valuesFor_append, valuesFor_singleton]
      by_cases same : pair.1 = name
      · subst same
        have values : ((ofPairs pairs).get? pair.1).getD [] = valuesFor pairs pair.1 :=
          values_ofPairs pairs pair.1
        simp [values]
      · simp [same, ih]

theorem ofPairs_eq (same : ∀ name, valuesFor others name = valuesFor pairs name) :
    ofPairs others = ofPairs pairs := by
  apply Dictionary.ext_get?
  intro name
  rw [get?_ofPairs, get?_ofPairs, same name]

theorem first?_ofPairs (pairs : List (String × String)) (name : String) :
    (ofPairs pairs).first? name = (valuesFor pairs name).head? := by
  rw [first?, values_ofPairs, valuesFor]

theorem get?_unknown_ofPairs (pairs : List (String × String)) (name : String) :
    (ofPairs pairs).unknown.get? name =
      if name ∈ pairs.map Prod.fst ∧ name ∉ knownNames then some (valuesFor pairs name)
      else none := by
  rw [unknown, Dictionary.get?_filterNames, get?_ofPairs]
  by_cases known : name ∈ knownNames
  · simp [known]
  · by_cases present : name ∈ pairs.map Prod.fst
    · have nonempty : valuesFor pairs name ≠ [] := mt valuesFor_eq_nil_iff.mp (not_not.mpr present)
      simp [known, present, nonempty]
    · have nothing : valuesFor pairs name = [] := valuesFor_eq_nil_iff.mpr present
      simp [known, present, nothing]

/-- Which parameters are handed on depends only on the pairs with unknown names. -/
theorem unknown_ofPairs_eq
    (same : ∀ name, name ∉ knownNames → valuesFor others name = valuesFor pairs name) :
    (ofPairs others).unknown = (ofPairs pairs).unknown := by
  apply Dictionary.ext_get?
  intro name
  rw [unknown, unknown, Dictionary.get?_filterNames, Dictionary.get?_filterNames]
  by_cases known : name ∈ knownNames
  · simp [known]
  · rw [get?_ofPairs, get?_ofPairs, same name known]

end Parameters

/-! ## Reading a request -/

namespace Context

def withParameters (context : Context) (parameters : Parameters) : Context :=
  { context with parameters }

variable {entityId : Option String} {request other : Parameters}

/-- Beside the unknown parameters only the first values of the known ones are read. -/
theorem ofRequest_eq_map
    (same : ∀ name ∈ Parameters.knownNames, other.first? name = request.first? name) :
    ofRequest entityId other =
      (ofRequest entityId request).map (·.withParameters other.unknown) := by
  have window : readWindow other = readWindow request := by
    rw [readWindow, readWindow, same "skipCount" (by decide), same "maxItems" (by decide)]
  unfold ofRequest
  -- Both sides now read the same values, and fail at the same step if they fail.
  rw [window, same "where" (by decide), same "include" (by decide), same "select" (by decide),
    same "fields" (by decide), same "properties" (by decide), same "relations" (by decide),
    same "orderBy" (by decide), same "includeSource" (by decide)]
  cases readWindow request with
  | error error => rfl
  | ok window =>
      cases readCondition (request.first? "where") with
      | error error => rfl
      | ok condition =>
          cases readPaths "include" (request.first? "include") with
          | error error => rfl
          | ok included =>
              cases readPaths "select" (request.first? "select") with
              | error error => rfl
              | ok selected => rfl

theorem ofRequest_congr
    (same : ∀ name ∈ Parameters.knownNames, other.first? name = request.first? name)
    (sameUnknown : other.unknown = request.unknown) :
    ofRequest entityId other = ofRequest entityId request := by
  rw [ofRequest_eq_map same, sameUnknown]
  exact (ofRequest_eq_map fun _ _ => rfl).symm

theorem parameters_ofRequest {context : Context}
    (read : ofRequest entityId request = .ok context) : context.parameters = request.unknown :=
  (readFrom read).parameters

/-- How reading the parameters of a request depends on its pairs. -/
structure Separates (entityId : Option String) (pairs : List (String × String)) : Prop where
  /-- Only the order of the values of the same name matters. -/
  reordered : ∀ others, others.Perm pairs →
    (∀ name, valuesFor others name = valuesFor pairs name) →
    ofRequest entityId (.ofPairs others) = ofRequest entityId (.ofPairs pairs)
  /-- The unknown parameters are handed on with all their values. -/
  parameters : ∀ context, ofRequest entityId (.ofPairs pairs) = .ok context → ∀ name,
    context.parameters.get? name =
      if name ∈ pairs.map Prod.fst ∧ name ∉ Parameters.knownNames then
        some (valuesFor pairs name)
      else none
  /-- Everything else depends on the first values of the known names. -/
  firstValues : ∀ others,
    (∀ name ∈ Parameters.knownNames,
      (valuesFor others name).head? = (valuesFor pairs name).head?) →
    ofRequest entityId (.ofPairs others) =
      (ofRequest entityId (.ofPairs pairs)).map
        (·.withParameters (Parameters.ofPairs others).unknown)
  /-- So a change of unknown parameters changes nothing but these. -/
  unknown : ∀ others,
    (others.filter fun pair => Parameters.knownNames.contains pair.1) =
      (pairs.filter fun pair => Parameters.knownNames.contains pair.1) →
    ofRequest entityId (.ofPairs others) =
      (ofRequest entityId (.ofPairs pairs)).map
        (·.withParameters (Parameters.ofPairs others).unknown)
  /-- Later values of the known names do not matter at all. -/
  laterValues : ∀ others,
    (∀ name ∈ Parameters.knownNames,
      (valuesFor others name).head? = (valuesFor pairs name).head?) →
    (∀ name, name ∉ Parameters.knownNames → valuesFor others name = valuesFor pairs name) →
    ofRequest entityId (.ofPairs others) = ofRequest entityId (.ofPairs pairs)

/--
Known and unknown parameters do not interfere.  A request is read in the same way if its pairs
are reordered without reordering the values of any name.  All values of the unknown names are
handed on; and beside these, what is read or the error that is reported depends only on the
first value of each known name.
-/
theorem ofRequest_separates (entityId : Option String) (pairs : List (String × String)) :
    Separates entityId pairs := by
  have firstValues : ∀ others,
      (∀ name ∈ Parameters.knownNames,
        (valuesFor others name).head? = (valuesFor pairs name).head?) →
      ∀ name ∈ Parameters.knownNames,
        (Parameters.ofPairs others).first? name = (Parameters.ofPairs pairs).first? name := by
    intro others same name known
    rw [Parameters.first?_ofPairs, Parameters.first?_ofPairs, same name known]
  constructor
  case reordered =>
    intro others _ same
    rw [Parameters.ofPairs_eq same]
  case parameters =>
    intro context read name
    rw [parameters_ofRequest read, Parameters.get?_unknown_ofPairs]
  case firstValues =>
    intro others same
    exact ofRequest_eq_map (firstValues others same)
  case unknown =>
    intro others same
    apply ofRequest_eq_map (firstValues others _)
    intro name known
    have isKnown : Parameters.knownNames.contains name := by simpa using known
    rw [← valuesFor_filter _ isKnown, same, valuesFor_filter _ isKnown]
  case laterValues =>
    intro others same sameUnknown
    exact ofRequest_congr (firstValues others same) (Parameters.unknown_ofPairs_eq sameUnknown)

end Context

end ContentApi
