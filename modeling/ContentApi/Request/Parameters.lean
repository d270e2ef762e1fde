import ContentApi.Dictionary

/-!
# Request parameters

The query parameters of a request as they arrive: each name with all its values in the
order of the request.  Ten names are known to the service itself; all others are handed
on to the resources unchanged.  The values of a name are those of its pairs in the request
(`values_ofPairs`).
-/

namespace ContentApi

/-- Each name with its values, in the order of the request. -/
abbrev Parameters := Dictionary (List String)

namespace Parameters

/-- Adds a value behind those that a name already has. -/
def add (parameters : Parameters) (name value : String) : Parameters :=
  parameters.insert name ((parameters.get? name).getD [] ++ [value])

/-- Collects the values of each name. -/
def ofPairs (pairs : List (String × String)) : Parameters :=
  pairs.foldl (fun parameters pair => parameters.add pair.1 pair.2) .empty

/-- All values of a name. -/
def values (parameters : Parameters) (name : String) : List String :=
  (parameters.get? name).getD []

theorem values_add (parameters : Parameters) (name value wanted : String) :
    (parameters.add name value).values wanted =
      if name = wanted then parameters.values wanted ++ [value]
      else parameters.values wanted := by
  by_cases same : name = wanted
  · subst same
    simp [values, add, Dictionary.get?_insert]
  · simp [values, add, Dictionary.get?_insert, same]

/-- The values of a name are those that the request pairs with it, in its order. -/
theorem values_ofPairs (pairs : List (String × String)) (wanted : String) :
    (ofPairs pairs).values wanted =
      (pairs.filter fun pair => pair.1 == wanted).map Prod.snd := by
  have collected : ∀ start : Parameters,
      (pairs.foldl (fun parameters pair => parameters.add pair.1 pair.2) start).values wanted =
        start.values wanted ++
          (pairs.filter fun pair => pair.1 == wanted).map Prod.snd := by
    induction pairs with
    | nil => simp
    | cons pair rest ih =>
        intro start
        rw [List.foldl_cons, ih, values_add]
        by_cases same : pair.1 = wanted <;> simp [same]
  exact collected .empty

/-- The first value of a name. -/
def first? (parameters : Parameters) (name : String) : Option String :=
  (parameters.values name).head?

/-- The names of the parameters that the service reads itself. -/
def knownNames : List String :=
  ["relations", "properties", "fields", "skipCount", "maxItems", "orderBy", "where",
    "select", "include", "includeSource"]

/-- The parameters that the service does not read itself. -/
def unknown (parameters : Parameters) : Parameters :=
  parameters.filterNames fun name => !knownNames.contains name

end Parameters

end ContentApi
