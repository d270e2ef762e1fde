import ContentApi.Condition.Parser
import ContentApi.Request.Parameters
import ContentApi.Request.Projection
import ContentApi.Request.SortKey
import ContentApi.Request.Window

/-!
# Request contexts

A context is what a resource is executed with: the addressed entity and everything that
the known request parameters say.  A branch of a response is executed with a reduced
context, which keeps only its projection, its entity and the unknown parameters.
-/

namespace ContentApi

/-- What a resource is executed with. -/
structure Context where
  /-- The id of the addressed entity. -/
  entityId : Option String := none
  /-- The parameters that the service does not read itself. -/
  parameters : Parameters := .empty
  window : Window := {}
  /-- Which properties of the addressed entities are shown. -/
  projection : Projection := .everything
  /-- The relations to follow, each with the projection of its results. -/
  relations : Dictionary Projection := .empty
  /-- The paths of the `include` clause. -/
  included : List String := []
  /-- The paths of the `select` clause. -/
  selected : List String := []
  condition : Option Condition := none
  sorting : List SortKey := []
  /-- Whether a list names the entity that it hangs off. -/
  includeSource : Bool := false

namespace Context

/-- The paths of a clause parameter, none if it is absent. -/
def readPaths (parameter : String) : Option String → Except ApiError (List String)
  | none => .ok []
  | some clause =>
      match Path.compile clause with
      | .ok paths => .ok paths
      | .error _ => .error (.invalidSelect parameter clause)

/-- The condition of a `where` value, none if it is absent. -/
def readCondition : Option String → Except ApiError (Option Condition)
  | none => .ok none
  | some clause =>
      match Condition.compile clause with
      | .ok condition => .ok (some condition)
      | .error rejection => .error (.invalidQuery (.rejected clause rejection))

/-- Whether a value says yes, in any case. -/
def isTrue (value : String) : Bool :=
  value.toList.map Char.toLower == ['t', 'r', 'u', 'e']

/-- The window that the parameters of a request ask for. -/
def readWindow (request : Parameters) : Except ApiError Window :=
  Window.ofValues (request.first? "skipCount") (request.first? "maxItems")

/-- The context of a request for an entity; the first unusable parameter is reported. -/
def ofRequest (entityId : Option String) (request : Parameters) :
    Except ApiError Context := do
  let window ← readWindow request
  let condition ← readCondition (request.first? "where")
  let included ← readPaths "include" (request.first? "include")
  let selected ← readPaths "select" (request.first? "select")
  let fields := (request.first? "fields").or (request.first? "properties")
  return {
    entityId
    parameters := request.unknown
    window
    projection := .ofFields fields (included ++ selected)
    relations := Projection.ofRelations (request.first? "relations")
    included
    selected
    condition
    sorting := SortKey.ofOrderBy (request.first? "orderBy")
    includeSource := (request.first? "includeSource").any isTrue }

/-- The reduced context of a branch. -/
def branch (parent : Context) (projection : Option Projection)
    (entityId : Option String) : Context where
  entityId
  parameters := parent.parameters
  projection := projection.getD .everything

end Context

end ContentApi
