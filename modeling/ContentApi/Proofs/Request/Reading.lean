import ContentApi.Request.Context

/-!
# What a request is read as

The context of a request takes each of its parts from the values of one or two parameters.  The
steps that can fail have succeeded once there is a context, and `ReadFrom` says what each step
has given.
-/

namespace ContentApi

/-- A step that succeeds is followed by the next one. -/
theorem ok_of_bind {α β : Type} {first : Except ApiError α} {next : α → Except ApiError β}
    {result : β} (succeeds : first >>= next = .ok result) :
    ∃ value, first = .ok value ∧ next value = .ok result := by
  cases first with
  | error error => cases succeeds
  | ok value => exact ⟨value, rfl, succeeds⟩

namespace Context

/-- The value that lists the names of the projection: `fields` goes before `properties`. -/
def fieldsOf (request : Parameters) : Option String :=
  (request.first? "fields").or (request.first? "properties")

/-- A context holds what the parameters of a request say. -/
structure ReadFrom (entityId : Option String) (request : Parameters) (context : Context) :
    Prop where
  addressed : context.entityId = entityId
  parameters : context.parameters = request.unknown
  window : readWindow request = .ok context.window
  projection : context.projection =
    .ofFields (fieldsOf request) (context.included ++ context.selected)
  relations : context.relations = Projection.ofRelations (request.first? "relations")
  included : readPaths "include" (request.first? "include") = .ok context.included
  selected : readPaths "select" (request.first? "select") = .ok context.selected
  condition : readCondition (request.first? "where") = .ok context.condition
  sorting : context.sorting = SortKey.ofOrderBy (request.first? "orderBy")
  includeSource : context.includeSource = (request.first? "includeSource").any isTrue

theorem readFrom {entityId : Option String} {request : Parameters} {context : Context}
    (read : ofRequest entityId request = .ok context) : ReadFrom entityId request context := by
  unfold ofRequest at read
  rcases ok_of_bind read with ⟨window, readsWindow, read⟩
  rcases ok_of_bind read with ⟨condition, readsCondition, read⟩
  rcases ok_of_bind read with ⟨included, readsIncluded, read⟩
  rcases ok_of_bind read with ⟨selected, readsSelected, read⟩
  cases read
  exact ⟨rfl, rfl, readsWindow, rfl, rfl, readsIncluded, readsSelected, readsCondition, rfl, rfl⟩

end Context

end ContentApi
