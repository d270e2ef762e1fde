import ContentApi.Expansion.Node

/-!
# Rendering responses

The JSON body of a response: an entity stands under `entry`, with its related nodes beside
it under `relations`; an entity inside another one is inlined under its key; a page stands
under `list` with its paging data, its entries and its source.  Properties and embedded keys
are pruned by the projection of the entity.  Rendering fails with the error of the first
entity that is visible and cannot be shown.
-/

namespace ContentApi

namespace Answer

mutual

/-- An answer that is passed on unexpanded; a page is reduced to its items. -/
def raw : Answer → Except Json.WriteError Json
  | .scalar value => return value
  | .sequence items => return .array (← rawItems items)
  | .page _ items => return .array (← rawItems items)
  | .entity root => root.json

/-- The answers of a sequence that is passed on. -/
def rawItems : List Answer → Except Json.WriteError (List Json)
  | [] => return []
  | item :: rest => return (← raw item) :: (← rawItems rest)

end

end Answer

namespace PageInfo

/-- The paging data of a page with so many items. -/
def pagination (info : PageInfo) (count : Nat) : Json :=
  let total :=
    match info.total with
    | none => []
    | some total => [("totalItems", .natural total)]
  .ofEntries <|
    total ++
      [("count", .natural count), ("hasMoreItems", .boolean info.hasMore),
        ("skipCount", .natural info.window.skip), ("maxItems", .natural info.window.limit)]

/-- The source of a page as a field, if there is one. -/
def sourceField (info : PageInfo) : Except Json.WriteError (List (String × Json)) :=
  match info.source with
  | none => return []
  | some source => return [("source", ← source.json)]

end PageInfo

namespace Node

/-- The properties that are shown, with the embedded values that are shown among them. -/
def mergeShown (shown : Json) (embedded : List (String × Json)) : Json :=
  match shown with
  | .object fields => .object (Fields.insertAll embedded fields)
  | other => other

/-- An entity with its relations beside it, if there are any. -/
def entry (entity : Json) (relations : List (String × Json)) : Json :=
  if relations.isEmpty then .ofEntries [("entry", entity)]
  else .ofEntries [("entry", entity), ("relations", .ofEntries relations)]

/-- A page with its entries and possibly its source. -/
def list (info : PageInfo) (entries : List Json) (source : List (String × Json)) : Json :=
  .ofEntries
    [("list",
      .ofEntries <|
        [("pagination", info.pagination entries.length), ("entries", .array entries)] ++
          source)]

mutual

/-- The JSON of a node. -/
def render : Node → Except Json.WriteError Json
  | .scalar value => return value
  | .sequence items => return .array (← Answer.rawItems items)
  | .page info items => do
      let entries ← renderItems items
      let source ← info.sourceField
      return list info entries source
  | .entity root projection embedded related isInlined _ => do
      let shown := projection.apply (← root.json)
      let entity ←
        match shown with
        | .object _ => mergeShown shown <$> renderShown projection embedded
        | other => pure other
      if isInlined then return entity
      return entry entity (← renderFields related)

/-- The JSON of the items of a page. -/
def renderItems : List Node → Except Json.WriteError (List Json)
  | [] => return []
  | item :: rest => return (← render item) :: (← renderItems rest)

/-- The JSON of the embedded nodes that a projection shows. -/
def renderShown (projection : Projection) :
    List (String × Node) → Except Json.WriteError (List (String × Json))
  | [] => return []
  | (name, node) :: rest =>
      if projection.allows name then do
        let value ← render node
        let others ← renderShown projection rest
        return (name, value) :: others
      else renderShown projection rest

/-- The JSON of named nodes. -/
def renderFields : List (String × Node) → Except Json.WriteError (List (String × Json))
  | [] => return []
  | (name, node) :: rest => return (name, ← render node) :: (← renderFields rest)

end

end Node

end ContentApi
