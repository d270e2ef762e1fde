import ContentApi.Dictionary
import ContentApi.Resource.Basic
import ContentApi.Table

/-!
# Registries

A `Locator` finds resources by name.  A `Registry` is a locator that resources are
registered with; registering a name again replaces the resource.
-/

namespace ContentApi

/-- A way to find resources by name. -/
structure Locator where
  /-- The resource of a collection, if it exists and supports the method. -/
  collection? : Api → String → Method → Option Resource
  /-- The relations of a collection, of those named, that exist and support the method. -/
  relations : Api → String → NameSet → Method → Dictionary Resource

/-- The resources registered for each API. -/
structure Registry where
  /-- By API and collection. -/
  collections : Table (Api × String) Resource := .empty
  /-- By API, collection and relation. -/
  relationships : Table (Api × String × String) Resource := .empty

namespace Registry

/-- Registers a collection. -/
def addCollection (registry : Registry) (api : Api) (name : String)
    (methods : List Method) : Registry :=
  { registry with
    collections := registry.collections.set (api, name) (.ofCollection name methods) }

/-- Registers a relationship of a collection. -/
def addRelationship (registry : Registry) (api : Api) (collection relation : String)
    (methods : List Method) : Registry :=
  { registry with
    relationships :=
      registry.relationships.set (api, collection, relation)
        (.ofRelationship collection relation methods) }

/-- The resource of a collection, if it is registered and supports the method. -/
def collection? (registry : Registry) (api : Api) (name : String) (method : Method) :
    Option Resource :=
  (registry.collections.get? (api, name)).filter (·.supports method)

/-- The resource of a relation, if it is registered and supports the method. -/
def relation? (registry : Registry) (api : Api) (collection relation : String)
    (method : Method) : Option Resource :=
  (registry.relationships.get? (api, collection, relation)).filter (·.supports method)

/-- The named relations of a collection that are registered and support the method. -/
def relations (registry : Registry) (api : Api) (collection : String) (names : NameSet)
    (method : Method) : Dictionary Resource :=
  .ofList <| names.names.filterMap fun name =>
    (registry.relation? api collection name method).map (name, ·)

/-- A registry as a locator. -/
def locator (registry : Registry) : Locator where
  collection? := registry.collection?
  relations := registry.relations

end Registry

end ContentApi
