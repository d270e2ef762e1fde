/-!
# Resources

An API publishes resources: collections of entities, which are read by id, and
relationships that hang off the entities of a collection.  A resource supports some of
the HTTP methods.
-/

namespace ContentApi

/-- Who may see an API. -/
inductive Scope where
  | everyone
  | internal
deriving DecidableEq, Repr

/-- One version of an API. -/
structure Api where
  name : String
  scope : Scope
  version : Nat
deriving DecidableEq, Repr

/-- The path under which an API is served. -/
def Api.path (api : Api) : String :=
  let scope :=
    match api.scope with
    | .everyone => "public"
    | .internal => "private"
  api.name ++ "/" ++ scope ++ "/versions/" ++ toString api.version

/-- An HTTP method. -/
inductive Method where
  | get
  | post
  | put
  | delete
deriving DecidableEq, Repr

/-- All methods in the order in which they are listed. -/
def Method.all : List Method := [.get, .post, .put, .delete]

/-- What a resource addresses. -/
inductive ResourceKind where
  /-- The entities of a collection, by id. -/
  | entities
  /-- The entities that are linked to an entity of a collection. -/
  | relationship (collection : String)
deriving DecidableEq, Repr

/-- A resource with the methods that it supports, in the order of `Method.all`. -/
structure Resource where
  key : String
  kind : ResourceKind
  methods : List Method
deriving DecidableEq, Repr

namespace Resource

/-- Methods in the order of `Method.all`, each once. -/
def ordered (methods : List Method) : List Method :=
  Method.all.filter (methods.contains ·)

/-- A collection of entities, whose key is its name. -/
def ofCollection (name : String) (methods : List Method) : Resource where
  key := name
  kind := .entities
  methods := ordered methods

/-- The key of a relationship of a collection. -/
def relationshipKey (collection relation : String) : String :=
  collection ++ "/" ++ relation

/-- A relationship of a collection. -/
def ofRelationship (collection relation : String) (methods : List Method) : Resource where
  key := relationshipKey collection relation
  kind := .relationship collection
  methods := ordered methods

/-- Whether a resource supports a method. -/
def supports (resource : Resource) (method : Method) : Bool :=
  resource.methods.contains method

end Resource

end ContentApi
