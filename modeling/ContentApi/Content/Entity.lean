import ContentApi.Content.Document
import ContentApi.Content.Person
import ContentApi.Content.Site
import ContentApi.Json.WriteError

/-!
# Entities

An entity belongs to a collection, has an id or not yet, names the entities that are
embedded in it, and shows its properties as JSON.  Beside people, sites and documents
there are records, which are known only by these four things.
-/

namespace ContentApi

/-- An entity that is embedded in another one. -/
structure Embed where
  /-- The name under which it is shown. -/
  key : String
  /-- The collection that it belongs to. -/
  collection : String
  /-- Its id, or nothing if there is no such entity. -/
  id : Option String
deriving DecidableEq, Repr

/-- An entity that is known only by what it shows. -/
structure Record where
  collection : String
  id : Option String
  embeds : List Embed
  /-- The properties, or the error in showing them. -/
  json : Except Json.WriteError Json

/-- An entity. -/
inductive Entity where
  | person (value : Person)
  | site (value : Site)
  | document (value : Document)
  | record (value : Record)

namespace Entity

/-- The collection that an entity belongs to. -/
def collection : Entity → String
  | .person _ => "people"
  | .site _ => "sites"
  | .document _ => "documents"
  | .record value => value.collection

/-- The id of an entity, if it has one. -/
def id : Entity → Option String
  | .person value => if value.id.isEmpty then none else some value.id
  | .site value => some value.id
  | .document value => value.id
  | .record value => value.id

/-- What is embedded in an entity, in the order in which it is resolved. -/
def embeds : Entity → List Embed
  | .person _ => []
  | .site value => [⟨"manager", "people", value.manager⟩]
  | .document value =>
      [⟨"owner", "people", value.owner⟩, ⟨"site", "sites", value.site⟩]
  | .record value => value.embeds

/-- The properties of an entity, or the error in showing them. -/
def json : Entity → Except Json.WriteError Json
  | .person value => .ok value.json
  | .site value => .ok value.json
  | .document value => .ok value.json
  | .record value => value.json

/-- The entity with another id; sites and records cannot be given one and are kept. -/
def assignId (entity : Entity) (id : String) : Entity :=
  match entity with
  | .person value => .person { value with id }
  | .document value => .document { value with id := some id }
  | other => other

end Entity

end ContentApi
