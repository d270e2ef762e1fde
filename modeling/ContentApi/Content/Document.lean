import ContentApi.Json.Basic

/-!
# Documents

A document is an entity of the collection `documents`.  Its owner and its site are
embedded in it.  It has no id until the store assigns one.
-/

namespace ContentApi

/-- A document that is kept in a site. -/
structure Document where
  id : Option String
  name : String
  mimeType : String
  sizeInBytes : Nat
  /-- The id of the person who owns the document. -/
  owner : Option String
  /-- The id of the site that the document is kept in. -/
  site : Option String
deriving DecidableEq, Repr

/-- The properties of a document; the id is shown only if there is one. -/
def Document.json (document : Document) : Json :=
  let id :=
    match document.id with
    | none => []
    | some id => [("id", .string id)]
  .ofEntries <|
    id ++
      [("name", .string document.name), ("mimeType", .string document.mimeType),
        ("sizeInBytes", .natural document.sizeInBytes)]

end ContentApi
