import ContentApi.Json.Basic

/-!
# Sites

A site is an entity of the collection `sites`.  Its manager is embedded in it; its members
and documents are relationships.
-/

namespace ContentApi

/-- Who may see a site. -/
inductive Visibility where
  | everyone
  | moderated
  | hidden
deriving DecidableEq, Repr

/-- The word for a visibility. -/
def Visibility.word : Visibility → String
  | .everyone => "PUBLIC"
  | .moderated => "MODERATED"
  | .hidden => "PRIVATE"

/-- A collaboration site. -/
structure Site where
  id : String
  title : String
  visibility : Visibility
  /-- The id of the person who manages the site. -/
  manager : Option String
deriving DecidableEq, Repr

/-- The properties of a site. -/
def Site.json (site : Site) : Json :=
  .ofEntries
    [("id", .string site.id), ("title", .string site.title),
      ("visibility", .string site.visibility.word)]

end ContentApi
