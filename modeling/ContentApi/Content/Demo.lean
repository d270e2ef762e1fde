import ContentApi.Resource.Registry
import ContentApi.Store.Connection

/-!
# Demonstration content

A small set of people, sites and documents, with the resources under which they are served.
The second site is hidden from readers and the owner of the third document does not exist,
so that expanding them leaves branches out.
-/

namespace ContentApi.Demo

universe u

/-- The API under which the content is served. -/
def api : Api := ⟨"content", .everyone, 1⟩

/-- Registers the resources of the content for an API. -/
def register (registry : Registry) (api : Api) : Registry :=
  registry
    |>.addCollection api "people" [.get, .post]
    |>.addCollection api "sites" [.get]
    |>.addCollection api "documents" [.get, .put, .delete]
    |>.addRelationship api "sites" "members" [.get, .post]
    |>.addRelationship api "sites" "documents" [.get]

/-- The list of what is related to a site. -/
def ofSite (relation id : String) : LinkKey :=
  ⟨Resource.relationshipKey "sites" relation, ⟨"sites", id⟩⟩

variable {m : Type → Type u} [Monad m] (connection : Connection m)

/-- Creates a document and links it to its site. -/
def addDocument (document : Document) : ExceptT ApiError m Unit := do
  let id ← connection.create (.document document)
  connection.link (ofSite "documents" (document.site.getD "")) ⟨"documents", id⟩

/-- Makes a person a member of a site. -/
def addMember (site person : String) : ExceptT ApiError m Unit :=
  connection.link (ofSite "members" site) ⟨"people", person⟩

/-- Stores the content. -/
def seed : ExceptT ApiError m Unit := do
  let alice ← connection.create (.person ⟨"alice", "Alice", "Archer", "alice@example.com"⟩)
  let bob ← connection.create (.person ⟨"bob", "Bob", "Baker", "bob@example.com"⟩)
  let carol ← connection.create (.person ⟨"", "Carol", "Cole", "carol@example.com"⟩)
  let marketing ←
    connection.create (.site ⟨"site-1", "Marketing", .everyone, some alice⟩)
  let legal ← connection.create (.site ⟨"site-2", "Legal", .hidden, some bob⟩)
  addDocument connection
    ⟨none, "plan.txt", "text/plain", 1024, some alice, some marketing⟩
  addDocument connection
    ⟨none, "budget.xlsx", "application/vnd.ms-excel", 20480, some bob, some legal⟩
  addDocument connection
    ⟨none, "orphan.pdf", "application/pdf", 4096, some "dave", some marketing⟩
  addMember connection marketing alice
  addMember connection marketing bob
  addMember connection marketing carol
  addMember connection legal bob
  connection.deny ⟨"sites", legal⟩

end ContentApi.Demo
