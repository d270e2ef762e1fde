import ContentApi.Answer
import ContentApi.Error
import ContentApi.Table

/-!
# The content store

The store keeps entities by collection and id, lists of linked entities by relationship and
parent, the entities that are hidden from all readers, and a counter for the ids that it
generates.  It answers one request after another; `Store.handle` gives the reply and the
state behind it.  Every request has its own type of reply.
-/

namespace ContentApi

/-- The address of an entity. -/
structure EntityRef where
  collection : String
  id : String
deriving DecidableEq, Repr

/-- The path of an address. -/
def EntityRef.path (ref : EntityRef) : String :=
  ref.collection ++ "/" ++ ref.id

/-- The list of entities that are linked to a parent by a relationship. -/
structure LinkKey where
  relationship : String
  parent : EntityRef
deriving DecidableEq, Repr

/-- A window of a list of linked entities. -/
structure Listing where
  info : PageInfo
  items : List Entity

/-- A listing as an answer. -/
def Listing.answer (listing : Listing) : Answer :=
  .page listing.info (listing.items.map .entity)

/-- The state of a store. -/
structure Store where
  entities : Table EntityRef Entity := .empty
  /-- The linked entities in the order in which they were linked, each once. -/
  links : Table LinkKey (List EntityRef) := .empty
  /-- The entities that no reader may see. -/
  denied : List EntityRef := []
  /-- How many ids were generated for a collection. -/
  counters : Table String UInt64 := .empty
  /-- How many items a listing shows at most. -/
  maxPageSize : Nat

namespace Store

/-- A request to a store, with the type of its reply. -/
inductive Request : Type → Type where
  /-- Reserves a new id in a collection. -/
  | nextId (collection : String) : Request String
  | put (target : EntityRef) (entity : Entity) : Request Unit
  | get (target : EntityRef) : Request Entity
  /-- Appends an entity to those linked to a parent. -/
  | link (key : LinkKey) (target : EntityRef) : Request Unit
  /-- Removes an entity from those linked to a parent, and tells whether it was one. -/
  | unlink (key : LinkKey) (target : EntityRef) : Request Bool
  /-- Hides an entity from all readers. -/
  | deny (target : EntityRef) : Request Unit
  | list (key : LinkKey) (window : Window) : Request Listing

/-- Whether an entity is stored. -/
def isStored (store : Store) (target : EntityRef) : Bool :=
  store.entities.contains target

/-- The entities that are linked to a parent. -/
def linked (store : Store) (key : LinkKey) : List EntityRef :=
  (store.links.get? key).getD []

/-- The number of ids that were generated for a collection. -/
def counter (store : Store) (collection : String) : UInt64 :=
  (store.counters.get? collection).getD 0

/-- The id that is generated with a number. -/
def generatedId (collection : String) (number : UInt64) : String :=
  collection ++ "-" ++ toString number.toNat

/-- The entity at an address, unless it is missing or hidden. -/
def read (store : Store) (target : EntityRef) : Except ApiError Entity :=
  match store.entities.get? target with
  | none => .error (.notFound target.path)
  | some entity =>
      if store.denied.contains target then .error (.permissionDenied target.path)
      else .ok entity

/-- The entity at an address, if readers may see it. -/
def readable? (store : Store) (target : EntityRef) : Option Entity :=
  (store.read target).toOption

/-- The linked entities that readers may see. -/
def visibleLinks (store : Store) (key : LinkKey) : List Entity :=
  (store.linked key).filterMap store.readable?

/-- A window of the linked entities that readers may see. -/
def listing (store : Store) (key : LinkKey) (window : Window) : Listing :=
  let visible := store.visibleLinks key
  let items := window.cut store.maxPageSize visible
  { info :=
      { window
        hasMore := window.skip + items.length < visible.length
        total := some visible.length
        source := none }
    items }

/-- The store with an entity linked to a parent, if it is not linked already. -/
def addLink (store : Store) (key : LinkKey) (target : EntityRef) : Store :=
  if (store.linked key).contains target then store
  else { store with links := store.links.set key (store.linked key ++ [target]) }

/-- The store without a link. -/
def removeLink (store : Store) (key : LinkKey) (target : EntityRef) : Store :=
  { store with links := store.links.set key ((store.linked key).filter (· ≠ target)) }

/-- Answers a request, and gives the state of the store behind it. -/
def handle {ρ : Type} (store : Store) : Request ρ → Except ApiError ρ × Store
  | .nextId collection =>
      let number := store.counter collection + 1
      (.ok (generatedId collection number),
        { store with counters := store.counters.set collection number })
  | .put target entity =>
      (.ok (), { store with entities := store.entities.set target entity })
  | .get target => (store.read target, store)
  | .link key target =>
      if !store.isStored key.parent then (.error (.notFound key.parent.path), store)
      else if !store.isStored target then (.error (.notFound target.path), store)
      else (.ok (), store.addLink key target)
  | .unlink key target =>
      if (store.linked key).contains target then (.ok true, store.removeLink key target)
      else (.ok false, store)
  | .deny target => (.ok (), { store with denied := target :: store.denied })
  | .list key window =>
      match store.read key.parent with
      | .error error => (.error error, store)
      | .ok _ => (.ok (store.listing key window), store)

end Store

end ContentApi
