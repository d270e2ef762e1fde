import ContentApi.Expansion.Branch
import ContentApi.Store.Basic

/-!
# Connections to a store

A connection has requests answered, in whatever way; the operations of a client are
sequences of requests over a connection.  `Store.connection` answers from a store that is
carried along, and `Connection.closed` stands for a store that has gone.
-/

namespace ContentApi

universe u

/-- A way to have the requests to a store answered. -/
structure Connection (m : Type → Type u) where
  ask : {ρ : Type} → Store.Request ρ → ExceptT ApiError m ρ

/-- Answers requests from the state of a store. -/
def Store.connection : Connection (StateM Store) where
  ask request := ExceptT.mk fun store => store.handle request

namespace Connection

variable {m : Type → Type u} [Monad m]

/-- Refuses every request, because the store has gone. -/
def closed : Connection m where
  ask _ := throw .storeClosed

variable (connection : Connection m)

/-- Stores an entity under its own id, in place of what was stored there. -/
def put (entity : Entity) : ExceptT ApiError m Unit :=
  match entity.id with
  | none => throw (.invalidArgument (.missingId entity.collection))
  | some id => connection.ask (.put ⟨entity.collection, id⟩ entity)

/--
Stores an entity and gives its id.  If it has none, an id is generated and given to the
entity as far as it can be given one.
-/
def create (entity : Entity) : ExceptT ApiError m String :=
  match entity.id with
  | some id => do
      connection.put entity
      return id
  | none => do
      let id ← connection.ask (.nextId entity.collection)
      connection.put (entity.assignId id)
      return id

/-- Reads an entity. -/
def fetch (target : EntityRef) : ExceptT ApiError m Entity :=
  connection.ask (.get target)

/-- Links an entity to a parent; both have to be stored. -/
def link (key : LinkKey) (target : EntityRef) : ExceptT ApiError m Unit :=
  connection.ask (.link key target)

/-- Removes a link and tells whether there was one. -/
def unlink (key : LinkKey) (target : EntityRef) : ExceptT ApiError m Bool :=
  connection.ask (.unlink key target)

/-- Hides an entity from all readers from now on. -/
def deny (target : EntityRef) : ExceptT ApiError m Unit :=
  connection.ask (.deny target)

/-- Lists a window of the entities that are linked to a parent. -/
def list (key : LinkKey) (window : Window) : ExceptT ApiError m Listing :=
  connection.ask (.list key window)

/--
Executes a resource for the entity of a context: a collection by reading the entity, a
relationship by listing what is linked to it.
-/
def execute : Executor m := fun resource context => ExceptT.run <|
  match context.entityId with
  | none => throw (.invalidArgument (.idNeeded resource.key))
  | some id =>
      match resource.kind with
      | .entities => do
          let entity ← connection.fetch ⟨resource.key, id⟩
          return some (.entity entity)
      | .relationship collection => do
          let listing ← connection.list ⟨resource.key, ⟨collection, id⟩⟩ context.window
          return some listing.answer

end Connection

end ContentApi
