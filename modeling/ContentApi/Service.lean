import ContentApi.Content.Demo
import ContentApi.Expansion.Render
import ContentApi.Expansion.Walk
import ContentApi.Settings

/-!
# The service

The service answers requests for an entity, or for a relation of an entity: it reads the
parameters, finds the resource, executes it over a connection to a store, expands what comes
back and renders it.  Errors of these steps are reported, except that a failing branch only
leaves that branch out.
-/

namespace ContentApi

universe u

/-- What the service needs to answer requests. -/
structure Service where
  settings : Settings
  api : Api
  locator : Locator

namespace Service

/-- The service for the demonstration content. -/
def ofSettings (settings : Settings) : Service where
  settings := settings
  api := Demo.api
  locator := (Demo.register {} Demo.api).locator

/-- The service, unless its store cannot have that many requests waiting. -/
def start? (settings : Settings) : Option Service :=
  if Settings.isUsableCapacity settings.channelCapacity then some (ofSettings settings)
  else none

/-- The store that a service starts with. -/
def initialStore (service : Service) : Store where
  maxPageSize := service.settings.maxPageSize

/-- The resource of a collection, or of a relation of a collection. -/
def locate (service : Service) (collection : String) (relation : Option String) :
    Except ApiError Resource :=
  let located :=
    match relation with
    | none => service.locator.collection? service.api collection .get
    | some name =>
        (service.locator.relations service.api collection (.ofList [name]) .get).get? name
  let path :=
    match relation with
    | none => collection
    | some name => Resource.relationshipKey collection name
  match located with
  | some resource => .ok resource
  | none => .error (.notFound ("No resource for " ++ path))

/-- The body for an expanded answer; there is none if the resource had no answer. -/
def body : Option Node → Except ApiError Json
  | none => .ok .null
  | some node => node.render.mapError fun error => .internal error.message

variable {m : Type → Type u} [Monad m]

/-- What the service expands answers with. -/
def expander (service : Service) (connection : Connection m) : Expander m where
  locator := service.locator
  api := service.api
  execute := connection.execute

/-- The body of a response to a request for an entity or for one of its relations. -/
def get (service : Service) (connection : Connection m) (collection id : String)
    (relation : Option String) (parameters : Parameters) : ExceptT ApiError m Json := do
  let context ← ExceptT.mk (pure (Context.ofRequest (some id) parameters))
  let resource ← ExceptT.mk (pure (service.locate collection relation))
  let answer ← ExceptT.mk (connection.execute resource context)
  let node ←
    ExceptT.lift <|
      (service.expander connection).expand service.settings.maxDepth (some collection)
        context answer
  ExceptT.mk (pure (body node))

end Service

end ContentApi
