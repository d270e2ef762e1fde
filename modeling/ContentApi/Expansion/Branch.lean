import ContentApi.Expansion.Node
import ContentApi.Request.Context
import ContentApi.Resource.Registry

/-!
# Branches

The entities that are embedded in an entity and the relations that are asked for are its
branches.  Each is a resource that is executed with a reduced context; what comes back is
either shown, or recorded as an omission, or nothing at all.
-/

namespace ContentApi

universe u

/-- What the execution of a resource gives: an answer, nothing, or an error. -/
abbrev Reply := Except ApiError (Option Answer)

/-- A way to execute resources. -/
abbrev Executor (m : Type → Type u) := Resource → Context → m Reply

/-- What a branch gives: a node, nothing, or the fault for which it is left out. -/
abbrev Outcome := Except BranchFault (Option Node)

/-- What is needed to expand an answer. -/
structure Expander (m : Type → Type u) where
  locator : Locator
  api : Api
  execute : Executor m

/-- A resource to be executed for one name of a response. -/
structure Branch where
  name : String
  resource : Resource
  entityId : Option String
deriving DecidableEq, Repr

namespace Branch

/-- The nodes to show; of equal names the last one counts. -/
def resolved (outcomes : List (String × Outcome)) : List (String × Node) :=
  Fields.insertAll
    (outcomes.filterMap fun (name, outcome) =>
      match outcome with
      | .ok (some node) => some (name, node)
      | _ => none)
    []

/-- The branches that failed, in the order in which they were executed. -/
def omissions (outcomes : List (String × Outcome)) : List Omission :=
  outcomes.filterMap fun (name, outcome) =>
    match outcome with
    | .error fault => some ⟨name, fault⟩
    | .ok _ => none

/-- Marks the nodes as standing inside another entity. -/
def inlined (nodes : List (String × Node)) : List (String × Node) :=
  nodes.map fun (name, node) => (name, node.inlined)

end Branch

namespace Expander

variable {m : Type → Type u}

/-- The collection of a name, if it can be read. -/
def collection? (expander : Expander m) (name : String) : Option Resource :=
  expander.locator.collection? expander.api name .get

/-- The branches for what is embedded in an entity, in the order of its embeds. -/
def embedBranches (expander : Expander m) (entity : Entity) : List Branch :=
  entity.embeds.filterMap fun embed => do
    let resource ← expander.collection? embed.collection
    let id ← embed.id
    return ⟨embed.key, resource, some id⟩

/--
The branches for the relations that a context asks for, in ascending order of name.  They
are resolved against the collection that the request addressed.
-/
def relationBranches (expander : Expander m) (collection : Option String)
    (context : Context) (entity : Entity) : List Branch :=
  match collection with
  | none => []
  | some collection =>
      if context.relations.isEmpty then []
      else
        (expander.locator.relations expander.api collection context.relations.nameSet
          .get).fields.map fun (name, resource) => ⟨name, resource, entity.id⟩

variable [Monad m]

/--
Executes a resource with the reduced context of a branch, and expands what comes back
with `deeper`.  The projection asked for under the key becomes that of the branch.
-/
def runBranch (expander : Expander m) (deeper : Context → Answer → m Node)
    (context : Context) (key : Option String) (resource : Resource)
    (entityId : Option String) : m Outcome := do
  let inner := context.branch (key.bind context.relations.get?) entityId
  match ← expander.execute resource inner with
  | .error error => return .error (.ofError error)
  | .ok none => return .ok none
  | .ok (some answer) =>
      let node ← deeper inner answer
      return .ok (some node)

/-- Runs branches one after another. -/
def runBranches (expander : Expander m) (deeper : Context → Answer → m Node)
    (context : Context) : List Branch → m (List (String × Outcome))
  | [] => return []
  | branch :: rest => do
      let outcome ←
        expander.runBranch deeper context (some branch.name) branch.resource
          branch.entityId
      let others ← expander.runBranches deeper context rest
      return (branch.name, outcome) :: others

end Expander

end ContentApi
