import ContentApi.Expansion.Branch

/-!
# The walk over an answer

An answer is expanded from the outside to the inside.  Values and sequences stay as they
are, the items of a page are expanded in order, and an entity gets its branches, as long as
the limit on nested branches is not reached.  What a branch gives is expanded in the same
way, one level further down, so the walk is bounded by the number of levels left.
-/

namespace ContentApi.Expander

universe u

variable {m : Type → Type u} [Monad m]

/-- An entity with all its branches run. -/
def expandEntity (expander : Expander m) (deeper : Context → Answer → m Node)
    (collection : Option String) (context : Context) (entity : Entity) : m Node := do
  let embedded ← expander.runBranches deeper context (expander.embedBranches entity)
  let related ←
    expander.runBranches deeper context
      (expander.relationBranches collection context entity)
  return .entity entity context.projection
    (Branch.inlined (Branch.resolved embedded)) (Branch.resolved related) false
    (Branch.omissions embedded ++ Branch.omissions related)

/-- The entity that a branch gave, if it gave one. -/
def sourceRoot? : Outcome → Option Entity
  | .ok (some (.entity root _ _ _ _ _)) => some root
  | _ => none

/--
The entity that a page names as its source, if the context asks for one.  A source that the
page knows already is preferred to the addressed entity.
-/
def pageSource (expander : Expander m) (deeper : Context → Answer → m Node)
    (collection : Option String) (context : Context) (info : PageInfo) :
    m (Option Entity) :=
  if context.includeSource then
    match info.source with
    | some source => return some source
    | none =>
        match collection.bind expander.collection? with
        | none => return none
        | some resource => do
            let outcome ←
              expander.runBranch deeper context none resource context.entityId
            return sourceRoot? outcome
  else return none

mutual

/--
Expands an answer, with `deeper` for what its branches give.  The branches of an entity
are run only if `follow` is set; the source of a page is looked up in any case.
-/
def walk (expander : Expander m) (deeper : Context → Answer → m Node) (follow : Bool)
    (collection : Option String) (context : Context) : Answer → m Node
  | .scalar value => return .scalar value
  | .sequence items => return .sequence items
  | .page info items => do
      let source ← expander.pageSource deeper collection context info
      let nodes ← walkItems expander deeper follow collection context items
      return .page { info with source } nodes
  | .entity root =>
      if follow then expander.expandEntity deeper collection context root
      else return .leaf root context.projection

/-- Expands answers one after another. -/
def walkItems (expander : Expander m) (deeper : Context → Answer → m Node) (follow : Bool)
    (collection : Option String) (context : Context) : List Answer → m (List Node)
  | [] => return []
  | item :: rest => do
      let node ← walk expander deeper follow collection context item
      let nodes ← walkItems expander deeper follow collection context rest
      return node :: nodes

end

/--
Expands an answer with so many levels of branches.  Below the last level only the source of
a page can still be executed, and what it gives is not expanded.
-/
def expandWithin (expander : Expander m) :
    Nat → Option String → Context → Answer → m Node
  | 0, collection, context, answer =>
      expander.walk (fun inner below => return .bare inner.projection below) false
        collection context answer
  | levels + 1, collection, context, answer =>
      expander.walk (fun inner below => expander.expandWithin levels none inner below) true
        collection context answer

/-- Expands the reply of a resource of a collection, if there is an answer in it. -/
def expand (expander : Expander m) (maxDepth : Nat) (collection : Option String)
    (context : Context) : Option Answer → m (Option Node)
  | none => return none
  | some answer => some <$> expander.expandWithin maxDepth collection context answer

end ContentApi.Expander
