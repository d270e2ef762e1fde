import ContentApi.Expansion.Branch

/-!
# Rehearsals

A rehearsal executes resources from a list of expectations, so that an expansion can be
tried out without a store.  An expectation is met by the resource and the id of the entity,
not by its place in the list; the first one that fits is used up.  An execution that nobody
expects breaks the rehearsal off.
-/

namespace ContentApi

universe u

/-- Executions that are expected, and the reply to them. -/
structure Expectation where
  resource : String
  /-- The id of the entity, or nothing if any will do. -/
  entityId : Option String
  reply : Reply
  /-- How many more executions are expected. -/
  remaining : Nat

/-- Whether an execution is expected. -/
def Expectation.fits (expectation : Expectation) (resource : String)
    (entityId : Option String) : Bool :=
  expectation.resource == resource &&
    (expectation.entityId.isNone || expectation.entityId == entityId)

/-- An execution that nobody expected. -/
structure Unexpected where
  resource : String
  entityId : Option String
deriving DecidableEq, Repr

/-- The wording for an execution that nobody expected. -/
def Unexpected.message (unexpected : Unexpected) : String :=
  "Unexpected execution of " ++ unexpected.resource ++ " for " ++
    Text.quotedOption unexpected.entityId

/-- The expectations that are not used up, in the order of their registration. -/
structure Rehearsal where
  pending : List Expectation := []

namespace Rehearsal

/-- What a canned error is reported as: only its kind or its wording is kept. -/
def canned : ApiError → ApiError
  | .notFound what => .notFound what
  | .permissionDenied what => .permissionDenied what
  | .internal text => .internal text
  | other => .internal other.message

/-- Registers an expectation, unless it expects no execution at all. -/
def expect (rehearsal : Rehearsal) (resource : String) (entityId : Option String)
    (times : Nat) (reply : Reply) : Rehearsal :=
  if times = 0 then rehearsal
  else ⟨rehearsal.pending ++ [⟨resource, entityId, reply.mapError canned, times⟩]⟩

/-- Uses the first expectation that fits once. -/
def consume (resource : String) (entityId : Option String) :
    List Expectation → Option (Reply × List Expectation)
  | [] => none
  | expectation :: rest =>
      if expectation.fits resource entityId then
        let used := { expectation with remaining := expectation.remaining - 1 }
        some (expectation.reply, if used.remaining = 0 then rest else used :: rest)
      else
        (consume resource entityId rest).map fun (reply, rest) =>
          (reply, expectation :: rest)

/-- Executes a resource: the reply of the first expectation that fits. -/
def execute {m : Type → Type u} [Monad m] [MonadStateOf Rehearsal m]
    [MonadExceptOf Unexpected m] : Executor m := fun resource context => do
  match consume resource.key context.entityId (← getThe Rehearsal).pending with
  | none => throw (⟨resource.key, context.entityId⟩ : Unexpected)
  | some (reply, pending) =>
      set (⟨pending⟩ : Rehearsal)
      return reply

/-- The wording for an expectation that was not met. -/
def describe (expectation : Expectation) : String :=
  expectation.resource ++ " " ++ Text.quotedOption expectation.entityId ++ " x" ++
    toString expectation.remaining

/-- The wording for the expectations that were not met, if there are any. -/
def unmet? (rehearsal : Rehearsal) : Option String :=
  if rehearsal.pending.isEmpty then none
  else
    some ("Not all expectations were met: " ++
      ", ".intercalate (rehearsal.pending.map describe))

end Rehearsal

end ContentApi
