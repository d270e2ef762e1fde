import ContentApi.Answer
import ContentApi.Error
import ContentApi.Request.Projection

/-!
# Expanded answers

Expanding an answer gives a node of the response.  It has the shape of the answer, except
that an entity carries what was embedded in it, what is related to it, and what had to be
left out.
-/

namespace ContentApi

/-- A branch that was left out of a response. -/
structure Omission where
  name : String
  fault : BranchFault
deriving DecidableEq, Repr

/-- The wording of the reason for which a branch was left out. -/
def Omission.reason (omission : Omission) : String :=
  omission.fault.message

/-- Whether a branch was left out for an expected reason. -/
def Omission.isExpected (omission : Omission) : Bool :=
  omission.fault.isExpected

/-- A node of a response. -/
inductive Node where
  | scalar (value : Json)
  | sequence (items : List Answer)
  | page (info : PageInfo) (items : List Node)
  /-- An entity with its embedded and its related nodes in ascending order of name. -/
  | entity (root : Entity) (projection : Projection) (embedded related : List (String × Node))
      (isInlined : Bool) (omitted : List Omission)

instance : Inhabited Node := ⟨.scalar .null⟩

namespace Node

/-- An entity without anything embedded or related. -/
def leaf (root : Entity) (projection : Projection) : Node :=
  .entity root projection [] [] false []

/-- Marks an entity as standing inside another one. -/
def inlined : Node → Node
  | .entity root projection embedded related _ omitted =>
      .entity root projection embedded related true omitted
  | other => other

mutual

/-- An answer of which nothing is expanded; pages do not name their source. -/
def bare (projection : Projection) : Answer → Node
  | .scalar value => .scalar value
  | .sequence items => .sequence items
  | .page info items => .page { info with source := none } (bareItems projection items)
  | .entity root => leaf root projection

/-- `bare` on every item. -/
def bareItems (projection : Projection) : List Answer → List Node
  | [] => []
  | item :: rest => bare projection item :: bareItems projection rest

end

end Node

end ContentApi
