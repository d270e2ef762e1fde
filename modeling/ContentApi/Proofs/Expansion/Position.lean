import ContentApi.Expansion.Node

/-!
# Positions in a node

A part of a node is known by the steps that lead to it: to an item of a page, or to what is
embedded in an entity or related to it under a name.  Only steps of the second kind cross a
branch.
-/

namespace ContentApi

/--
The branches that lead to a part of a response, the outermost one first: an embedded or
related entity by its name, the source of a page without a name.
-/
abbrev Place := List (Option String)

namespace Node

/-- A step from a node to a part of it. -/
inductive Step where
  | item (index : Nat)
  | embedded (name : String)
  | related (name : String)
deriving DecidableEq, Repr

/-- The part of a node that a step leads to. -/
def child? (node : Node) (step : Step) : Option Node :=
  match node, step with
  | .page _ items, .item index => items[index]?
  | .entity _ _ embedded _ _ _, .embedded name => Fields.get? name embedded
  | .entity _ _ _ related _ _, .related name => Fields.get? name related
  | _, _ => none

/-- The part of a node that some steps lead to. -/
def at? (node : Node) (steps : List Step) : Option Node :=
  steps.foldlM child? node

/-- The branch that a step crosses, if it crosses one. -/
def Step.crossed? : Step → Option (Option String)
  | .item _ => none
  | .embedded name => some (some name)
  | .related name => some (some name)

/-- The branches that some steps cross, the outermost one first. -/
def crossed (steps : List Step) : Place :=
  steps.filterMap Step.crossed?

theorem at?_nil (node : Node) : node.at? [] = some node :=
  rfl

theorem at?_cons (node : Node) (step : Step) (rest : List Step) :
    node.at? (step :: rest) = (node.child? step).bind (·.at? rest) :=
  List.foldlM_cons

/-- A part of a part is reached by one step more. -/
theorem at?_of_child? {node child part : Node} {step : Step} {rest : List Step}
    (found : node.child? step = some child) (foundThere : child.at? rest = some part) :
    node.at? (step :: rest) = some part := by
  rw [at?_cons, found]
  exact foundThere

theorem at?_concat (node : Node) (steps : List Step) (last : Step) :
    node.at? (steps ++ [last]) = (node.at? steps).bind (·.child? last) := by
  simp [at?, List.foldlM_append]

theorem crossed_cons (step : Step) (rest : List Step) :
    crossed (step :: rest) = step.crossed?.toList ++ crossed rest := by
  cases step <;> rfl

theorem crossed_concat (steps : List Step) (last : Step) :
    crossed (steps ++ [last]) = crossed steps ++ last.crossed?.toList := by
  rw [crossed, List.filterMap_append, ← crossed]
  cases last <;> rfl

/-- Marking an entity as embedded leaves its parts as they are. -/
theorem child?_inlined (node : Node) (step : Step) :
    node.inlined.child? step = node.child? step := by
  cases node <;> cases step <;> rfl

/-- A node as it stands behind a step: what is embedded is marked. -/
def Step.mark : Step → Node → Node
  | .embedded _, node => node.inlined
  | _, node => node

/-- A node as it stands behind some steps, of which the last one counts. -/
def mark (steps : List Step) (node : Node) : Node :=
  (steps.getLast?.map (·.mark node)).getD node

theorem mark_concat (steps : List Step) (last : Step) (node : Node) :
    mark (steps ++ [last]) node = last.mark node := by
  simp [mark]

theorem child?_mark (steps : List Step) (node : Node) (step : Step) :
    (mark steps node).child? step = node.child? step := by
  unfold mark
  cases steps.getLast? with
  | none => rfl
  | some last =>
      cases last with
      | item index => rfl
      | embedded name => exact node.child?_inlined step
      | related name => rfl

/-- An entity was one before it was marked, and it is marked if it is embedded. -/
theorem mark_eq_entity {steps : List Step} {node : Node} {root : Entity}
    {projection : Projection} {embedded related : List (String × Node)} {isInlined : Bool}
    {omitted : List Omission}
    (marked : mark steps node = .entity root projection embedded related isInlined omitted) :
    ∃ wasInlined,
      node = .entity root projection embedded related wasInlined omitted ∧
      (isInlined = true ↔
        wasInlined = true ∨ ∃ name, steps.getLast? = some (.embedded name)) := by
  unfold mark at marked
  cases last : steps.getLast? with
  | none =>
      rw [last] at marked
      exact ⟨isInlined, marked, by simp⟩
  | some step =>
      rw [last] at marked
      cases step with
      | item index => exact ⟨isInlined, marked, by simp⟩
      | related name => exact ⟨isInlined, marked, by simp⟩
      | embedded name =>
          cases node with
          | entity before shown inside beside wasInlined left =>
              cases marked
              exact ⟨wasInlined, rfl, by simp⟩
          | scalar value => cases marked
          | sequence items => cases marked
          | page info items => cases marked

end Node

end ContentApi
