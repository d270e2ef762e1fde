import ContentApi.Proofs.Expansion.Outcomes
import ContentApi.Proofs.Expansion.Position
import ContentApi.Expansion.Walk

/-!
# Truncated nodes

A node is truncated at a level by emptying the entities that lie behind so many branches
(`truncate`).  All parts above stay where they are (`at?_truncate`), the pages with what is
known about them (`page_truncate`), and a node without entities at the level stays as it is
(`truncate_eq_self`).
-/

namespace ContentApi

namespace Node

mutual

/-- A node whose entities behind so many branches have nothing embedded, related or omitted. -/
def truncate : Nat → Node → Node
  | _, .scalar value => .scalar value
  | _, .sequence items => .sequence items
  | levels, .page info items => .page info (truncateItems levels items)
  | 0, .entity root projection _ _ isInlined _ =>
      .entity root projection [] [] isInlined []
  | levels + 1, .entity root projection embedded related isInlined omitted =>
      .entity root projection (truncateFields levels embedded)
        (truncateFields levels related) isInlined omitted

/-- `truncate` on every node. -/
def truncateItems : Nat → List Node → List Node
  | _, [] => []
  | levels, node :: rest => truncate levels node :: truncateItems levels rest

/-- `truncate` under every name. -/
def truncateFields : Nat → List (String × Node) → List (String × Node)
  | _, [] => []
  | levels, (name, node) :: rest => (name, truncate levels node) :: truncateFields levels rest

end

theorem truncateItems_eq_map (levels : Nat) (nodes : List Node) :
    truncateItems levels nodes = nodes.map (truncate levels) := by
  induction nodes with
  | nil => rfl
  | cons node rest ih => rw [truncateItems, ih, List.map_cons]

theorem truncateFields_eq_mapValues (levels : Nat) (fields : Fields Node) :
    truncateFields levels fields = Fields.mapValues (truncate levels) fields := by
  induction fields with
  | nil => rfl
  | cons field rest ih =>
      rcases field with ⟨name, node⟩
      rw [truncateFields, ih]
      rfl

theorem truncate_inlined (levels : Nat) (node : Node) :
    node.inlined.truncate levels = (node.truncate levels).inlined := by
  cases node <;> cases levels <;> rfl

theorem truncate_leaf (levels : Nat) (root : Entity) (projection : Projection) :
    (leaf root projection).truncate levels = leaf root projection := by
  cases levels <;> rfl

/-! ## Positions -/

/-- A step leads to the truncated part, with fewer levels if it crosses a branch. -/
theorem child?_truncate (levels : Nat) (node : Node) (step : Step) :
    (node.truncate (levels + step.crossed?.toList.length)).child? step =
      (node.child? step).map (truncate levels) := by
  cases step with
  | item index =>
      show (node.truncate levels).child? (.item index) = _
      cases node with
      | scalar value => cases levels <;> rfl
      | sequence items => cases levels <;> rfl
      | page info items =>
          rw [truncate, child?, child?, truncateItems_eq_map, List.getElem?_map]
      | entity root projection embedded related isInlined omitted => cases levels <;> rfl
  | embedded name =>
      show (node.truncate (levels + 1)).child? (.embedded name) = _
      cases node with
      | scalar value => rfl
      | sequence items => rfl
      | page info items => rfl
      | entity root projection embedded related isInlined omitted =>
          rw [truncate, child?, child?, truncateFields_eq_mapValues, Fields.get?_mapValues]
  | related name =>
      show (node.truncate (levels + 1)).child? (.related name) = _
      cases node with
      | scalar value => rfl
      | sequence items => rfl
      | page info items => rfl
      | entity root projection embedded related isInlined omitted =>
          rw [truncate, child?, child?, truncateFields_eq_mapValues, Fields.get?_mapValues]

/-- Some steps lead to the truncated part, with fewer levels by the branches they cross. -/
theorem at?_truncate (levels : Nat) (node : Node) (steps : List Step) :
    (node.truncate (levels + (crossed steps).length)).at? steps =
      (node.at? steps).map (truncate levels) := by
  induction steps generalizing node with
  | nil => rfl
  | cons step rest ih =>
      have regroup : levels + (crossed (step :: rest)).length =
          levels + (crossed rest).length + step.crossed?.toList.length := by
        rw [crossed_cons, List.length_append]
        omega
      rw [at?_cons, at?_cons, regroup, child?_truncate]
      cases node.child? step with
      | none => rfl
      | some child => exact ih child

/-- What is known about a page beside its items, if a node is one. -/
def pageInfo? : Node → Option PageInfo
  | .page info _ => some info
  | _ => none

theorem pageInfo?_truncate (levels : Nat) (node : Node) :
    (node.truncate levels).pageInfo? = node.pageInfo? := by
  cases node <;> cases levels <;> rfl

/-- The pages within the levels stay where they are. -/
theorem page_truncate {levels : Nat} (node : Node) (steps : List Step)
    (within : (crossed steps).length ≤ levels) :
    ((node.truncate levels).at? steps).bind pageInfo? = (node.at? steps).bind pageInfo? := by
  obtain ⟨fewer, rfl⟩ := Nat.exists_eq_add_of_le' within
  rw [at?_truncate]
  cases node.at? steps with
  | none => rfl
  | some part => exact pageInfo?_truncate _ part

/-! ## Nodes that stay as they are -/

/-- No entity lies behind exactly so many branches. -/
def EndsAbove (levels : Nat) (node : Node) : Prop :=
  ∀ steps root projection embedded related isInlined omitted,
    node.at? steps = some (.entity root projection embedded related isInlined omitted) →
      (crossed steps).length ≠ levels

/-- What is embedded in an entity or related to it stands in ascending order of name. -/
def IsOrdered (node : Node) : Prop :=
  ∀ steps root projection embedded related isInlined omitted,
    node.at? steps = some (.entity root projection embedded related isInlined omitted) →
      Fields.Ascending embedded ∧ Fields.Ascending related

/-- Truncation at a level keeps the entities there. -/
theorem EndsAbove.of_truncate {levels : Nat} {node : Node}
    (endsAbove : EndsAbove levels (node.truncate levels)) : EndsAbove levels node := by
  intro steps root projection embedded related isInlined omitted found isLevel
  have emptied :
      (node.truncate (0 + (crossed steps).length)).at? steps =
        some (.entity root projection [] [] isInlined []) := by
    rw [at?_truncate, found]
    rfl
  rw [Nat.zero_add, isLevel] at emptied
  exact endsAbove _ _ _ _ _ _ _ emptied isLevel

theorem endsAbove_child {levels : Nat} {node child : Node} {step : Step}
    (found : node.child? step = some child)
    (endsAbove : EndsAbove (levels + step.crossed?.toList.length) node) :
    EndsAbove levels child := by
  intro steps root projection embedded related isInlined omitted foundThere
  have differs := endsAbove _ _ _ _ _ _ _ (at?_of_child? found foundThere)
  rw [crossed_cons, List.length_append] at differs
  omega

theorem IsOrdered.child {node child : Node} {step : Step} (isOrdered : IsOrdered node)
    (found : node.child? step = some child) : IsOrdered child := by
  intro steps root projection embedded related isInlined omitted foundThere
  exact isOrdered _ _ _ _ _ _ _ (at?_of_child? found foundThere)

mutual

/-- A node without entities at a level is not changed by being truncated there. -/
theorem truncate_eq_self :
    ∀ (levels : Nat) (node : Node), EndsAbove levels node → IsOrdered node →
      node.truncate levels = node
  | _, .scalar value, _, _ => rfl
  | _, .sequence items, _, _ => rfl
  | levels, .page info items, endsAbove, isOrdered => by
      rw [truncate, truncateItems_eq_self levels items]
      intro node member
      obtain ⟨index, found⟩ := List.mem_iff_getElem?.mp member
      have isChild : (Node.page info items).child? (.item index) = some node := found
      exact ⟨endsAbove_child isChild endsAbove, isOrdered.child isChild⟩
  | 0, .entity root projection embedded related isInlined omitted, endsAbove, _ =>
      absurd rfl (endsAbove [] _ _ _ _ _ _ rfl)
  | levels + 1, .entity root projection embedded related isInlined omitted, endsAbove,
      isOrdered => by
      obtain ⟨embeddedAscend, relatedAscend⟩ := isOrdered [] _ _ _ _ _ _ rfl
      rw [truncate, truncateFields_eq_self levels embedded, truncateFields_eq_self levels related]
      · intro field member
        have isChild :
            (Node.entity root projection embedded related isInlined omitted).child?
              (.related field.1) = some field.2 :=
          relatedAscend.get?_eq_some_iff.mpr member
        exact ⟨endsAbove_child isChild endsAbove, isOrdered.child isChild⟩
      · intro field member
        have isChild :
            (Node.entity root projection embedded related isInlined omitted).child?
              (.embedded field.1) = some field.2 :=
          embeddedAscend.get?_eq_some_iff.mpr member
        exact ⟨endsAbove_child isChild endsAbove, isOrdered.child isChild⟩

theorem truncateItems_eq_self :
    ∀ (levels : Nat) (nodes : List Node),
      (∀ node ∈ nodes, EndsAbove levels node ∧ IsOrdered node) →
        truncateItems levels nodes = nodes
  | _, [], _ => rfl
  | levels, node :: rest, each => by
      obtain ⟨endsAbove, isOrdered⟩ := each node List.mem_cons_self
      rw [truncateItems, truncate_eq_self levels node endsAbove isOrdered,
        truncateItems_eq_self levels rest fun other member =>
          each other (List.mem_cons_of_mem _ member)]

theorem truncateFields_eq_self :
    ∀ (levels : Nat) (fields : List (String × Node)),
      (∀ field ∈ fields, EndsAbove levels field.2 ∧ IsOrdered field.2) →
        truncateFields levels fields = fields
  | _, [], _ => rfl
  | levels, (name, node) :: rest, each => by
      obtain ⟨endsAbove, isOrdered⟩ := each (name, node) List.mem_cons_self
      rw [truncateFields, truncate_eq_self levels node endsAbove isOrdered,
        truncateFields_eq_self levels rest fun other member =>
          each other (List.mem_cons_of_mem _ member)]

end

end Node

end ContentApi
