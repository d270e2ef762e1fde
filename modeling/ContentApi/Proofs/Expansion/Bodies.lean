import ContentApi.Expansion.Render
import ContentApi.Proofs.Expansion.Correspondence
import ContentApi.Proofs.Expansion.Outcomes

/-!
# What a body does not tell

Nodes record which branches were left out and why, but no body shows it: a node without its
omissions has the same body (`render_withoutOmissions`).  So replies may be taken as alike
if they hold the same answer, whatever error stands in place of a missing one, and the walk
keeps that likeness (`Likeness.body`).
-/

namespace ContentApi

namespace Node

mutual

/-- A node in which no branch is recorded as left out. -/
def withoutOmissions : Node → Node
  | .scalar value => .scalar value
  | .sequence items => .sequence items
  | .page info items => .page info (itemsWithoutOmissions items)
  | .entity root projection embedded related isInlined _ =>
      .entity root projection (fieldsWithoutOmissions embedded)
        (fieldsWithoutOmissions related) isInlined []

/-- `withoutOmissions` on every node. -/
def itemsWithoutOmissions : List Node → List Node
  | [] => []
  | node :: rest => withoutOmissions node :: itemsWithoutOmissions rest

/-- `withoutOmissions` under every name. -/
def fieldsWithoutOmissions : List (String × Node) → List (String × Node)
  | [] => []
  | (name, node) :: rest => (name, withoutOmissions node) :: fieldsWithoutOmissions rest

end

theorem itemsWithoutOmissions_eq_map (nodes : List Node) :
    itemsWithoutOmissions nodes = nodes.map withoutOmissions := by
  induction nodes with
  | nil => rfl
  | cons node rest ih => rw [itemsWithoutOmissions, ih, List.map_cons]

theorem fieldsWithoutOmissions_eq_mapValues (fields : Fields Node) :
    fieldsWithoutOmissions fields = Fields.mapValues withoutOmissions fields := by
  induction fields with
  | nil => rfl
  | cons field rest ih =>
      rcases field with ⟨name, node⟩
      rw [fieldsWithoutOmissions, ih]
      rfl

theorem withoutOmissions_inlined (node : Node) :
    node.inlined.withoutOmissions = node.withoutOmissions.inlined := by
  cases node <;> rfl

/-! ## Rendering -/

mutual

/-- The body of a node does not depend on its omissions. -/
theorem render_withoutOmissions : ∀ node : Node, node.withoutOmissions.render = node.render
  | .scalar value => rfl
  | .sequence items => rfl
  | .page info items => by
      rw [withoutOmissions, render, render, renderItems_withoutOmissions items]
  | .entity root projection embedded related isInlined omitted => by
      rw [withoutOmissions, render, render, renderShown_withoutOmissions projection embedded,
        renderFields_withoutOmissions related]

theorem renderItems_withoutOmissions :
    ∀ nodes : List Node, renderItems (itemsWithoutOmissions nodes) = renderItems nodes
  | [] => rfl
  | node :: rest => by
      rw [itemsWithoutOmissions, renderItems, renderItems, render_withoutOmissions node,
        renderItems_withoutOmissions rest]

theorem renderShown_withoutOmissions (projection : Projection) :
    ∀ fields : List (String × Node),
      renderShown projection (fieldsWithoutOmissions fields) = renderShown projection fields
  | [] => rfl
  | (name, node) :: rest => by
      rw [fieldsWithoutOmissions, renderShown, renderShown, render_withoutOmissions node,
        renderShown_withoutOmissions projection rest]

theorem renderFields_withoutOmissions :
    ∀ fields : List (String × Node),
      renderFields (fieldsWithoutOmissions fields) = renderFields fields
  | [] => rfl
  | (name, node) :: rest => by
      rw [fieldsWithoutOmissions, renderFields, renderFields, render_withoutOmissions node,
        renderFields_withoutOmissions rest]

end

end Node

/-! ## Outcomes -/

/-- The node that an outcome shows, if there is one. -/
def Outcome.shown? : Outcome → Option Node
  | .ok node => node
  | .error _ => none

/-- The node that an outcome shows, without its omissions. -/
def Outcome.body? (outcome : Outcome) : Option Node :=
  (Outcome.shown? outcome).map Node.withoutOmissions

theorem body?_silent (reply : Reply) : Outcome.body? reply.silent = none := by
  cases reply <;> rfl

/-- Whether an outcome is an entity can be told from its body. -/
theorem sourceRoot?_eq (outcome : Outcome) :
    Expander.sourceRoot? outcome =
      Expander.sourceRoot? (.ok (Outcome.body? outcome)) := by
  cases outcome with
  | error fault => rfl
  | ok node =>
      cases node with
      | none => rfl
      | some node => cases node <;> rfl

namespace Branch

/-- What is shown under the names depends only on the bodies of the outcomes. -/
theorem resolved_withoutOmissions (outcomes : List (String × Outcome)) :
    Fields.mapValues Node.withoutOmissions (resolved outcomes) =
      Fields.insertAll
        (outcomes.filterMap fun entry => (Outcome.body? entry.2).map (entry.1, ·)) [] := by
  rw [resolved, Fields.mapValues_insertAll, Fields.mapValues, List.map_filterMap]
  congr 2
  funext entry
  rcases entry with ⟨name, outcome⟩
  cases outcome with
  | error fault => rfl
  | ok node =>
      cases node with
      | none => rfl
      | some node => rfl

/-- Outcomes with the same names and bodies show the same. -/
theorem resolved_alike {outcomes others : List (String × Outcome)}
    (alike : List.Forall₂
      (SameName fun one other => Outcome.body? one = Outcome.body? other) outcomes others) :
    Fields.mapValues Node.withoutOmissions (resolved outcomes) =
      Fields.mapValues Node.withoutOmissions (resolved others) := by
  rw [resolved_withoutOmissions, resolved_withoutOmissions]
  congr 1
  induction alike with
  | nil => rfl
  | @cons one other _ _ same _ ih =>
      rcases one with ⟨name, outcome⟩
      rcases other with ⟨key, counterpart⟩
      rcases same with ⟨sameName, sameBody⟩
      dsimp only at sameName sameBody
      simp only [List.filterMap_cons, ih, sameName, sameBody]

end Branch

/-- Having the same body, as a likeness: only the answers in the replies count. -/
def Likeness.body : Likeness where
  reply first second := first.answer? = second.answer?
  outcome first second := Outcome.body? first = Outcome.body? second
  node first second := first.withoutOmissions = second.withoutOmissions
  answered := by
    intro first second equal
    exact equal
  silent := by
    intro first second _ _
    rw [body?_silent, body?_silent]
  shown := by
    intro first second equal
    show some _ = some _
    rw [equal]
  sourceRoot := by
    intro first second equal
    rw [sourceRoot?_eq, equal, ← sourceRoot?_eq]
  same _ := rfl
  page := by
    intro info items others alike
    have sameItems :
        List.Forall₂ Eq (items.map Node.withoutOmissions)
          (others.map Node.withoutOmissions) := by
      rw [List.forall₂_map_left_iff, List.forall₂_map_right_iff]
      exact alike
    rw [List.forall₂_eq_eq_eq] at sameItems
    rw [Node.withoutOmissions, Node.withoutOmissions, Node.itemsWithoutOmissions_eq_map,
      Node.itemsWithoutOmissions_eq_map, sameItems]
  entity := by
    intro root projection embedded related others counterparts sameEmbedded sameRelated
    simp only [Node.withoutOmissions, Node.fieldsWithoutOmissions_eq_mapValues,
      Branch.inlined_mapValues Node.withoutOmissions_inlined]
    rw [Branch.resolved_alike sameEmbedded, Branch.resolved_alike sameRelated]

/-- Nodes that agree but for their omissions are rendered to the same body. -/
theorem render_eq_of_alike {node other : Node} (alike : Likeness.body.node node other) :
    node.render = other.render := by
  rw [← node.render_withoutOmissions, ← other.render_withoutOmissions, alike]

end ContentApi
