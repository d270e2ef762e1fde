import ContentApi.Proofs.Expansion.Places

/-!
# The contexts of branches

Of the context of a request a branch keeps the unknown parameters, and the projection that
the request asks for under the name of the branch if the branch is one of the addressed
entities.  So relations are only followed from the addressed entities, and deeper branches
show everything (`expand_branchContexts`).
-/

namespace ContentApi

/-- The projection that a context asks for at a place. -/
def Context.projectionAt (context : Context) : Place → Projection
  | [] => context.projection
  | [key] => (key.bind context.relations.get?).getD .everything
  | _ :: _ :: _ => .everything

/-- Another context keeps nothing but the unknown parameters and the projection of a place. -/
structure Context.IsReducedAt (context : Context) (place : Place) (inner : Context) :
    Prop where
  parameters : inner.parameters = context.parameters
  projection : inner.projection = context.projectionAt place
  relations : inner.relations = .empty
  window : inner.window = {}
  included : inner.included = []
  selected : inner.selected = []
  condition : inner.condition = none
  sorting : inner.sorting = []
  includeSource : inner.includeSource = false

namespace Descends

variable {frame inner : Frame} {place : Place}

/-- The context of a place is reduced, and no relations are resolved there. -/
theorem reduced (descends : Descends frame place inner) (crossed : place ≠ []) :
    frame.context.IsReducedAt place inner.context ∧ inner.collection = none := by
  induction descends with
  | here => exact absurd rfl crossed
  | @branch place middle key entityId descends ih =>
      refine ⟨?_, rfl⟩
      cases place with
      | nil =>
          rw [descends.eq_of_nil rfl]
          exact ⟨rfl, rfl, rfl, rfl, rfl, rfl, rfl, rfl, rfl⟩
      | cons first rest =>
          have above := (ih (List.cons_ne_nil first rest)).1
          refine ⟨above.parameters, ?_, rfl, rfl, rfl, rfl, rfl, rfl, rfl⟩
          have everything : frame.context.projectionAt (first :: rest ++ [key]) = .everything := by
            cases rest <;> rfl
          rw [everything]
          show (key.bind middle.context.relations.get?).getD .everything = _
          rw [above.relations]
          cases key <;> rfl

theorem projection_eq (descends : Descends frame place inner) :
    inner.context.projection = frame.context.projectionAt place := by
  cases place with
  | nil => rw [descends.eq_of_nil rfl, Context.projectionAt]
  | cons first rest => exact (descends.reduced (List.cons_ne_nil first rest)).1.projection

end Descends

namespace Expander

variable {σ : Type} {expander : Expander (StateM σ)} {maxDepth : Nat}

/-- What an entity shows comes from the frame in which it arises. -/
theorem Arises.entity {frame : Frame} {root : Entity} {projection : Projection}
    {embedded related : List (String × Node)} {isInlined : Bool} {omitted : List Omission}
    (arises : Arises expander maxDepth frame
      (.entity root projection embedded related isInlined omitted)) :
    projection = frame.context.projection ∧ isInlined = false ∧
      (frame.collection = none → related = []) := by
  obtain ⟨answer, state, visits, final, expands⟩ := arises
  cases expands with
  | exhausted => exact ⟨rfl, rfl, fun _ => rfl⟩
  | entity within runs others =>
      refine ⟨rfl, rfl, ?_⟩
      intro nowhere
      rw [nowhere] at others
      cases others
      rfl

/--
The branches of a response have reduced contexts.  Every execution is made with the unknown
parameters of the request, with the projection that the request asks for at its place, and
with nothing else but the id of its entity.  Every entity in the response shows the
projection of its place; only the addressed entities have anything related to them; and
exactly what is embedded directly is marked as standing inside another entity.
-/
theorem expand_branchContexts (expander : Expander (StateM σ)) (maxDepth : Nat)
    (collection : Option String) (context : Context) (answer : Answer) (state : σ) :
    ∃ node visits final,
      Expands expander maxDepth (.start collection context) answer state node visits final ∧
      expander.expand maxDepth collection context (some answer) state = (some node, final) ∧
      (∀ trace,
        expander.traced.expand maxDepth collection context (some answer) trace state =
          ((some node, trace ++ visits.map Visit.toCall), final)) ∧
      (∀ visit ∈ visits,
        visit.place ≠ [] ∧ context.IsReducedAt visit.place visit.context) ∧
      ∀ steps root projection embedded related isInlined omitted,
        node.at? steps =
            some (.entity root projection embedded related isInlined omitted) →
          projection = context.projectionAt (Node.crossed steps) ∧
          (Node.crossed steps ≠ [] → related = []) ∧
          (isInlined = true ↔ ∃ name, steps.getLast? = some (.embedded name)) := by
  obtain ⟨node, visits, final, expands, ran, noted⟩ :=
    exists_expands expander maxDepth collection context answer state
  refine ⟨node, visits, final, expands, ran, noted, ?_, ?_⟩
  · intro visit member
    obtain ⟨key, place, inner, resource, descends, rfl⟩ := expands.visited visit member
    have isPlace : inner.place = key :: place := descends.place_eq
    show inner.place ≠ [] ∧ context.IsReducedAt inner.place inner.context
    rw [isPlace]
    exact ⟨List.cons_ne_nil key place, (descends.reduced (List.cons_ne_nil key place)).1⟩
  · intro steps root projection embedded related isInlined omitted found
    have arises : Arises expander maxDepth (.start collection context) node :=
      ⟨answer, state, visits, final, expands⟩
    obtain ⟨inner, original, descends, arisesThere, isMarked, _⟩ := arises.at? found
    obtain ⟨wasInlined, rfl, marked⟩ := Node.mark_eq_entity isMarked.symm
    obtain ⟨rfl, rfl, unrelated⟩ := arisesThere.entity
    refine ⟨descends.projection_eq, ?_, ?_⟩
    · intro crossed
      exact unrelated (descends.reduced crossed).2
    · rw [marked]
      simp

end Expander

end ContentApi
