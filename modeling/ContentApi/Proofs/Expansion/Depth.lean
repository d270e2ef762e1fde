import ContentApi.Proofs.Expansion.Places

/-!
# How deep a response is

Expanding an answer ends whatever its executions give, be it entities that embed each other
forever, because every branch is one level deeper and the levels are limited.  No part of
the response lies deeper than the limit, the entities at the limit have no branches, and
without levels nothing is executed at all (`expand_ends`).
-/

namespace ContentApi.Expander

variable {σ : Type} {expander : Expander (StateM σ)} {maxDepth : Nat}

/-- An entity at the limit has neither branches nor omissions. -/
theorem Arises.exhausted {frame : Frame} {root : Entity} {projection : Projection}
    {embedded related : List (String × Node)} {isInlined : Bool} {omitted : List Omission}
    (arises : Arises expander maxDepth frame
      (.entity root projection embedded related isInlined omitted))
    (limited : maxDepth ≤ frame.depth) : embedded = [] ∧ related = [] ∧ omitted = [] := by
  obtain ⟨answer, state, visits, final, expands⟩ := arises
  cases expands with
  | exhausted => exact ⟨rfl, rfl, rfl⟩
  | entity within => omega

/-- Within the limit all derivations for an answer agree. -/
theorem Expands.unique {frame : Frame} {answer : Answer} {state final last : σ}
    {node other : Node} {visits calls : List Visit}
    (first : Expands expander maxDepth frame answer state node visits final)
    (second : Expands expander maxDepth frame answer state other calls last)
    (within : frame.depth ≤ maxDepth) :
    other = node ∧ calls.map Visit.toCall = visits.map Visit.toCall ∧ last = final := by
  have left : frame.depth + (maxDepth - frame.depth) = maxDepth := by omega
  have same : ((other, [] ++ calls.map Visit.toCall), last) =
      ((node, [] ++ visits.map Visit.toCall), final) :=
    (second.noted left []).symm.trans (first.noted left [])
  obtain ⟨pairs, rfl⟩ := Prod.mk.inj same
  obtain ⟨rfl, sameCalls⟩ := Prod.mk.inj pairs
  exact ⟨rfl, sameCalls, rfl⟩

/--
Every expansion ends and is as deep as the limit allows at most.  Whatever an executor does
with its state, an answer has a derivation, and only one result; the way to each part of the
node crosses no more branches than the limit; an entity behind as many as the limit has
nothing embedded, related or omitted; and if the limit is zero and no source is asked for,
then nothing is executed.
-/
theorem expand_ends (expander : Expander (StateM σ)) (maxDepth : Nat)
    (collection : Option String) (context : Context) (answer : Answer) (state : σ) :
    ∃ node visits final,
      Expands expander maxDepth (.start collection context) answer state node visits final ∧
      (∀ other calls last,
        Expands expander maxDepth (.start collection context) answer state other calls last →
          other = node ∧ calls.map Visit.toCall = visits.map Visit.toCall ∧ last = final) ∧
      expander.expand maxDepth collection context (some answer) state = (some node, final) ∧
      (∀ steps part, node.at? steps = some part →
        (Node.crossed steps).length ≤ maxDepth) ∧
      (∀ steps root projection embedded related isInlined omitted,
        node.at? steps =
            some (.entity root projection embedded related isInlined omitted) →
          (Node.crossed steps).length = maxDepth →
            embedded = [] ∧ related = [] ∧ omitted = []) ∧
      (maxDepth = 0 → context.includeSource = false → ∀ trace,
        expander.traced.expand maxDepth collection context (some answer) trace state =
          ((some node, trace), state)) := by
  obtain ⟨node, visits, final, expands, ran, noted⟩ :=
    exists_expands expander maxDepth collection context answer state
  have arises : Arises expander maxDepth (.start collection context) node :=
    ⟨answer, state, visits, final, expands⟩
  refine ⟨node, visits, final, expands, ?_, ran, ?_, ?_, ?_⟩
  · intro other calls last derived
    exact expands.unique derived (Nat.zero_le maxDepth)
  · intro steps part found
    obtain ⟨inner, original, descends, _, _, shallow⟩ := arises.at? found
    by_cases crossed : Node.crossed steps = []
    · rw [crossed]
      exact Nat.zero_le maxDepth
    · have atPlace : inner.depth = 0 + (Node.crossed steps).length := descends.depth_eq
      have within := shallow crossed
      omega
  · intro steps root projection embedded related isInlined omitted found atLimit
    obtain ⟨inner, original, descends, arisesThere, isMarked, _⟩ := arises.at? found
    obtain ⟨wasInlined, rfl, _⟩ := Node.mark_eq_entity isMarked.symm
    have atPlace : inner.depth = 0 + (Node.crossed steps).length := descends.depth_eq
    exact arisesThere.exhausted (by omega)
  · intro noLevels unasked trace
    have limited : maxDepth ≤ (Frame.start collection context).depth := by
      rw [noLevels]
      exact Nat.zero_le _
    obtain ⟨_, nothing, unchanged⟩ := expands.eq_bare limited unasked
    rw [noted trace, nothing, unchanged, List.map_nil, List.append_nil]

end ContentApi.Expander
