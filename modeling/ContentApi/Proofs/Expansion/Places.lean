import ContentApi.Proofs.Expansion.Derivation
import ContentApi.Proofs.Expansion.Outcomes
import Mathlib.Data.List.Induction

/-!
# Frames of places

Every part of a node, and every execution on the way to it, has its place, and from the place
one can tell the frame in which it came about (`Descends`).  A part of a node is itself what
an answer was expanded to in the frame of its place (`Expands.of_at?`), and an execution is
made in the frame of its place (`Expands.visited`).
-/

namespace ContentApi

/-- From one frame another one is reached through the branches of a place. -/
inductive Descends (frame : Frame) : Place → Frame → Prop where
  | here : Descends frame [] frame
  | branch {place : Place} {inner : Frame} (key entityId : Option String) :
      Descends frame place inner →
      Descends frame (place ++ [key]) (inner.branch key entityId)

namespace Descends

variable {frame inner : Frame} {place : Place}

/-- Without a branch no other frame is reached. -/
theorem eq_of_nil (descends : Descends frame place inner) (nothing : place = []) :
    inner = frame := by
  cases descends with
  | here => rfl
  | branch key entityId descends => simp at nothing

theorem trans {innermost : Frame} {rest : Place} (first : Descends frame place inner)
    (second : Descends inner rest innermost) :
    Descends frame (place ++ rest) innermost := by
  induction second with
  | here =>
      rw [List.append_nil]
      exact first
  | branch key entityId _ ih =>
      rw [← List.append_assoc]
      exact .branch key entityId ih

/-- The frame of a branch is reached through its key. -/
theorem of_branch {key entityId : Option String}
    (descends : Descends (frame.branch key entityId) place inner) :
    Descends frame (key :: place) inner :=
  trans (.branch key entityId .here) descends

/-- The place of a frame goes on from that of the frame above. -/
theorem place_eq (descends : Descends frame place inner) :
    inner.place = frame.place ++ place := by
  induction descends with
  | here => exact (List.append_nil _).symm
  | branch key entityId _ ih =>
      show _ ++ [key] = _
      rw [ih, List.append_assoc]

theorem depth_eq (descends : Descends frame place inner) :
    inner.depth = frame.depth + place.length := by
  rw [Frame.depth, descends.place_eq, List.length_append, Frame.depth]

end Descends

/-! ## Visits -/

/-- A visit is made in the frame of a place below another frame. -/
def Visit.IsBelow (frame : Frame) (visit : Visit) : Prop :=
  ∃ key place inner resource,
    Descends frame (key :: place) inner ∧ visit = inner.visit resource

theorem Visit.isBelow_branch (frame : Frame) (key entityId : Option String)
    (resource : Resource) :
    Visit.IsBelow frame ((frame.branch key entityId).visit resource) :=
  ⟨key, [], frame.branch key entityId, resource, .branch key entityId .here, rfl⟩

theorem Visit.IsBelow.of_branch {frame : Frame} {key entityId : Option String} {visit : Visit}
    (below : Visit.IsBelow (frame.branch key entityId) visit) : Visit.IsBelow frame visit := by
  obtain ⟨next, place, inner, resource, descends, rfl⟩ := below
  exact ⟨key, next :: place, inner, resource, descends.of_branch, rfl⟩

namespace Expander

variable {σ : Type} {expander : Expander (StateM σ)} {maxDepth : Nat}

mutual

/-- All visits of a derivation are made in frames below its own. -/
theorem Expands.visited {frame : Frame} {answer : Answer} {state final : σ} {node : Node}
    {visits : List Visit} :
    Expands expander maxDepth frame answer state node visits final →
    ∀ visit ∈ visits, Visit.IsBelow frame visit
  | .scalar _ _ => by simp
  | .sequence _ _ => by simp
  | .page finds expands => List.forall_mem_append.mpr ⟨finds.visited, expands.visited⟩
  | .exhausted _ _ _ => by simp
  | .entity _ runs others => List.forall_mem_append.mpr ⟨runs.visited, others.visited⟩

theorem ExpandsItems.visited {frame : Frame} {items : List Answer} {state final : σ}
    {nodes : List Node} {visits : List Visit} :
    ExpandsItems expander maxDepth frame items state nodes visits final →
    ∀ visit ∈ visits, Visit.IsBelow frame visit
  | .nil _ => by simp
  | .cons first rest => List.forall_mem_append.mpr ⟨first.visited, rest.visited⟩

theorem RunsBranch.visited {frame : Frame} {key entityId : Option String}
    {resource : Resource} {state final : σ} {outcome : Outcome} {visits : List Visit} :
    RunsBranch expander maxDepth frame key resource entityId state outcome visits final →
    ∀ visit ∈ visits, Visit.IsBelow frame visit
  | .failed _ => List.forall_mem_singleton.mpr (Visit.isBelow_branch frame key entityId resource)
  | .empty _ => List.forall_mem_singleton.mpr (Visit.isBelow_branch frame key entityId resource)
  | .answered _ expands => by
      refine List.forall_mem_cons.mpr
        ⟨Visit.isBelow_branch frame key entityId resource, ?_⟩
      intro visit member
      exact (expands.visited visit member).of_branch

theorem RunsBranches.visited {frame : Frame} {branches : List Branch} {state final : σ}
    {outcomes : List (String × Outcome)} {visits : List Visit} :
    RunsBranches expander maxDepth frame branches state outcomes visits final →
    ∀ visit ∈ visits, Visit.IsBelow frame visit
  | .nil _ => by simp
  | .cons first rest => List.forall_mem_append.mpr ⟨first.visited, rest.visited⟩

theorem FindsSource.visited {frame : Frame} {info : PageInfo} {state final : σ}
    {source : Option Entity} {visits : List Visit} :
    FindsSource expander maxDepth frame info state source visits final →
    ∀ visit ∈ visits, Visit.IsBelow frame visit
  | .unasked _ _ _ => by simp
  | .known _ _ _ => by simp
  | .unlocated _ _ _ _ => by simp
  | .executed _ _ _ runs => runs.visited

end

/-! ## Parts of nodes -/

/-- A node is what some answer is expanded to in a frame. -/
def Arises (expander : Expander (StateM σ)) (maxDepth : Nat) (frame : Frame) (node : Node) :
    Prop :=
  ∃ answer state visits final, Expands expander maxDepth frame answer state node visits final

theorem ExpandsItems.arises {frame : Frame} {items : List Answer} {state final : σ}
    {nodes : List Node} {visits : List Visit} {index : Nat} {node : Node}
    (expands : ExpandsItems expander maxDepth frame items state nodes visits final)
    (found : nodes[index]? = some node) : Arises expander maxDepth frame node := by
  induction items generalizing state nodes visits index with
  | nil =>
      cases expands with
      | nil => simp at found
  | cons item rest ih =>
      cases expands with
      | cons first others =>
          cases index with
          | zero =>
              obtain rfl : _ = node := by simpa using found
              exact ⟨_, _, _, _, first⟩
          | succ index => exact ih others (by simpa using found)

theorem RunsBranches.arises {frame : Frame} {branches : List Branch} {state final : σ}
    {outcomes : List (String × Outcome)} {visits : List Visit} {name : String} {node : Node}
    (runs : RunsBranches expander maxDepth frame branches state outcomes visits final)
    (shown : Fields.get? name (Branch.resolved outcomes) = some node) :
    ∃ entityId, Arises expander maxDepth (frame.branch (some name) entityId) node := by
  have member := Branch.mem_of_get?_resolved shown
  clear shown
  induction branches generalizing state outcomes visits with
  | nil =>
      cases runs with
      | nil => simp at member
  | cons branch rest ih =>
      cases runs with
      | cons first others =>
          rcases List.mem_cons.mp member with isFirst | member
          · obtain ⟨rfl, rfl⟩ := Prod.mk.inj isFirst
            cases first with
            | answered _ expands => exact ⟨_, _, _, _, _, expands⟩
          · exact ih others member

/-- Behind a step stands what arises in the same frame or in that of a branch. -/
theorem Arises.child? {frame : Frame} {node child : Node} {step : Node.Step}
    (arises : Arises expander maxDepth frame node) (found : node.child? step = some child) :
    ∃ inner original,
      Descends frame step.crossed?.toList inner ∧
      Arises expander maxDepth inner original ∧ child = step.mark original ∧
      (step.crossed? ≠ none → inner.depth ≤ maxDepth) := by
  obtain ⟨answer, state, visits, final, expands⟩ := arises
  cases expands with
  | scalar value => cases step <;> simp [Node.child?] at found
  | sequence items => cases step <;> simp [Node.child?] at found
  | page finds expands =>
      cases step with
      | item index =>
          exact ⟨frame, child, .here, expands.arises found, rfl, fun crossed => absurd rfl crossed⟩
      | embedded name => simp [Node.child?] at found
      | related name => simp [Node.child?] at found
  | exhausted root => cases step <;> simp [Node.child?, Node.leaf, Fields.get?] at found
  | entity within runs others =>
      cases step with
      | item index => simp [Node.child?] at found
      | embedded name =>
          rw [Node.child?, Branch.inlined_eq_mapValues, Fields.get?_mapValues] at found
          obtain ⟨original, shown, rfl⟩ := Option.map_eq_some_iff.mp found
          obtain ⟨entityId, arises⟩ := runs.arises shown
          refine ⟨frame.branch (some name) entityId, original, .branch _ _ .here, arises, rfl, ?_⟩
          intro _
          rw [Frame.depth_branch]
          exact within
      | related name =>
          obtain ⟨entityId, arises⟩ := others.arises found
          refine ⟨frame.branch (some name) entityId, child, .branch _ _ .here, arises, rfl, ?_⟩
          intro _
          rw [Frame.depth_branch]
          exact within

/-- Behind some steps stands what arises in the frame of the place that they lead to. -/
theorem Arises.at? {frame : Frame} {node part : Node} {steps : List Node.Step}
    (arises : Arises expander maxDepth frame node) (found : node.at? steps = some part) :
    ∃ inner original,
      Descends frame (Node.crossed steps) inner ∧
      Arises expander maxDepth inner original ∧ part = Node.mark steps original ∧
      (Node.crossed steps ≠ [] → inner.depth ≤ maxDepth) := by
  -- From the last step, since it alone decides whether the part is marked.
  induction steps using List.reverseRecOn generalizing part with
  | nil =>
      obtain rfl : node = part := by simpa [Node.at?_nil] using found
      exact ⟨frame, node, .here, arises, rfl, fun crossed => absurd rfl crossed⟩
  | append_singleton steps last ih =>
      rw [Node.at?_concat] at found
      obtain ⟨parent, foundParent, foundPart⟩ := Option.bind_eq_some_iff.mp found
      obtain ⟨middle, original, descends, arisesParent, rfl, shallow⟩ := ih foundParent
      rw [Node.child?_mark] at foundPart
      obtain ⟨inner, source, further, arisesPart, rfl, shallower⟩ :=
        arisesParent.child? foundPart
      rw [Node.crossed_concat]
      refine ⟨inner, source, descends.trans further, arisesPart,
        (Node.mark_concat steps last source).symm, ?_⟩
      intro crossed
      cases stays : last.crossed? with
      | some key => exact shallower (by simp [stays])
      | none =>
          rw [stays] at further crossed
          rw [further.eq_of_nil rfl]
          exact shallow (by simpa using crossed)

end Expander

end ContentApi
