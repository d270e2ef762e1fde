import ContentApi.Proofs.Expansion.Derivation
import ContentApi.Proofs.Expansion.Outcomes

/-!
# What an expansion executes

An expansion executes collections and relationships.  Relations are resolved only in the frame
of a request, and sources and embedded entities are found in collections; so each relationship
that is executed for an entity is the resource of one of its own branches
(`RunsBranches.of_relationship`), and what is shown under a name is what the execution for
that branch has given (`RunsBranches.answered`).  If executing a resource only reads, the
expansion only reads.
-/

namespace ContentApi.Expander

variable {σ : Type} {expander : Expander (StateM σ)} {maxDepth : Nat}

/-! ## Reading -/

/-- Executing a resource leaves the state as it is. -/
def OnlyReads (expander : Expander (StateM σ)) : Prop :=
  ∀ resource context state, (expander.execute resource context state).2 = state

theorem OnlyReads.eq (reads : OnlyReads expander) {resource : Resource} {context : Context}
    {reply : Reply} {state final : σ}
    (executed : expander.execute resource context state = (reply, final)) : final = state := by
  rw [← reads resource context state, executed]

theorem OnlyReads.stateAfter (reads : OnlyReads expander) (state : σ) (visits : List Visit) :
    expander.stateAfter state visits = state := by
  induction visits generalizing state with
  | nil => rfl
  | cons visit rest ih =>
      rcases visit with ⟨⟨resource, context⟩, place⟩
      exact (ih _).trans (reads resource context state)

section Keeping

variable {frame : Frame} {state final : σ} {visits : List Visit}

theorem Expands.keeps (reads : OnlyReads expander) {answer : Answer} {node : Node}
    (expands : Expands expander maxDepth frame answer state node visits final) :
    final = state :=
  expands.stateAfter_eq.symm.trans (reads.stateAfter state visits)

theorem RunsBranch.keeps (reads : OnlyReads expander) {key entityId : Option String}
    {resource : Resource} {outcome : Outcome}
    (runs : RunsBranch expander maxDepth frame key resource entityId state outcome visits
      final) : final = state :=
  runs.stateAfter_eq.symm.trans (reads.stateAfter state visits)

theorem RunsBranches.keeps (reads : OnlyReads expander) {branches : List Branch}
    {outcomes : List (String × Outcome)}
    (runs : RunsBranches expander maxDepth frame branches state outcomes visits final) :
    final = state :=
  runs.stateAfter_eq.symm.trans (reads.stateAfter state visits)

theorem FindsSource.keeps (reads : OnlyReads expander) {info : PageInfo}
    {source : Option Entity}
    (finds : FindsSource expander maxDepth frame info state source visits final) :
    final = state :=
  finds.stateAfter_eq.symm.trans (reads.stateAfter state visits)

end Keeping

/-! ## Executing relationships -/

/-- Under the name of a collection its entities are found. -/
def FindsEntities (expander : Expander (StateM σ)) : Prop :=
  ∀ name resource, expander.collection? name = some resource → resource.kind = .entities

theorem FindsEntities.embedBranches (finds : FindsEntities expander) (root : Entity) :
    ∀ branch ∈ expander.embedBranches root, branch.resource.kind = .entities := by
  intro branch member
  obtain ⟨embed, _, isBranch⟩ := List.mem_filterMap.mp member
  obtain ⟨resource, found, isBranch⟩ := Option.bind_eq_some_iff.mp isBranch
  obtain ⟨id, _, isBranch⟩ := Option.bind_eq_some_iff.mp isBranch
  cases isBranch
  exact finds _ _ found

mutual

/-- Where no relations are resolved, only collections are executed. -/
theorem Expands.entities (finds : FindsEntities expander) {frame : Frame} {answer : Answer}
    {state final : σ} {node : Node} {visits : List Visit} :
    Expands expander maxDepth frame answer state node visits final →
    frame.collection = none → ∀ visit ∈ visits, visit.resource.kind = .entities
  | .scalar _ _, _ => List.forall_mem_nil _
  | .sequence _ _, _ => List.forall_mem_nil _
  | .page source expands, nowhere =>
      List.forall_mem_append.mpr ⟨source.entities finds, expands.entities finds nowhere⟩
  | .exhausted _ _ _, _ => List.forall_mem_nil _
  | .entity _ runs others, nowhere => by
      refine List.forall_mem_append.mpr
        ⟨runs.entities finds (finds.embedBranches _), others.entities finds ?_⟩
      -- Without a collection an entity has no branches for relations.
      rw [nowhere]
      exact List.forall_mem_nil _

theorem ExpandsItems.entities (finds : FindsEntities expander) {frame : Frame}
    {items : List Answer} {state final : σ} {nodes : List Node} {visits : List Visit} :
    ExpandsItems expander maxDepth frame items state nodes visits final →
    frame.collection = none → ∀ visit ∈ visits, visit.resource.kind = .entities
  | .nil _, _ => List.forall_mem_nil _
  | .cons first rest, nowhere =>
      List.forall_mem_append.mpr ⟨first.entities finds nowhere, rest.entities finds nowhere⟩

/-- Behind the resource of a branch only collections are executed for it. -/
theorem RunsBranch.entities (finds : FindsEntities expander) {frame : Frame}
    {key entityId : Option String} {resource : Resource} {state final : σ} {outcome : Outcome}
    {visits : List Visit} :
    RunsBranch expander maxDepth frame key resource entityId state outcome visits final →
    ∃ nested, visits = (frame.branch key entityId).visit resource :: nested ∧
      ∀ visit ∈ nested, visit.resource.kind = .entities
  | .failed _ => ⟨[], rfl, List.forall_mem_nil _⟩
  | .empty _ => ⟨[], rfl, List.forall_mem_nil _⟩
  | .answered _ expands => ⟨_, rfl, expands.entities finds rfl⟩

theorem RunsBranches.entities (finds : FindsEntities expander) {frame : Frame}
    {branches : List Branch} {state final : σ} {outcomes : List (String × Outcome)}
    {visits : List Visit} :
    RunsBranches expander maxDepth frame branches state outcomes visits final →
    (∀ branch ∈ branches, branch.resource.kind = .entities) →
    ∀ visit ∈ visits, visit.resource.kind = .entities
  | .nil _, _ => List.forall_mem_nil _
  | .cons first rest, all => by
      obtain ⟨nested, rfl, entities⟩ := first.entities finds
      obtain ⟨isFirst, others⟩ := List.forall_mem_cons.mp all
      exact List.forall_mem_append.mpr
        ⟨List.forall_mem_cons.mpr ⟨isFirst, entities⟩, rest.entities finds others⟩

theorem FindsSource.entities (finds : FindsEntities expander) {frame : Frame} {info : PageInfo}
    {state final : σ} {source : Option Entity} {visits : List Visit} :
    FindsSource expander maxDepth frame info state source visits final →
    ∀ visit ∈ visits, visit.resource.kind = .entities
  | .unasked _ _ _ => List.forall_mem_nil _
  | .known _ _ _ => List.forall_mem_nil _
  | .unlocated _ _ _ _ => List.forall_mem_nil _
  | .executed _ _ located runs => by
      obtain ⟨nested, rfl, entities⟩ := runs.entities finds
      obtain ⟨name, _, found⟩ := Option.bind_eq_some_iff.mp located
      exact List.forall_mem_cons.mpr ⟨finds _ _ found, entities⟩

end

/-- A relationship that is executed for branches is that of one of them. -/
theorem RunsBranches.of_relationship (finds : FindsEntities expander) {frame : Frame}
    {branches : List Branch} {state final : σ} {outcomes : List (String × Outcome)}
    {visits : List Visit}
    (runs : RunsBranches expander maxDepth frame branches state outcomes visits final)
    {visit : Visit} (member : visit ∈ visits) (isRelationship : visit.resource.kind ≠ .entities) :
    ∃ branch ∈ branches,
      visit = (frame.branch (some branch.name) branch.entityId).visit branch.resource := by
  induction branches generalizing state outcomes visits with
  | nil =>
      cases runs
      cases member
  | cons branch rest ih =>
      cases runs with
      | cons first others =>
          obtain ⟨nested, rfl, entities⟩ := first.entities finds
          rcases List.mem_append.mp member with member | member
          · rcases List.mem_cons.mp member with isVisit | member
            · exact ⟨branch, List.mem_cons_self, isVisit⟩
            · exact absurd (entities visit member) isRelationship
          · obtain ⟨other, member, isVisit⟩ := ih others member
            exact ⟨other, List.mem_cons_of_mem _ member, isVisit⟩

/-- What is shown under a name is what the resource of a branch with the name has given. -/
theorem RunsBranches.answered (reads : OnlyReads expander) {frame : Frame}
    {branches : List Branch} {state final : σ} {outcomes : List (String × Outcome)}
    {visits : List Visit} {name : String} {node : Node}
    (runs : RunsBranches expander maxDepth frame branches state outcomes visits final)
    (shown : Fields.get? name (Branch.resolved outcomes) = some node) :
    ∃ branch ∈ branches, branch.name = name ∧
      (frame.branch (some name) branch.entityId).visit branch.resource ∈ visits ∧
      ∃ answer nested,
        expander.execute branch.resource
            (frame.branch (some name) branch.entityId).context state =
          (.ok (some answer), state) ∧
        Expands expander maxDepth (frame.branch (some name) branch.entityId) answer state node
          nested state := by
  have member := Branch.mem_of_get?_resolved shown
  clear shown
  induction branches generalizing state outcomes visits with
  | nil =>
      cases runs
      cases member
  | cons branch rest ih =>
      cases runs with
      | cons first others =>
          rcases List.mem_cons.mp member with isFirst | member
          · obtain ⟨rfl, rfl⟩ := Prod.mk.inj isFirst
            cases first with
            | @answered _ _ _ _ answer _ nested _ replied _ executed expands =>
                obtain rfl := reads.eq executed
                have same := expands.keeps reads
                subst same
                exact ⟨branch, List.mem_cons_self, rfl,
                  List.mem_append_left _ List.mem_cons_self, answer, nested, executed, expands⟩
          · obtain rfl := first.keeps reads
            obtain ⟨other, isOther, isNamed, visited, given⟩ := ih others member
            exact ⟨other, List.mem_cons_of_mem _ isOther, isNamed,
              List.mem_append_right _ visited, given⟩

end ContentApi.Expander
