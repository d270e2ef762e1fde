import ContentApi.Proofs.Expansion.Position
import ContentApi.Proofs.Expansion.Tracing

/-!
# Derivations of an expansion

The walk over an answer is given once more by rules.  They count the branches on the way and
compare their number with the limit only where an entity is reached; nothing in their shape
says that the walk comes to an end.  It does: every expansion has a derivation
(`exists_expands`), which is finite, and a derivation gives what `expandWithin` computes, with
the executions that are noted on the way (`Expands.noted`).
-/

namespace ContentApi

/-- What is known where an answer is expanded. -/
structure Frame where
  place : Place
  /-- The collection against which relations are resolved, if there is one. -/
  collection : Option String
  context : Context

namespace Frame

/-- How many branches lead to a frame. -/
def depth (frame : Frame) : Nat :=
  frame.place.length

/-- The frame of the answer to a request. -/
def start (collection : Option String) (context : Context) : Frame :=
  ⟨[], collection, context⟩

/-- The frame of a branch. -/
def branch (frame : Frame) (key : Option String) (entityId : Option String) : Frame where
  place := frame.place ++ [key]
  collection := none
  context := frame.context.branch (key.bind frame.context.relations.get?) entityId

theorem depth_branch (frame : Frame) (key entityId : Option String) :
    (frame.branch key entityId).depth = frame.depth + 1 :=
  List.length_append

/-- In a branch no source is asked for. -/
theorem includeSource_branch (frame : Frame) (key entityId : Option String) :
    (frame.branch key entityId).context.includeSource = false :=
  rfl

end Frame

/-- An execution with the place of the branch that it is made for. -/
structure Visit extends Call where
  place : Place

/-- The execution of a resource for the branch of a frame. -/
def Frame.visit (frame : Frame) (resource : Resource) : Visit :=
  ⟨⟨resource, frame.context⟩, frame.place⟩

namespace Expander

section Rules

variable {σ : Type} (expander : Expander (StateM σ)) (maxDepth : Nat)

mutual

/-- An answer is expanded from one state to another, with some visits on the way. -/
inductive Expands : Frame → Answer → σ → Node → List Visit → σ → Prop where
  | scalar {frame : Frame} (value : Json) (state : σ) :
      Expands frame (.scalar value) state (.scalar value) [] state
  | sequence {frame : Frame} (items : List Answer) (state : σ) :
      Expands frame (.sequence items) state (.sequence items) [] state
  | page {frame : Frame} {info : PageInfo} {items : List Answer} {source : Option Entity}
      {nodes : List Node} {early late : List Visit} {state between final : σ} :
      FindsSource frame info state source early between →
      ExpandsItems frame items between nodes late final →
      Expands frame (.page info items) state (.page { info with source } nodes)
        (early ++ late) final
  | exhausted {frame : Frame} (root : Entity) (state : σ) :
      maxDepth ≤ frame.depth →
      Expands frame (.entity root) state (.leaf root frame.context.projection) [] state
  | entity {frame : Frame} {root : Entity} {embedded related : List (String × Outcome)}
      {early late : List Visit} {state between final : σ} :
      frame.depth < maxDepth →
      RunsBranches frame (expander.embedBranches root) state embedded early between →
      RunsBranches frame (expander.relationBranches frame.collection frame.context root)
        between related late final →
      Expands frame (.entity root) state
        (.entity root frame.context.projection (Branch.inlined (Branch.resolved embedded))
          (Branch.resolved related) false
          (Branch.omissions embedded ++ Branch.omissions related))
        (early ++ late) final

/-- Answers are expanded one after another. -/
inductive ExpandsItems : Frame → List Answer → σ → List Node → List Visit → σ → Prop where
  | nil {frame : Frame} (state : σ) : ExpandsItems frame [] state [] [] state
  | cons {frame : Frame} {item : Answer} {rest : List Answer} {node : Node}
      {nodes : List Node} {early late : List Visit} {state between final : σ} :
      Expands frame item state node early between →
      ExpandsItems frame rest between nodes late final →
      ExpandsItems frame (item :: rest) state (node :: nodes) (early ++ late) final

/-- A resource is executed for a branch, and its answer is expanded in the frame of it. -/
inductive RunsBranch : Frame → Option String → Resource → Option String → σ → Outcome →
    List Visit → σ → Prop where
  | failed {frame : Frame} {key entityId : Option String} {resource : Resource}
      {error : ApiError} {state final : σ} :
      expander.execute resource (frame.branch key entityId).context state =
        (.error error, final) →
      RunsBranch frame key resource entityId state (.error (.ofError error))
        [(frame.branch key entityId).visit resource] final
  | empty {frame : Frame} {key entityId : Option String} {resource : Resource}
      {state final : σ} :
      expander.execute resource (frame.branch key entityId).context state =
        (.ok none, final) →
      RunsBranch frame key resource entityId state (.ok none)
        [(frame.branch key entityId).visit resource] final
  | answered {frame : Frame} {key entityId : Option String} {resource : Resource}
      {answer : Answer} {node : Node} {nested : List Visit} {state replied final : σ} :
      expander.execute resource (frame.branch key entityId).context state =
        (.ok (some answer), replied) →
      Expands (frame.branch key entityId) answer replied node nested final →
      RunsBranch frame key resource entityId state (.ok (some node))
        ((frame.branch key entityId).visit resource :: nested) final

/-- The branches of an entity are run one after another. -/
inductive RunsBranches :
    Frame → List Branch → σ → List (String × Outcome) → List Visit → σ → Prop where
  | nil {frame : Frame} (state : σ) : RunsBranches frame [] state [] [] state
  | cons {frame : Frame} {branch : Branch} {rest : List Branch} {outcome : Outcome}
      {others : List (String × Outcome)} {early late : List Visit}
      {state between final : σ} :
      RunsBranch frame (some branch.name) branch.resource branch.entityId state outcome
        early between →
      RunsBranches frame rest between others late final →
      RunsBranches frame (branch :: rest) state ((branch.name, outcome) :: others)
        (early ++ late) final

/-- The source of a page is found; its lookup is a branch that no limit holds back. -/
inductive FindsSource :
    Frame → PageInfo → σ → Option Entity → List Visit → σ → Prop where
  | unasked {frame : Frame} (info : PageInfo) (state : σ) :
      frame.context.includeSource = false → FindsSource frame info state none [] state
  | known {frame : Frame} {info : PageInfo} {source : Entity} (state : σ) :
      frame.context.includeSource = true → info.source = some source →
      FindsSource frame info state (some source) [] state
  | unlocated {frame : Frame} {info : PageInfo} (state : σ) :
      frame.context.includeSource = true → info.source = none →
      frame.collection.bind expander.collection? = none →
      FindsSource frame info state none [] state
  | executed {frame : Frame} {info : PageInfo} {resource : Resource} {outcome : Outcome}
      {visits : List Visit} {state final : σ} :
      frame.context.includeSource = true → info.source = none →
      frame.collection.bind expander.collection? = some resource →
      RunsBranch frame none resource frame.context.entityId state outcome visits final →
      FindsSource frame info state (sourceRoot? outcome) visits final

end

end Rules

/-! ## States -/

section States

variable {σ : Type} {expander : Expander (StateM σ)} {maxDepth : Nat}

/-- The state behind some executions that are made one after another. -/
def stateAfter (expander : Expander (StateM σ)) (state : σ) (visits : List Visit) : σ :=
  visits.foldl
    (fun before visit => (expander.execute visit.resource visit.context before).2) state

theorem stateAfter_append (state : σ) (early late : List Visit) :
    expander.stateAfter state (early ++ late) =
      expander.stateAfter (expander.stateAfter state early) late :=
  List.foldl_append

theorem stateAfter_visit {frame : Frame} {resource : Resource} {reply : Reply}
    {state replied : σ}
    (executed : expander.execute resource frame.context state = (reply, replied))
    (later : List Visit) :
    expander.stateAfter state (frame.visit resource :: later) =
      expander.stateAfter replied later := by
  show expander.stateAfter (expander.execute resource frame.context state).2 later = _
  rw [executed]

mutual

/-- Nothing but the executions changes the state. -/
theorem Expands.stateAfter_eq {frame : Frame} {answer : Answer} {state final : σ}
    {node : Node} {visits : List Visit} :
    Expands expander maxDepth frame answer state node visits final →
    expander.stateAfter state visits = final
  | .scalar _ _ => rfl
  | .sequence _ _ => rfl
  | .page finds expands => by
      rw [stateAfter_append, finds.stateAfter_eq, expands.stateAfter_eq]
  | .exhausted _ _ _ => rfl
  | .entity _ runs others => by
      rw [stateAfter_append, runs.stateAfter_eq, others.stateAfter_eq]

theorem ExpandsItems.stateAfter_eq {frame : Frame} {items : List Answer} {state final : σ}
    {nodes : List Node} {visits : List Visit} :
    ExpandsItems expander maxDepth frame items state nodes visits final →
    expander.stateAfter state visits = final
  | .nil _ => rfl
  | .cons first rest => by
      rw [stateAfter_append, first.stateAfter_eq, rest.stateAfter_eq]

theorem RunsBranch.stateAfter_eq {frame : Frame} {key entityId : Option String}
    {resource : Resource} {state final : σ} {outcome : Outcome} {visits : List Visit} :
    RunsBranch expander maxDepth frame key resource entityId state outcome visits final →
    expander.stateAfter state visits = final
  | .failed executed => stateAfter_visit executed []
  | .empty executed => stateAfter_visit executed []
  | .answered executed expands => by
      rw [stateAfter_visit executed, expands.stateAfter_eq]

theorem RunsBranches.stateAfter_eq {frame : Frame} {branches : List Branch}
    {state final : σ} {outcomes : List (String × Outcome)} {visits : List Visit} :
    RunsBranches expander maxDepth frame branches state outcomes visits final →
    expander.stateAfter state visits = final
  | .nil _ => rfl
  | .cons first rest => by
      rw [stateAfter_append, first.stateAfter_eq, rest.stateAfter_eq]

theorem FindsSource.stateAfter_eq {frame : Frame} {info : PageInfo} {state final : σ}
    {source : Option Entity} {visits : List Visit} :
    FindsSource expander maxDepth frame info state source visits final →
    expander.stateAfter state visits = final
  | .unasked _ _ _ => rfl
  | .known _ _ _ => rfl
  | .unlocated _ _ _ _ => rfl
  | .executed _ _ _ runs => runs.stateAfter_eq

end

end States

/-! ## Every expansion ends -/

section Ending

variable {σ : Type} {expander : Expander (StateM σ)} {maxDepth : Nat}

/-- There is a derivation in a frame for each answer and state. -/
def Ends (expander : Expander (StateM σ)) (maxDepth : Nat) (frame : Frame) : Prop :=
  ∀ answer state, ∃ node visits final,
    Expands expander maxDepth frame answer state node visits final

mutual

/-- Below the limit, where no source is asked for, nothing is executed any more. -/
theorem expands_bare {frame : Frame} (limited : maxDepth ≤ frame.depth)
    (unasked : frame.context.includeSource = false) (state : σ) :
    ∀ answer,
      Expands expander maxDepth frame answer state
        (.bare frame.context.projection answer) [] state
  | .scalar value => .scalar value state
  | .sequence items => .sequence items state
  | .page info items =>
      .page (.unasked info state unasked) (expandsItems_bare limited unasked state items)
  | .entity root => .exhausted root state limited

theorem expandsItems_bare {frame : Frame} (limited : maxDepth ≤ frame.depth)
    (unasked : frame.context.includeSource = false) (state : σ) :
    ∀ items,
      ExpandsItems expander maxDepth frame items state
        (Node.bareItems frame.context.projection items) [] state
  | [] => .nil state
  | item :: rest =>
      .cons (expands_bare limited unasked state item)
        (expandsItems_bare limited unasked state rest)

end

theorem exists_runsBranch {frame : Frame} {key entityId : Option String}
    (ends : Ends expander maxDepth (frame.branch key entityId)) (resource : Resource)
    (state : σ) :
    ∃ outcome visits final,
      RunsBranch expander maxDepth frame key resource entityId state outcome visits final := by
  rcases executed :
    expander.execute resource (frame.branch key entityId).context state with ⟨reply, replied⟩
  cases reply with
  | error error => exact ⟨_, _, _, .failed executed⟩
  | ok answer =>
      cases answer with
      | none => exact ⟨_, _, _, .empty executed⟩
      | some answer =>
          obtain ⟨node, nested, final, expands⟩ := ends answer replied
          exact ⟨_, _, _, .answered executed expands⟩

theorem exists_runsBranches {frame : Frame}
    (deeper : ∀ key entityId, Ends expander maxDepth (frame.branch key entityId))
    (branches : List Branch) (state : σ) :
    ∃ outcomes visits final,
      RunsBranches expander maxDepth frame branches state outcomes visits final := by
  induction branches generalizing state with
  | nil => exact ⟨_, _, _, .nil state⟩
  | cons branch rest ih =>
      obtain ⟨outcome, early, between, runs⟩ :=
        exists_runsBranch (deeper (some branch.name) branch.entityId) branch.resource state
      obtain ⟨others, late, final, restRuns⟩ := ih between
      exact ⟨_, _, _, .cons runs restRuns⟩

theorem exists_findsSource {frame : Frame}
    (deeper : ∀ key entityId, Ends expander maxDepth (frame.branch key entityId))
    (info : PageInfo) (state : σ) :
    ∃ source visits final,
      FindsSource expander maxDepth frame info state source visits final := by
  cases asked : frame.context.includeSource with
  | false => exact ⟨_, _, _, .unasked info state asked⟩
  | true =>
      cases known : info.source with
      | some source => exact ⟨_, _, _, .known state asked known⟩
      | none =>
          cases located : frame.collection.bind expander.collection? with
          | none => exact ⟨_, _, _, .unlocated state asked known located⟩
          | some resource =>
              obtain ⟨outcome, visits, final, runs⟩ :=
                exists_runsBranch (deeper none frame.context.entityId) resource state
              exact ⟨_, _, _, .executed asked known located runs⟩

mutual

/-- If expansions end in the branches of a frame, they end in the frame. -/
theorem ends_of_deeper {frame : Frame}
    (deeper : ∀ key entityId, Ends expander maxDepth (frame.branch key entityId)) :
    Ends expander maxDepth frame
  | .scalar value, state => ⟨_, _, _, .scalar value state⟩
  | .sequence items, state => ⟨_, _, _, .sequence items state⟩
  | .page info items, state => by
      obtain ⟨source, early, between, finds⟩ := exists_findsSource deeper info state
      obtain ⟨nodes, late, final, expands⟩ := exists_expandsItems deeper items between
      exact ⟨_, _, _, .page finds expands⟩
  | .entity root, state => by
      by_cases within : frame.depth < maxDepth
      · obtain ⟨embedded, early, between, runs⟩ :=
          exists_runsBranches deeper (expander.embedBranches root) state
        obtain ⟨related, late, final, others⟩ :=
          exists_runsBranches deeper
            (expander.relationBranches frame.collection frame.context root) between
        exact ⟨_, _, _, .entity within runs others⟩
      · exact ⟨_, _, _, .exhausted root state (Nat.le_of_not_lt within)⟩

theorem exists_expandsItems {frame : Frame}
    (deeper : ∀ key entityId, Ends expander maxDepth (frame.branch key entityId)) :
    ∀ items state, ∃ nodes visits final,
      ExpandsItems expander maxDepth frame items state nodes visits final
  | [], state => ⟨_, _, _, .nil state⟩
  | item :: rest, state => by
      obtain ⟨node, early, between, expands⟩ := ends_of_deeper deeper item state
      obtain ⟨nodes, late, final, others⟩ := exists_expandsItems deeper rest between
      exact ⟨_, _, _, .cons expands others⟩

end

/--
Expansions end within the limit: each branch is one level deeper, and below the last level
only the source of a page is executed, in whose frame no other source is asked for.
-/
theorem ends_within (frame : Frame) (within : frame.depth ≤ maxDepth) :
    Ends expander maxDepth frame := by
  apply ends_of_deeper
  intro key entityId
  have deeper := frame.depth_branch key entityId
  by_cases room : frame.depth < maxDepth
  · exact ends_within (frame.branch key entityId) (by omega)
  · intro answer state
    exact ⟨_, _, _, expands_bare (by omega) (frame.includeSource_branch key entityId) state
      answer⟩
termination_by maxDepth - frame.depth

end Ending

/-! ## Derivations and the walk -/

section Agreement

variable {m : Type → Type} [Monad m]

/-- What the walk does with the answers of branches, with so many levels left. -/
def nested (expander : Expander m) : Nat → Context → Answer → m Node
  | 0, inner, answer => return .bare inner.projection answer
  | levels + 1, inner, answer => expander.expandWithin levels none inner answer

theorem expandWithin_eq_walk (expander : Expander m) (levels : Nat)
    (collection : Option String) (context : Context) (answer : Answer) :
    expander.expandWithin levels collection context answer =
      expander.walk (expander.nested levels) (decide (0 < levels)) collection context
        answer := by
  cases levels with
  | zero => rfl
  | succ levels =>
      rw [expandWithin, decide_eq_true levels.succ_pos]
      rfl

end Agreement

section Agreement

variable {σ : Type} {expander : Expander (StateM σ)} {maxDepth : Nat}

mutual

/-- Below the limit, where no source is asked for, a derivation has no visits. -/
theorem Expands.eq_bare {frame : Frame} {answer : Answer} {state final : σ} {node : Node}
    {visits : List Visit} :
    Expands expander maxDepth frame answer state node visits final →
    maxDepth ≤ frame.depth → frame.context.includeSource = false →
    node = .bare frame.context.projection answer ∧ visits = [] ∧ final = state
  | .scalar _ _, _, _ => ⟨rfl, rfl, rfl⟩
  | .sequence _ _, _, _ => ⟨rfl, rfl, rfl⟩
  | .page finds expands, limited, unasked => by
      obtain ⟨rfl, rfl, rfl⟩ := expands.eq_bare limited unasked
      cases finds with
      | unasked => exact ⟨rfl, rfl, rfl⟩
      | known _ asked => simp [unasked] at asked
      | unlocated _ asked => simp [unasked] at asked
      | executed asked => simp [unasked] at asked
  | .exhausted _ _ _, _, _ => ⟨rfl, rfl, rfl⟩
  | .entity within _ _, limited, _ => by omega

theorem ExpandsItems.eq_bare {frame : Frame} {items : List Answer} {state final : σ}
    {nodes : List Node} {visits : List Visit} :
    ExpandsItems expander maxDepth frame items state nodes visits final →
    maxDepth ≤ frame.depth → frame.context.includeSource = false →
    nodes = Node.bareItems frame.context.projection items ∧ visits = [] ∧ final = state
  | .nil _, _, _ => ⟨rfl, rfl, rfl⟩
  | .cons first rest, limited, unasked => by
      obtain ⟨rfl, rfl, rfl⟩ := first.eq_bare limited unasked
      obtain ⟨rfl, rfl, rfl⟩ := rest.eq_bare limited unasked
      exact ⟨rfl, rfl, rfl⟩

end

/-- Behind an execution the trace has one more call. -/
theorem execute_noted {resource : Resource} {context : Context} {reply : Reply}
    {state replied : σ} (executed : expander.execute resource context state = (reply, replied))
    (trace : Trace) :
    expander.traced.execute resource context trace state =
      ((reply, trace ++ [⟨resource, context⟩]), replied) := by
  rw [execute_traced, executed]

mutual

/-- A derivation gives what the walk computes, and its visits are the executions made. -/
theorem Expands.noted {frame : Frame} {answer : Answer} {state final : σ} {node : Node}
    {visits : List Visit} {levels : Nat} :
    Expands expander maxDepth frame answer state node visits final →
    frame.depth + levels = maxDepth → ∀ trace,
      expander.traced.expandWithin levels frame.collection frame.context answer trace state =
        ((node, trace ++ visits.map Visit.toCall), final)
  | .scalar value _, _, trace => by
      rw [expandWithin_eq_walk, walk, List.map_nil, List.append_nil]
      rfl
  | .sequence items _, _, trace => by
      rw [expandWithin_eq_walk, walk, List.map_nil, List.append_nil]
      rfl
  | .page finds expands, left, trace => by
      rw [expandWithin_eq_walk, walk, bind_of_noted (finds.noted left trace),
        bind_of_noted (expands.noted left _), List.map_append, List.append_assoc]
      rfl
  | .exhausted root _ limited, left, trace => by
      have noneLeft : levels = 0 := by omega
      rw [noneLeft, expandWithin, walk, List.map_nil, List.append_nil]
      rfl
  | .entity within runs others, left, trace => by
      have someLeft : 0 < levels := by omega
      rw [expandWithin_eq_walk, walk, decide_eq_true someLeft, if_pos rfl, expandEntity,
        ← expander.corresponds_traced.embedBranches,
        ← expander.corresponds_traced.relationBranches,
        bind_of_noted (runs.noted left trace), bind_of_noted (others.noted left _),
        List.map_append, List.append_assoc]
      rfl

theorem ExpandsItems.noted {frame : Frame} {items : List Answer} {state final : σ}
    {nodes : List Node} {visits : List Visit} {levels : Nat} :
    ExpandsItems expander maxDepth frame items state nodes visits final →
    frame.depth + levels = maxDepth → ∀ trace,
      expander.traced.walkItems (expander.traced.nested levels) (decide (0 < levels))
          frame.collection frame.context items trace state =
        ((nodes, trace ++ visits.map Visit.toCall), final)
  | .nil _, _, trace => by
      rw [walkItems, List.map_nil, List.append_nil]
      rfl
  | .cons first rest, left, trace => by
      have firstNoted := first.noted left trace
      rw [expandWithin_eq_walk] at firstNoted
      rw [walkItems, bind_of_noted firstNoted, bind_of_noted (rest.noted left _),
        List.map_append, List.append_assoc]
      rfl

theorem RunsBranch.noted {frame : Frame} {key entityId : Option String}
    {resource : Resource} {state final : σ} {outcome : Outcome} {visits : List Visit}
    {levels : Nat} :
    RunsBranch expander maxDepth frame key resource entityId state outcome visits final →
    frame.depth + levels = maxDepth → ∀ trace,
      expander.traced.runBranch (expander.traced.nested levels) frame.context key resource
          entityId trace state =
        ((outcome, trace ++ visits.map Visit.toCall), final)
  | .failed executed, _, trace => by
      rw [runBranch_eq]
      exact bind_of_noted (execute_noted executed trace)
  | .empty executed, _, trace => by
      rw [runBranch_eq]
      exact bind_of_noted (execute_noted executed trace)
  | .answered executed expands, left, trace => by
      rw [runBranch_eq, List.map_cons, List.append_cons]
      refine (bind_of_noted (execute_noted executed trace)).trans ?_
      cases levels with
      | zero =>
          -- Only a source is executed with no level left; in its frame no other is asked for.
          have limited : maxDepth ≤ (frame.branch key entityId).depth := by
            rw [Frame.depth_branch]
            omega
          obtain ⟨rfl, rfl, rfl⟩ := expands.eq_bare limited rfl
          rw [List.map_nil, List.append_nil]
          rfl
      | succ levels =>
          have fewer : (frame.branch key entityId).depth + levels = maxDepth := by
            rw [Frame.depth_branch]
            omega
          exact bind_of_noted (expands.noted fewer _)

theorem RunsBranches.noted {frame : Frame} {branches : List Branch} {state final : σ}
    {outcomes : List (String × Outcome)} {visits : List Visit} {levels : Nat} :
    RunsBranches expander maxDepth frame branches state outcomes visits final →
    frame.depth + levels = maxDepth → ∀ trace,
      expander.traced.runBranches (expander.traced.nested levels) frame.context branches
          trace state =
        ((outcomes, trace ++ visits.map Visit.toCall), final)
  | .nil _, _, trace => by
      rw [runBranches, List.map_nil, List.append_nil]
      rfl
  | .cons first rest, left, trace => by
      rw [runBranches, bind_of_noted (first.noted left trace),
        bind_of_noted (rest.noted left _), List.map_append, List.append_assoc]
      rfl

theorem FindsSource.noted {frame : Frame} {info : PageInfo} {state final : σ}
    {source : Option Entity} {visits : List Visit} {levels : Nat} :
    FindsSource expander maxDepth frame info state source visits final →
    frame.depth + levels = maxDepth → ∀ trace,
      expander.traced.pageSource (expander.traced.nested levels) frame.collection
          frame.context info trace state =
        ((source, trace ++ visits.map Visit.toCall), final)
  | .unasked _ _ unasked, _, trace => by
      simp only [pageSource, unasked]
      rw [List.map_nil, List.append_nil]
      rfl
  | .known _ asked known, _, trace => by
      simp only [pageSource, asked, known]
      rw [List.map_nil, List.append_nil]
      rfl
  | .unlocated _ asked known located, _, trace => by
      have locatedTraced : frame.collection.bind expander.traced.collection? = none := located
      simp only [pageSource, asked, known, locatedTraced]
      rw [List.map_nil, List.append_nil]
      rfl
  | .executed asked known located runs, left, trace => by
      have locatedTraced : frame.collection.bind expander.traced.collection? = some _ := located
      simp only [pageSource, asked, known, locatedTraced]
      exact bind_of_noted (runs.noted left trace)

end

/-- A derivation within the limit gives the node and the state that the walk computes. -/
theorem Expands.ran {frame : Frame} {answer : Answer} {state final : σ} {node : Node}
    {visits : List Visit} {levels : Nat}
    (expands : Expands expander maxDepth frame answer state node visits final)
    (left : frame.depth + levels = maxDepth) :
    expander.expandWithin levels frame.collection frame.context answer state =
      (node, final) := by
  obtain ⟨computed, calls, last, ran, noted⟩ :=
    expander.expandWithin_traced levels frame.collection frame.context answer state
  have same : ((computed, [] ++ calls), last) =
      ((node, [] ++ visits.map Visit.toCall), final) :=
    (noted []).symm.trans (expands.noted left [])
  obtain ⟨pairs, rfl⟩ := Prod.mk.inj same
  obtain ⟨rfl, _⟩ := Prod.mk.inj pairs
  exact ran

/--
The answer to a request is expanded by a derivation, and the derivation gives the node, the
executions and the state of the program.
-/
theorem exists_expands (expander : Expander (StateM σ)) (maxDepth : Nat)
    (collection : Option String) (context : Context) (answer : Answer) (state : σ) :
    ∃ node visits final,
      Expands expander maxDepth (.start collection context) answer state node visits final ∧
      expander.expand maxDepth collection context (some answer) state = (some node, final) ∧
      ∀ trace,
        expander.traced.expand maxDepth collection context (some answer) trace state =
          ((some node, trace ++ visits.map Visit.toCall), final) := by
  have ends : Ends expander maxDepth (.start collection context) :=
    ends_within (.start collection context) (Nat.zero_le maxDepth)
  obtain ⟨node, visits, final, expands⟩ := ends answer state
  have left : (Frame.start collection context).depth + maxDepth = maxDepth :=
    Nat.zero_add maxDepth
  refine ⟨node, visits, final, expands, ?_, ?_⟩
  · rw [expand, map_eq_pure_bind]
    exact bind_of_ran (expands.ran left)
  · intro trace
    rw [expand, map_eq_pure_bind]
    exact bind_of_noted (expands.noted left trace)

end Agreement

end Expander

end ContentApi
