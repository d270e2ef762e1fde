import ContentApi.Content.Demo
import ContentApi.Proofs.Expansion.Places
import ContentApi.Proofs.Expansion.Truncation

/-!
# Expansions with more or fewer levels

The limit on the levels only truncates.  A derivation with many levels becomes one with
fewer levels if the entities at the lower limit are emptied (`Expands.truncate`), as long as
executions have no effects that the dropped branches could leave behind.  So pure executors
expand an answer with fewer levels to what they expand it to with more, truncated
(`expandWithin_truncates`).
-/

namespace ContentApi

/-- An outcome whose node is truncated. -/
def Outcome.truncate (levels : Nat) (outcome : Outcome) : Outcome :=
  outcome.map (Option.map (Node.truncate levels))

/-- Outcomes whose nodes are truncated. -/
def Outcome.truncateAll (levels : Nat) (outcomes : List (String × Outcome)) :
    List (String × Outcome) :=
  outcomes.map fun (name, outcome) => (name, Outcome.truncate levels outcome)

/-- The source of a page is the same at each level. -/
theorem Outcome.sourceRoot?_truncate (levels : Nat) (outcome : Outcome) :
    Expander.sourceRoot? (Outcome.truncate levels outcome) = Expander.sourceRoot? outcome := by
  cases outcome with
  | error fault => rfl
  | ok node =>
      cases node with
      | none => rfl
      | some node => cases node <;> cases levels <;> rfl

namespace Branch

theorem resolved_truncate (levels : Nat) (outcomes : List (String × Outcome)) :
    resolved (Outcome.truncateAll levels outcomes) =
      Fields.mapValues (Node.truncate levels) (resolved outcomes) := by
  rw [resolved, resolved, Fields.mapValues_insertAll, Outcome.truncateAll, List.filterMap_map,
    Fields.mapValues, List.map_filterMap]
  congr 2
  funext entry
  rcases entry with ⟨name, outcome⟩
  cases outcome with
  | error fault => rfl
  | ok node => cases node <;> rfl

theorem omissions_truncate (levels : Nat) (outcomes : List (String × Outcome)) :
    omissions (Outcome.truncateAll levels outcomes) = omissions outcomes := by
  rw [omissions, omissions, Outcome.truncateAll, List.filterMap_map]
  congr 1
  funext entry
  rcases entry with ⟨name, outcome⟩
  cases outcome <;> rfl

/-- The node of an entity is truncated in the outcomes of its branches, one level less. -/
theorem entity_truncate (levels : Nat) (root : Entity) (projection : Projection)
    (embedded related : List (String × Outcome)) :
    (Node.entity root projection (inlined (resolved embedded)) (resolved related) false
        (omissions embedded ++ omissions related)).truncate (levels + 1) =
      .entity root projection (inlined (resolved (Outcome.truncateAll levels embedded)))
        (resolved (Outcome.truncateAll levels related)) false
        (omissions (Outcome.truncateAll levels embedded) ++
          omissions (Outcome.truncateAll levels related)) := by
  rw [Node.truncate, Node.truncateFields_eq_mapValues, Node.truncateFields_eq_mapValues,
    resolved_truncate, resolved_truncate, inlined_mapValues (Node.truncate_inlined levels),
    omissions_truncate, omissions_truncate]

end Branch

namespace Expander

/-! ## Derivations with fewer levels -/

section Derivations

variable {expander : Expander (StateM Unit)} {levels more : Nat}

mutual

/-- Without effects a derivation with more levels is truncated to one with fewer. -/
theorem Expands.truncate {frame : Frame} {answer : Answer} {state final : Unit} {node : Node}
    {visits : List Visit} (fewer : levels ≤ more) :
    Expands expander more frame answer state node visits final →
    ∃ calls,
      Expands expander levels frame answer state (node.truncate (levels - frame.depth)) calls
        final
  | .scalar value _ => ⟨[], .scalar value _⟩
  | .sequence items _ => ⟨[], .sequence items _⟩
  | .page finds expands => by
      obtain ⟨early, found⟩ := finds.truncate fewer
      obtain ⟨late, expanded⟩ := expands.truncate fewer
      exact ⟨early ++ late, .page found expanded⟩
  | .exhausted root _ limited => by
      rw [Node.truncate_leaf]
      exact ⟨[], .exhausted root _ (Nat.le_trans fewer limited)⟩
  | .entity within runs others => by
      -- The lower limit lies below the entity, or it cuts off all of its branches.
      by_cases remains : frame.depth < levels
      · obtain ⟨early, embeds⟩ := runs.truncate fewer
        obtain ⟨late, relations⟩ := others.truncate fewer
        have oneLess : levels - frame.depth = levels - (frame.depth + 1) + 1 := by omega
        rw [oneLess, Branch.entity_truncate]
        exact ⟨early ++ late, .entity remains embeds relations⟩
      · have noneLeft : levels - frame.depth = 0 := by omega
        rw [noneLeft, Node.truncate]
        exact ⟨[], .exhausted _ _ (Nat.le_of_not_lt remains)⟩

theorem ExpandsItems.truncate {frame : Frame} {items : List Answer} {state final : Unit}
    {nodes : List Node} {visits : List Visit} (fewer : levels ≤ more) :
    ExpandsItems expander more frame items state nodes visits final →
    ∃ calls,
      ExpandsItems expander levels frame items state
        (Node.truncateItems (levels - frame.depth) nodes) calls final
  | .nil _ => ⟨[], .nil _⟩
  | .cons first rest => by
      obtain ⟨early, expanded⟩ := first.truncate fewer
      obtain ⟨late, others⟩ := rest.truncate fewer
      exact ⟨early ++ late, .cons expanded others⟩

theorem RunsBranch.truncate {frame : Frame} {key entityId : Option String}
    {resource : Resource} {state final : Unit} {outcome : Outcome} {visits : List Visit}
    (fewer : levels ≤ more) :
    RunsBranch expander more frame key resource entityId state outcome visits final →
    ∃ calls,
      RunsBranch expander levels frame key resource entityId state
        (Outcome.truncate (levels - (frame.depth + 1)) outcome) calls final
  | .failed executed => ⟨_, .failed executed⟩
  | .empty executed => ⟨_, .empty executed⟩
  | .answered executed expands => by
      obtain ⟨nested, expanded⟩ := expands.truncate fewer
      rw [Frame.depth_branch] at expanded
      exact ⟨_, .answered executed expanded⟩

theorem RunsBranches.truncate {frame : Frame} {branches : List Branch} {state final : Unit}
    {outcomes : List (String × Outcome)} {visits : List Visit} (fewer : levels ≤ more) :
    RunsBranches expander more frame branches state outcomes visits final →
    ∃ calls,
      RunsBranches expander levels frame branches state
        (Outcome.truncateAll (levels - (frame.depth + 1)) outcomes) calls final
  | .nil _ => ⟨[], .nil _⟩
  | .cons first rest => by
      obtain ⟨early, run⟩ := first.truncate fewer
      obtain ⟨late, others⟩ := rest.truncate fewer
      exact ⟨early ++ late, .cons run others⟩

theorem FindsSource.truncate {frame : Frame} {info : PageInfo} {state final : Unit}
    {source : Option Entity} {visits : List Visit} (fewer : levels ≤ more) :
    FindsSource expander more frame info state source visits final →
    ∃ calls, FindsSource expander levels frame info state source calls final
  | .unasked _ _ unasked => ⟨[], .unasked info _ unasked⟩
  | .known _ asked known => ⟨[], .known _ asked known⟩
  | .unlocated _ asked known located => ⟨[], .unlocated _ asked known located⟩
  | .executed asked known located runs => by
      obtain ⟨calls, run⟩ := runs.truncate fewer
      rw [← Outcome.sourceRoot?_truncate (levels - (frame.depth + 1))]
      exact ⟨calls, .executed asked known located run⟩

end

end Derivations

/-! ## Pure executors -/

/-- A pure expander over a state that it leaves as it is. -/
def withState (σ : Type) (expander : Expander Id) : Expander (StateM σ) where
  locator := expander.locator
  api := expander.api
  execute resource context := pure (expander.execute resource context)

/-- Programs that leave their state as it is and give what a value is related to. -/
def keepsState (σ : Type) : ProgramRelation Id (StateM σ) where
  Holds related value program :=
    ∀ state, ∃ result, program state = (result, state) ∧ related value result
  pure := by
    intro α β related value result alike state
    exact ⟨result, rfl, alike⟩
  bind := by
    intro α β γ δ related later first second next after holds continues state
    obtain ⟨result, ran, alike⟩ := holds state
    obtain ⟨output, ranNext, outputsAlike⟩ := continues first result alike state
    exact ⟨output, (bind_of_ran ran).trans ranNext, outputsAlike⟩

/-- Over a state that it leaves as it is a pure expander gives the same nodes. -/
theorem expandWithin_withState {σ : Type} (expander : Expander Id) (levels : Nat)
    (collection : Option String) (context : Context) (answer : Answer) (state : σ) :
    (expander.withState σ).expandWithin levels collection context answer state =
      (expander.expandWithin levels collection context answer, state) := by
  have corresponds :
      Corresponds (keepsState σ) Likeness.exact expander (expander.withState σ) :=
    ⟨rfl, rfl, fun resource context state => ⟨_, rfl, rfl⟩⟩
  obtain ⟨node, ran, same⟩ :=
    corresponds.expandWithin levels collection context answer state
  rw [ran, same]

/-- A pure expander has derivations that start where a request starts. -/
theorem expands_withState (expander : Expander Id) (maxDepth : Nat)
    (collection : Option String) (context : Context) (answer : Answer) :
    ∃ node visits,
      Expands (expander.withState Unit) maxDepth (.start collection context) answer () node
        visits () := by
  obtain ⟨node, visits, final, expands⟩ :=
    ends_within (.start collection context) (Nat.zero_le maxDepth) answer ()
  exact ⟨node, visits, expands⟩

/-- A derivation of a pure expander gives the node that it computes. -/
theorem Expands.pure {expander : Expander Id} {maxDepth : Nat} {collection : Option String}
    {context : Context} {answer : Answer} {node : Node} {visits : List Visit}
    (expands :
      Expands (expander.withState Unit) maxDepth (.start collection context) answer () node
        visits ()) :
    expander.expandWithin maxDepth collection context answer = node := by
  have ran := expands.ran (Nat.zero_add maxDepth)
  rw [expandWithin_withState] at ran
  exact (Prod.mk.inj ran).1

/-- In the nodes of an expansion all names ascend. -/
theorem Arises.isOrdered {σ : Type} {expander : Expander (StateM σ)} {maxDepth : Nat}
    {frame : Frame} {node : Node} (arises : Arises expander maxDepth frame node) :
    node.IsOrdered := by
  intro steps root projection embedded related isInlined omitted found
  obtain ⟨inner, original, _, ⟨answer, state, visits, final, expands⟩, isMarked, _⟩ :=
    arises.at? found
  obtain ⟨wasInlined, rfl, _⟩ := Node.mark_eq_entity isMarked.symm
  cases expands with
  | exhausted => exact ⟨Fields.ascending_nil, Fields.ascending_nil⟩
  | entity within runs others =>
      exact ⟨(Branch.resolved_ascends _).mapValues Node.inlined, Branch.resolved_ascends _⟩

/--
The limit on the levels only truncates.  A pure executor expands an answer with fewer levels
to what it expands it to with more levels, except that the entities behind as many branches
as there are levels have nothing embedded, related or omitted.  So more levels change nothing
if no entity is that deep, and the pages within both limits are the same, with their sources.
-/
theorem expandWithin_truncates (expander : Expander Id) {levels more : Nat}
    (fewer : levels ≤ more) (collection : Option String) (context : Context)
    (answer : Answer) :
    expander.expandWithin levels collection context answer =
        Node.truncate levels (expander.expandWithin more collection context answer) ∧
      (Node.EndsAbove levels (expander.expandWithin levels collection context answer) →
        expander.expandWithin more collection context answer =
          expander.expandWithin levels collection context answer) ∧
      ∀ steps, (Node.crossed steps).length ≤ levels →
        (Node.at? (expander.expandWithin levels collection context answer) steps).bind
            Node.pageInfo? =
          (Node.at? (expander.expandWithin more collection context answer) steps).bind
            Node.pageInfo? := by
  obtain ⟨deep, visits, expands⟩ := expander.expands_withState more collection context answer
  obtain ⟨calls, shallow⟩ := expands.truncate fewer
  have deepEq := expands.pure
  have truncated :
      expander.expandWithin levels collection context answer =
        Node.truncate levels (expander.expandWithin more collection context answer) := by
    rw [deepEq]
    exact shallow.pure
  refine ⟨truncated, fun endsAbove => ?_, fun steps within => ?_⟩
  · have isOrdered : Node.IsOrdered (expander.expandWithin more collection context answer) := by
      rw [deepEq]
      exact Arises.isOrdered ⟨answer, (), visits, (), expands⟩
    rw [truncated] at endsAbove ⊢
    exact (Node.truncate_eq_self levels _ endsAbove.of_truncate isOrdered).symm
  · rw [truncated]
    exact Node.page_truncate _ steps within

/-- Knows a site and its manager, and nothing else. -/
def siteDirectory : Expander Id where
  locator := (Demo.register {} Demo.api).locator
  api := Demo.api
  execute _ context :=
    match context.entityId with
    | some "site" => .ok (some (.entity (.site ⟨"site", "Legal", .hidden, some "bob"⟩)))
    | some "bob" => .ok (some (.entity (.person ⟨"bob", "Bob", "Stone", "bob@example.com"⟩)))
    | _ => .ok none

/-- A list with a document of a site. -/
def siteDocuments : Answer :=
  .page ⟨{}, false, some 1, none⟩
    [.entity (.document ⟨some "plan", "plan.txt", "text/plain", 1024, none, some "site"⟩)]

/-- Asks for the site as the source of a list. -/
def sourceContext : Context where
  entityId := some "site"
  includeSource := true

/--
With two levels the manager of the site of a document is shown, with one level only the
site; the site is the source of the list in both cases.
-/
theorem expandWithin_truncates_siteDocuments :
    1 ≤ 2 ∧
      (∃ manager,
        (siteDirectory.expandWithin 2 (some "sites") sourceContext siteDocuments).at?
          [.item 0, .embedded "site", .embedded "manager"] = some manager) ∧
      (siteDirectory.expandWithin 1 (some "sites") sourceContext siteDocuments).at?
        [.item 0, .embedded "site", .embedded "manager"] = none ∧
      siteDirectory.expandWithin 1 (some "sites") sourceContext siteDocuments =
        Node.truncate 1
          (siteDirectory.expandWithin 2 (some "sites") sourceContext siteDocuments) ∧
      (Node.at? (siteDirectory.expandWithin 1 (some "sites") sourceContext siteDocuments)
          []).bind Node.pageInfo? =
        (Node.at? (siteDirectory.expandWithin 2 (some "sites") sourceContext siteDocuments)
          []).bind Node.pageInfo? := by
  obtain ⟨truncated, _, samePages⟩ :=
    expandWithin_truncates siteDirectory (by decide : 1 ≤ 2) (some "sites") sourceContext
      siteDocuments
  exact ⟨by decide, ⟨_, rfl⟩, rfl, truncated, samePages [] (by decide)⟩

end Expander

end ContentApi
