import ContentApi.Proofs.Expansion.Outcomes
import ContentApi.Proofs.Expansion.Tracing

/-!
# What the branches of an entity amount to

Expanding an entity executes its branches one after another, each with the context of a
branch, and each is expanded before the next one is executed (`Runs`).  What was shown and
what was left out can be told from these runs alone, and no other execution takes place
(`expandWithin_accounts`).  The executor may be any function of a state of its own.
-/

namespace ContentApi

/-- The context with which a branch is executed. -/
def Branch.context (branch : Branch) (parent : Context) : Context :=
  parent.branch (parent.relations.get? branch.name) branch.entityId

/-- One branch with what came of it. -/
structure BranchRun where
  branch : Branch
  /-- The reply of the executor. -/
  reply : Reply
  /-- What the answer was expanded to, if there was an answer. -/
  node : Option Node
  /-- The executions that were made while the answer was expanded. -/
  nested : Trace
  expanded : node.isSome = reply.answer?.isSome

namespace BranchRun

/-- The executions of a run: that of the branch itself, and those below it. -/
def calls (run : BranchRun) (parent : Context) : Trace :=
  ⟨run.branch.resource, run.branch.context parent⟩ :: run.nested

/-- What a run contributes to the result. -/
def outcome (run : BranchRun) : Outcome :=
  match run.reply with
  | .error error => .error (.ofError error)
  | .ok _ => .ok run.node

/-- The outcome of a run under the name of its branch. -/
def named (run : BranchRun) : String × Outcome :=
  (run.branch.name, run.outcome)

/-- What is noted of a failed run: its name, the reason, and whether it was expected. -/
def failure? (run : BranchRun) : Option (String × String × Bool) :=
  match run.reply with
  | .ok _ => none
  | .error error =>
      let isExpected :=
        match error with
        | .notFound _ => true
        | .permissionDenied _ => true
        | _ => false
      some (run.branch.name, (BranchFault.ofError error).message, isExpected)

/-- The node of the last run of a name that gave one. -/
def lastNode? (name : String) (runs : List BranchRun) : Option Node :=
  ((runs.filter fun run => run.branch.name = name).filterMap BranchRun.node).getLast?

end BranchRun

/-! ## Runs -/

namespace Expander

section Runs

variable {σ : Type} (expander : Expander (StateM σ)) (levels : Nat)

/--
What becomes of a reply, from the state behind the execution: only an answer is expanded,
with so many levels of branches, and its executions are those that the trace gains.
-/
inductive Settles (inner : Context) : Reply → σ → Option Node → Trace → σ → Prop where
  | failed (error : ApiError) (state : σ) : Settles inner (.error error) state none [] state
  | empty (state : σ) : Settles inner (.ok none) state none [] state
  | answered {answer : Answer} {state final : σ} {node : Node} {nested : Trace} :
      expander.expandWithin levels none inner answer state = (node, final) →
      (∀ trace,
        expander.traced.expandWithin levels none inner answer trace state =
          ((node, trace ++ nested), final)) →
      Settles inner (.ok (some answer)) state (some node) nested final

/-- One branch is executed for its entity, and its reply is settled. -/
def RunsOnce (parent : Context) (state : σ) (run : BranchRun) (settled : σ) : Prop :=
  ∃ inner replied,
    inner = run.branch.context parent ∧ inner.entityId = run.branch.entityId ∧
    expander.execute run.branch.resource inner state = (run.reply, replied) ∧
    Settles expander levels inner run.reply replied run.node run.nested settled

/-- Branches are run in a row, each one settled before the next one is executed. -/
inductive Runs (parent : Context) : σ → List BranchRun → σ → Prop where
  | done (state : σ) : Runs parent state [] state
  | next {state settled final : σ} {run : BranchRun} {rest : List BranchRun} :
      RunsOnce expander levels parent state run settled →
      Runs parent settled rest final →
      Runs parent state (run :: rest) final

/-- Every reply is settled, by the plain expander and by the one that notes executions. -/
theorem exists_settles (branch : Branch) (inner : Context) (reply : Reply) (state : σ) :
    ∃ (run : BranchRun) (final : σ),
      run.branch = branch ∧ run.reply = reply ∧
      Settles expander levels inner reply state run.node run.nested final ∧
      settle (expander.expandWithin levels none) inner reply state = (run.outcome, final) ∧
      ∀ trace,
        settle (expander.traced.expandWithin levels none) inner reply trace state =
          ((run.outcome, trace ++ run.nested), final) := by
  cases reply with
  | error error =>
      refine ⟨⟨branch, .error error, none, [], rfl⟩, state, rfl, rfl, ?_⟩
      refine ⟨.failed error state, rfl, ?_⟩
      intro trace
      rw [List.append_nil]
      rfl
  | ok answer =>
      cases answer with
      | none =>
          refine ⟨⟨branch, .ok none, none, [], rfl⟩, state, rfl, rfl, ?_⟩
          refine ⟨.empty state, rfl, ?_⟩
          intro trace
          rw [List.append_nil]
          rfl
      | some answer =>
          obtain ⟨node, nested, final, ran, noted⟩ :=
            expander.expandWithin_traced levels none inner answer state
          refine ⟨⟨branch, .ok (some answer), some node, nested, rfl⟩, final, rfl, rfl, ?_⟩
          refine ⟨.answered ran noted, bind_of_ran ran, ?_⟩
          intro trace
          exact bind_of_noted (noted trace)

/-- A branch is run once, and its executions are what the trace gains. -/
theorem exists_runsOnce (parent : Context) (branch : Branch) (state : σ) :
    ∃ run settled,
      run.branch = branch ∧
      RunsOnce expander levels parent state run settled ∧
      expander.runBranch (expander.expandWithin levels none) parent (some branch.name)
          branch.resource branch.entityId state = (run.outcome, settled) ∧
      ∀ trace,
        expander.traced.runBranch (expander.traced.expandWithin levels none) parent
            (some branch.name) branch.resource branch.entityId trace state =
          ((run.outcome, trace ++ run.calls parent), settled) := by
  obtain ⟨reply, replied, executed⟩ :
      ∃ reply replied,
        expander.execute branch.resource (branch.context parent) state = (reply, replied) :=
    ⟨_, _, rfl⟩
  obtain ⟨run, settled, rfl, rfl, settles, ran, noted⟩ :=
    exists_settles expander levels branch (branch.context parent) reply replied
  refine ⟨run, settled, rfl, ⟨_, replied, rfl, rfl, executed, settles⟩, ?_, ?_⟩
  · rw [runBranch_eq, ← ran]
    exact bind_of_ran executed
  · intro trace
    have executedNoted :=
      expander.execute_traced run.branch.resource (run.branch.context parent) trace state
    rw [executed] at executedNoted
    rw [runBranch_eq, BranchRun.calls, List.append_cons, ← noted]
    exact bind_of_noted executedNoted

/-- Running branches one after another is a row of runs, one for each branch. -/
theorem exists_runs (parent : Context) (branches : List Branch) (state : σ) :
    ∃ runs final,
      runs.map BranchRun.branch = branches ∧
      Runs expander levels parent state runs final ∧
      expander.runBranches (expander.expandWithin levels none) parent branches state =
        (runs.map BranchRun.named, final) ∧
      ∀ trace,
        expander.traced.runBranches (expander.traced.expandWithin levels none) parent
            branches trace state =
          ((runs.map BranchRun.named, trace ++ runs.flatMap (·.calls parent)), final) := by
  induction branches generalizing state with
  | nil =>
      refine ⟨[], state, rfl, .done state, rfl, ?_⟩
      intro trace
      rw [List.flatMap_nil, List.append_nil]
      rfl
  | cons branch rest ih =>
      obtain ⟨run, settled, ofBranch, once, ran, noted⟩ :=
        exists_runsOnce expander levels parent branch state
      rcases ih settled with ⟨runs, final, ofRest, restRuns, restRan, restNoted⟩
      have sameName : run.branch.name = branch.name := by
        rw [ofBranch]
      refine ⟨run :: runs, final, ?_, .next once restRuns, ?_, ?_⟩
      · rw [List.map_cons, ofBranch, ofRest]
      · rw [runBranches, bind_of_ran ran, bind_of_ran restRan, List.map_cons,
          BranchRun.named, sameName]
        rfl
      · intro trace
        rw [runBranches, bind_of_noted (noted trace), bind_of_noted (restNoted _),
          List.map_cons, BranchRun.named, sameName, List.flatMap_cons, List.append_assoc]
        rfl

end Runs

end Expander

/-! ## Results -/

namespace Branch

/-- Among the nodes to show, a name has the node of its last run that gave one. -/
theorem get?_resolved (name : String) (runs : List BranchRun) :
    Fields.get? name (resolved (runs.map BranchRun.named)) =
      BranchRun.lastNode? name runs := by
  rw [resolved, Fields.get?_insertAll, Fields.get?_reverse, Fields.get?, Option.or_none,
    BranchRun.lastNode?]
  -- Both sides take the last of some values, one from each run at most.
  rw [List.filterMap_map, List.filter_filterMap, List.map_filterMap, List.filterMap_filter]
  congr 2
  funext run
  rcases run with ⟨branch, reply, found, nested, expanded⟩
  cases reply with
  | error error =>
      have nothing : found = none := by
        simpa [Reply.answer?] using expanded
      simp [BranchRun.named, BranchRun.outcome, nothing]
  | ok answer =>
      cases found with
      | none => simp [BranchRun.named, BranchRun.outcome]
      | some node =>
          by_cases sameName : branch.name = name
          · simp [BranchRun.named, BranchRun.outcome, sameName]
          · simp [BranchRun.named, BranchRun.outcome, sameName]

/-- The omissions are the failures of the runs in their order. -/
theorem omissions_named (runs : List BranchRun) :
    (omissions (runs.map BranchRun.named)).map
        (fun omission => (omission.name, omission.reason, omission.isExpected)) =
      runs.filterMap BranchRun.failure? := by
  rw [omissions, List.filterMap_map, List.map_filterMap]
  congr 1
  funext run
  rcases run with ⟨branch, reply, found, nested, expanded⟩
  cases reply with
  | error error => cases error <;> rfl
  | ok answer => rfl

end Branch

/-! ## Entities -/

namespace Expander

section Entities

variable {σ : Type} (expander : Expander (StateM σ))

/-- The runs of the branches of an entity, and what its node shows of them. -/
structure Accounts (collection : Option String) (context : Context) (entity : Entity)
    (embedRuns relationRuns : List BranchRun) (embedded related : Fields Node)
    (omitted : List Omission) : Prop where
  /-- There is a run for each embed with an id whose collection can be read. -/
  embeds :
    embedRuns.map BranchRun.branch =
      entity.embeds.filterMap fun embed =>
        match expander.locator.collection? expander.api embed.collection .get, embed.id with
        | some resource, some id => some ⟨embed.key, resource, some id⟩
        | _, _ => none
  /-- There is a run for each relation that is asked for and found in the collection. -/
  relations :
    relationRuns.map BranchRun.branch =
      match collection with
      | none => []
      | some collection =>
          if context.relations.isEmpty then []
          else
            (expander.locator.relations expander.api collection context.relations.nameSet
              .get).fields.map fun (name, resource) => ⟨name, resource, entity.id⟩
  relationsAscend :
    relationRuns.Pairwise fun earlier later => earlier.branch.name < later.branch.name
  embeddedAscend : Fields.Ascending embedded
  relatedAscend : Fields.Ascending related
  /-- A name shows what its last embed gave, marked as standing inside the entity. -/
  embedded : ∀ name,
    Fields.get? name embedded = (BranchRun.lastNode? name embedRuns).map Node.inlined
  related : ∀ name, Fields.get? name related = BranchRun.lastNode? name relationRuns
  omitted :
    omitted.map (fun omission => (omission.name, omission.reason, omission.isExpected)) =
      (embedRuns ++ relationRuns).filterMap BranchRun.failure?

theorem embedBranches_eq (entity : Entity) :
    expander.embedBranches entity =
      entity.embeds.filterMap fun embed =>
        match expander.locator.collection? expander.api embed.collection .get, embed.id with
        | some resource, some id => some ⟨embed.key, resource, some id⟩
        | _, _ => none := by
  unfold embedBranches collection?
  congr 1
  funext embed
  cases expander.locator.collection? expander.api embed.collection .get with
  | none => rfl
  | some resource => cases embed.id <;> rfl

/-- The relations of an entity are visited in ascending order of name. -/
theorem relationBranches_ascend (collection : Option String) (context : Context)
    (entity : Entity) :
    (expander.relationBranches collection context entity).Pairwise
      fun earlier later => earlier.name < later.name := by
  unfold relationBranches
  split
  · exact .nil
  · split
    · exact .nil
    · exact List.Pairwise.map _ (fun _ _ less => less) (Dictionary.ascending _)

/-- Runs of the branches of an entity account for its node. -/
theorem accounts_of_branches {collection : Option String} {context : Context}
    {entity : Entity} {embedRuns relationRuns : List BranchRun}
    (ofEmbeds : embedRuns.map BranchRun.branch = expander.embedBranches entity)
    (ofRelations : relationRuns.map BranchRun.branch =
      expander.relationBranches collection context entity) :
    Accounts expander collection context entity embedRuns relationRuns
      (Branch.inlined (Branch.resolved (embedRuns.map BranchRun.named)))
      (Branch.resolved (relationRuns.map BranchRun.named))
      (Branch.omissions (embedRuns.map BranchRun.named) ++
        Branch.omissions (relationRuns.map BranchRun.named)) where
  embeds := by
    rw [ofEmbeds, embedBranches_eq]
  relations := by
    rw [ofRelations]
    rfl
  relationsAscend := by
    have ascending := expander.relationBranches_ascend collection context entity
    rw [← ofRelations, List.pairwise_map] at ascending
    exact ascending
  embeddedAscend := (Branch.resolved_ascends _).mapValues Node.inlined
  relatedAscend := Branch.resolved_ascends _
  embedded := by
    intro name
    rw [Branch.inlined_eq_mapValues, Fields.get?_mapValues, Branch.get?_resolved]
  related := by
    intro name
    rw [Branch.get?_resolved]
  omitted := by
    rw [List.map_append, Branch.omissions_named, Branch.omissions_named,
      List.filterMap_append]

/--
Expanding an entity is running its branches: the embeds in the order of the entity, then the
relations in the order of their names, each executed once and expanded before the next.  The
node shows what the last run of each name gave and lists the failed runs in their order, and
the executions are those of the runs and no others.
-/
theorem expandWithin_accounts (levels : Nat) (collection : Option String)
    (context : Context) (entity : Entity) (state : σ) :
    ∃ embedRuns relationRuns between final embedded related omitted,
      Runs expander levels context state embedRuns between ∧
      Runs expander levels context between relationRuns final ∧
      Accounts expander collection context entity embedRuns relationRuns embedded related
        omitted ∧
      expander.expandWithin (levels + 1) collection context (.entity entity) state =
        (.entity entity context.projection embedded related false omitted, final) ∧
      ∀ trace,
        expander.traced.expandWithin (levels + 1) collection context (.entity entity)
            trace state =
          ((.entity entity context.projection embedded related false omitted,
            trace ++ (embedRuns ++ relationRuns).flatMap (·.calls context)), final) := by
  obtain ⟨embedRuns, between, ofEmbeds, embedsRun, embedsRan, embedsNoted⟩ :=
    exists_runs expander levels context (expander.embedBranches entity) state
  obtain ⟨relationRuns, final, ofRelations, relationsRun, relationsRan, relationsNoted⟩ :=
    exists_runs expander levels context
      (expander.relationBranches collection context entity) between
  refine ⟨embedRuns, relationRuns, between, final, _, _, _, embedsRun, relationsRun,
    accounts_of_branches expander ofEmbeds ofRelations, ?_, ?_⟩
  · rw [expandWithin, walk, if_pos rfl, expandEntity, bind_of_ran embedsRan,
      bind_of_ran relationsRan]
    rfl
  · intro trace
    have sameEmbeds : expander.traced.embedBranches entity = expander.embedBranches entity :=
      (expander.corresponds_traced.embedBranches entity).symm
    have sameRelations :
        expander.traced.relationBranches collection context entity =
          expander.relationBranches collection context entity :=
      (expander.corresponds_traced.relationBranches collection context entity).symm
    rw [expandWithin, walk, if_pos rfl, expandEntity, sameEmbeds, sameRelations,
      bind_of_noted (embedsNoted trace), bind_of_noted (relationsNoted _),
      List.flatMap_append, ← List.append_assoc]
    rfl

end Entities

end Expander

end ContentApi
