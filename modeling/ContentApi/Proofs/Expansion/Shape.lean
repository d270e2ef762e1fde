import ContentApi.Proofs.Expansion.Places

/-!
# The shape of a response

Expanding keeps the shape of an answer: taken back to the entities that they stand for, the
nodes are the answer again, page by page and item by item, however the branches go.  Only the
source of a page may be another one.  Each page of the answer comes to its source by one of
four rules (`HasSource`), and executes at most the resource of the addressed entity for it
(`expand_keepsShape`).
-/

namespace ContentApi

/-! ## Pages in answers -/

namespace Answer

/-- The item of a page with an index. -/
def item? (answer : Answer) (index : Nat) : Option Answer :=
  match answer with
  | .page _ items => items[index]?
  | _ => none

/-- The part of an answer that some indexes lead to, through pages only. -/
def at? (answer : Answer) (indexes : List Nat) : Option Answer :=
  indexes.foldlM item? answer

theorem at?_cons (answer : Answer) (index : Nat) (rest : List Nat) :
    answer.at? (index :: rest) = (answer.item? index).bind (·.at? rest) :=
  List.foldlM_cons

mutual

/-- The pages that are reached through pages, each in front of those in it. -/
def pages : Answer → List PageInfo
  | .page info items => info :: pagesOfItems items
  | _ => []

/-- The pages of some items. -/
def pagesOfItems : List Answer → List PageInfo
  | [] => []
  | item :: rest => pages item ++ pagesOfItems rest

end

mutual

/-- The answer with all its pages, but without their sources. -/
def sourceless : Answer → Answer
  | .page info items => .page { info with source := none } (sourcelessItems items)
  | other => other

/-- `sourceless` on every item. -/
def sourcelessItems : List Answer → List Answer
  | [] => []
  | item :: rest => sourceless item :: sourcelessItems rest

end

end Answer

namespace Node

mutual

/-- The answer that a node stands for, without what was embedded or is related. -/
def answer : Node → Answer
  | .scalar value => .scalar value
  | .sequence items => .sequence items
  | .page info items => .page info (answers items)
  | .entity root _ _ _ _ _ => .entity root

/-- The answers that some nodes stand for. -/
def answers : List Node → List Answer
  | [] => []
  | item :: rest => answer item :: answers rest

end

end Node

/-- The entity that a reply consists of, if it consists of one. -/
def Reply.entity? : Reply → Option Entity
  | .ok (some (.entity root)) => some root
  | _ => none

namespace Expander

variable {σ : Type} {expander : Expander (StateM σ)} {maxDepth : Nat} {frame : Frame}

/-! ## Keeping the shape -/

mutual

/-- What is expanded stands for the answer that it was expanded from. -/
theorem Expands.sourceless_answer {answer : Answer} {state final : σ} {node : Node}
    {visits : List Visit} :
    Expands expander maxDepth frame answer state node visits final →
    node.answer.sourceless = answer.sourceless
  | .scalar _ _ => rfl
  | .sequence _ _ => rfl
  | .page _ expands => by
      rw [Node.answer, Answer.sourceless, Answer.sourceless, expands.sourceless_answers]
  | .exhausted _ _ _ => rfl
  | .entity _ _ _ => rfl

theorem ExpandsItems.sourceless_answers {items : List Answer} {state final : σ}
    {nodes : List Node} {visits : List Visit} :
    ExpandsItems expander maxDepth frame items state nodes visits final →
    Answer.sourcelessItems (Node.answers nodes) = Answer.sourcelessItems items
  | .nil _ => rfl
  | .cons first rest => by
      rw [Node.answers, Answer.sourcelessItems, Answer.sourcelessItems,
        first.sourceless_answer, rest.sourceless_answers]

end

/-! ## The source of a page -/

/-- The execution for the source of a page, if the context asks for one that is not known. -/
def sourceLookup? (expander : Expander (StateM σ)) (frame : Frame) (info : PageInfo) :
    Option Visit :=
  if frame.context.includeSource ∧ info.source.isNone then
    (frame.collection.bind fun collection =>
        expander.locator.collection? expander.api collection .get).map fun resource =>
      ⟨⟨resource, frame.context.branch none frame.context.entityId⟩, frame.place ++ [none]⟩
  else none

theorem sourceLookup?_eq (info : PageInfo) :
    expander.sourceLookup? frame info =
      if frame.context.includeSource ∧ info.source.isNone then
        (frame.collection.bind expander.collection?).map
          (frame.branch none frame.context.entityId).visit
      else none :=
  rfl

/--
The source that a page comes to from a state on, and the executions that are made for it.  The
collection that the request addressed is executed at most once for it, with the id of the entity
that the request addressed; what is executed behind that serves the branches of the entity that
it gave.
-/
inductive HasSource (expander : Expander (StateM σ)) (frame : Frame) (info : PageInfo)
    (state : σ) : Option Entity → List Visit → Prop where
  | unasked (unasked : frame.context.includeSource = false) :
      HasSource expander frame info state none []
  | known {source : Entity} (asked : frame.context.includeSource = true)
      (known : info.source = some source) :
      HasSource expander frame info state (some source) []
  | unlocated (asked : frame.context.includeSource = true) (unknown : info.source = none)
      (nowhere : (frame.collection.bind fun collection =>
        expander.locator.collection? expander.api collection .get) = none) :
      HasSource expander frame info state none []
  | executed {resource : Resource} {inner : Context} {reply : Reply} {nested : List Visit}
      (asked : frame.context.includeSource = true) (unknown : info.source = none)
      (located : (frame.collection.bind fun collection =>
        expander.locator.collection? expander.api collection .get) = some resource)
      (isInner : inner = frame.context.branch none frame.context.entityId)
      (sameEntity : inner.entityId = frame.context.entityId)
      (replied : (expander.execute resource inner state).1 = reply)
      (below : ∀ visit ∈ nested,
        visit.IsBelow (frame.branch none frame.context.entityId)) :
      HasSource expander frame info state reply.entity?
        (⟨⟨resource, inner⟩, frame.place ++ [none]⟩ :: nested)

/-- A branch executes its own resource first, and then only for branches further down. -/
theorem RunsBranch.visits_eq {key entityId : Option String} {resource : Resource}
    {state final : σ} {outcome : Outcome} {visits : List Visit}
    (runs : RunsBranch expander maxDepth frame key resource entityId state outcome visits
      final) :
    ∃ nested, visits = (frame.branch key entityId).visit resource :: nested ∧
      ∀ visit ∈ nested, visit.IsBelow (frame.branch key entityId) := by
  cases runs with
  | failed => exact ⟨[], rfl, List.forall_mem_nil _⟩
  | empty => exact ⟨[], rfl, List.forall_mem_nil _⟩
  | answered _ expands => exact ⟨_, rfl, expands.visited⟩

/-- The source that a branch gives is the entity that its resource replies with. -/
theorem RunsBranch.sourceRoot?_eq {key entityId : Option String} {resource : Resource}
    {state final : σ} {outcome : Outcome} {visits : List Visit}
    (runs : RunsBranch expander maxDepth frame key resource entityId state outcome visits
      final) :
    sourceRoot? outcome =
      Reply.entity? (expander.execute resource (frame.branch key entityId).context state).1 := by
  cases runs with
  | failed executed =>
      rw [executed]
      rfl
  | empty executed =>
      rw [executed]
      rfl
  | answered executed expands =>
      rw [executed]
      cases expands <;> rfl

theorem FindsSource.hasSource {info : PageInfo} {state final : σ} {source : Option Entity}
    {visits : List Visit}
    (finds : FindsSource expander maxDepth frame info state source visits final) :
    HasSource expander frame info state source visits := by
  cases finds with
  | unasked _ _ unasked => exact .unasked unasked
  | known _ asked known => exact .known asked known
  | unlocated _ asked unknown nowhere => exact .unlocated asked unknown nowhere
  | executed asked unknown located runs =>
      rcases runs.visits_eq with ⟨nested, rfl, below⟩
      rw [runs.sourceRoot?_eq]
      exact .executed asked unknown located rfl rfl rfl below

/-! ## The pages of an answer -/

/-- An item is expanded between the items before it and the items behind it. -/
theorem ExpandsItems.split {items : List Answer} {state final : σ} {nodes : List Node}
    {visits : List Visit} {index : Nat} {item : Answer}
    (expands : ExpandsItems expander maxDepth frame items state nodes visits final)
    (found : items[index]? = some item) :
    ∃ node before own later final,
      nodes[index]? = some node ∧ visits = before ++ (own ++ later) ∧
      Expands expander maxDepth frame item (expander.stateAfter state before) node own
        final := by
  induction items generalizing state nodes visits index with
  | nil => cases found
  | cons first rest ih =>
      cases expands with
      | @cons _ _ _ node nodes early late _ between _ expandsFirst expandsRest =>
          cases index with
          | zero =>
              cases found
              exact ⟨node, [], early, late, between, rfl, rfl, expandsFirst⟩
          | succ index =>
              rcases ih expandsRest found with
                ⟨node, before, own, later, final, foundNode, rfl, expandsItem⟩
              refine ⟨node, early ++ before, own, later, final, foundNode,
                (List.append_assoc _ _ _).symm, ?_⟩
              rw [stateAfter_append, expandsFirst.stateAfter_eq]
              exact expandsItem

/-- A page comes to its source in the state that the executions before it have left. -/
theorem Expands.hasSource {answer : Answer} {state final : σ} {node : Node}
    {visits : List Visit} {indexes : List Nat} {info : PageInfo} {items : List Answer}
    (expands : Expands expander maxDepth frame answer state node visits final)
    (found : answer.at? indexes = some (.page info items)) :
    ∃ source nodes before own later,
      node.at? (indexes.map .item) = some (.page { info with source } nodes) ∧
      visits = before ++ (own ++ later) ∧
      HasSource expander frame info (expander.stateAfter state before) source own := by
  induction indexes generalizing answer state node visits final with
  | nil =>
      cases found
      cases expands with
      | @page _ _ _ source nodes early late _ _ _ finds _ =>
          exact ⟨source, nodes, [], early, late, rfl, rfl, finds.hasSource⟩
  | cons index rest ih =>
      rw [Answer.at?_cons] at found
      rcases Option.bind_eq_some_iff.mp found with ⟨item, isItem, foundInside⟩
      cases expands with
      | scalar => cases isItem
      | sequence => cases isItem
      | exhausted => cases isItem
      | entity => cases isItem
      | @page _ _ _ _ _ early _ _ _ _ finds expandsItems =>
          rcases expandsItems.split isItem with
            ⟨node, before, own, later, final, foundNode, rfl, expandsItem⟩
          rcases ih expandsItem foundInside with
            ⟨source, nodes, inside, ownInside, laterInside, foundPage, rfl, hasSource⟩
          refine ⟨source, nodes, early ++ (before ++ inside), ownInside, laterInside ++ later,
            ?_, ?_, ?_⟩
          · exact Node.at?_of_child? foundNode foundPage
          · simp only [List.append_assoc]
          · -- Before the page its own source was found, and the items in front were expanded.
            rw [stateAfter_append, finds.stateAfter_eq, stateAfter_append]
            exact hasSource

/-! ## The executions for sources -/

/-- The executions that are made for the sources of pages in a frame. -/
def sourceVisits (frame : Frame) (visits : List Visit) : List Visit :=
  visits.filter fun visit => visit.place = frame.place ++ [none]

theorem sourceVisits_append (early late : List Visit) :
    sourceVisits frame (early ++ late) = sourceVisits frame early ++ sourceVisits frame late :=
  List.filter_append early late

/-- What is executed below a branch is executed for the branches of an entity in it. -/
theorem sourceVisits_of_isBelow {key entityId : Option String} {visits : List Visit}
    (below : ∀ visit ∈ visits, visit.IsBelow (frame.branch key entityId)) :
    sourceVisits frame visits = [] := by
  rw [sourceVisits, List.filter_eq_nil_iff]
  intro visit member
  rcases below visit member with ⟨next, place, inner, resource, descends, rfl⟩
  have isPlace : (inner.visit resource).place = (frame.place ++ [key]) ++ next :: place :=
    descends.place_eq
  simp [isPlace]

/-- A branch is executed for the source of a page if it has no key. -/
theorem RunsBranch.sourceVisits_eq {key entityId : Option String} {resource : Resource}
    {state final : σ} {outcome : Outcome} {visits : List Visit}
    (runs : RunsBranch expander maxDepth frame key resource entityId state outcome visits
      final) :
    sourceVisits frame visits =
      if key = none then [(frame.branch key entityId).visit resource] else [] := by
  rcases runs.visits_eq with ⟨nested, rfl, below⟩
  have isPlace : ((frame.branch key entityId).visit resource).place = frame.place ++ [key] :=
    rfl
  have nothing := sourceVisits_of_isBelow below
  rw [sourceVisits] at nothing ⊢
  rw [List.filter_cons, nothing, isPlace]
  simp

theorem RunsBranches.sourceVisits_eq {branches : List Branch} {state final : σ}
    {outcomes : List (String × Outcome)} {visits : List Visit}
    (runs : RunsBranches expander maxDepth frame branches state outcomes visits final) :
    sourceVisits frame visits = [] := by
  induction branches generalizing state outcomes visits with
  | nil =>
      cases runs
      rfl
  | cons branch rest ih =>
      cases runs with
      | cons first others =>
          rw [sourceVisits_append, first.sourceVisits_eq, ih others]
          rfl

theorem FindsSource.sourceVisits_eq {info : PageInfo} {state final : σ}
    {source : Option Entity} {visits : List Visit}
    (finds : FindsSource expander maxDepth frame info state source visits final) :
    sourceVisits frame visits = (expander.sourceLookup? frame info).toList := by
  rw [sourceLookup?_eq]
  cases finds with
  | unasked _ _ unasked => simp [unasked, sourceVisits]
  | known _ asked known => simp [known, sourceVisits]
  | unlocated _ asked unknown nowhere => simp [nowhere, sourceVisits]
  | executed asked unknown located runs =>
      rw [runs.sourceVisits_eq]
      simp [asked, unknown, located]

mutual

/-- For every page in turn the resource of the addressed entity is executed if need be. -/
theorem Expands.sourceVisits_eq {answer : Answer} {state final : σ} {node : Node}
    {visits : List Visit} :
    Expands expander maxDepth frame answer state node visits final →
    sourceVisits frame visits = answer.pages.filterMap (expander.sourceLookup? frame)
  | .scalar _ _ => rfl
  | .sequence _ _ => rfl
  | .page finds expands => by
      rw [sourceVisits_append, finds.sourceVisits_eq, expands.sourceVisits_eq, Answer.pages,
        List.filterMap_cons]
      cases expander.sourceLookup? frame _ <;> rfl
  | .exhausted _ _ _ => rfl
  | .entity _ runs others => by
      rw [sourceVisits_append, runs.sourceVisits_eq, others.sourceVisits_eq]
      rfl

theorem ExpandsItems.sourceVisits_eq {items : List Answer} {state final : σ}
    {nodes : List Node} {visits : List Visit} :
    ExpandsItems expander maxDepth frame items state nodes visits final →
    sourceVisits frame visits =
      (Answer.pagesOfItems items).filterMap (expander.sourceLookup? frame)
  | .nil _ => rfl
  | .cons first rest => by
      rw [sourceVisits_append, first.sourceVisits_eq, rest.sourceVisits_eq,
        Answer.pagesOfItems, List.filterMap_append]

end

/--
Expanding keeps the shape of an answer, whatever its executions give: the node stands for the
answer again, but for the sources of pages.  Each page of the answer is found in the node under
the same indexes, with everything that was known about it, and with the source to which it
comes in the state that the executions before it have left.  For sources nothing is executed
beyond that: a page whose source has to be looked up adds one execution, and other pages none.
-/
theorem expand_keepsShape (expander : Expander (StateM σ)) (maxDepth : Nat)
    (collection : Option String) (context : Context) (answer : Answer) (state : σ) :
    ∃ node visits final,
      Expands expander maxDepth (.start collection context) answer state node visits final ∧
      expander.expand maxDepth collection context (some answer) state = (some node, final) ∧
      (∀ trace,
        expander.traced.expand maxDepth collection context (some answer) trace state =
          ((some node, trace ++ visits.map Visit.toCall), final)) ∧
      node.answer.sourceless = answer.sourceless ∧
      (∀ indexes info items, answer.at? indexes = some (.page info items) →
        ∃ source nodes before own later,
          node.at? (indexes.map .item) = some (.page { info with source } nodes) ∧
          visits = before ++ (own ++ later) ∧
          HasSource expander (.start collection context) info
            (expander.stateAfter state before) source own) ∧
      (visits.filter fun visit => visit.place = [none]) =
        answer.pages.filterMap (expander.sourceLookup? (.start collection context)) := by
  rcases exists_expands expander maxDepth collection context answer state with
    ⟨node, visits, final, expands, ran, noted⟩
  refine ⟨node, visits, final, expands, ran, noted, expands.sourceless_answer, ?_,
    expands.sourceVisits_eq⟩
  intro indexes info items found
  exact expands.hasSource found

end Expander

end ContentApi
