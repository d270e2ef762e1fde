import ContentApi.Proofs.Expansion.Executions
import ContentApi.Proofs.Service.Noninterference

/-!
# The entries of a response

A request that gets an answer gets it expanded as its response (`Replied.get_eq`).  The answer
is an entity or a listing, and the response is put together from the entries of that: the
entity itself, or each item of the listing.  Every entry is expanded on its own, over the store
as it is, since the service only reads (`Replied.exists_entries`).
-/

namespace ContentApi

open Expander (Expands ExpandsItems)

/-! ## Replies -/

namespace Store

variable {store : Store} {resource : Resource} {context : Context} {answer : Answer}

theorem entity_of_reply (isEntities : resource.kind = .entities)
    (replied : store.reply resource context = .ok (some answer)) :
    ∃ id entity, context.entityId = some id ∧
      store.readable? ⟨resource.key, id⟩ = some entity ∧ answer = .entity entity := by
  unfold reply at replied
  rw [isEntities] at replied
  cases addressed : context.entityId with
  | none => simp [addressed] at replied
  | some id =>
      cases found : store.read ⟨resource.key, id⟩ with
      | error error => simp [addressed, found, Except.map] at replied
      | ok entity =>
          have isAnswer : Answer.entity entity = answer := by
            simpa [addressed, found, Except.map] using replied
          refine ⟨id, entity, rfl, ?_, isAnswer.symm⟩
          rw [readable?, found, Except.toOption]

theorem listing_of_reply {collection : String}
    (isRelationship : resource.kind = .relationship collection)
    (replied : store.reply resource context = .ok (some answer)) :
    ∃ id, context.entityId = some id ∧ (store.readable? ⟨collection, id⟩).isSome ∧
      answer = (store.listing ⟨resource.key, ⟨collection, id⟩⟩ context.window).answer := by
  unfold reply at replied
  rw [isRelationship] at replied
  cases addressed : context.entityId with
  | none => simp [addressed] at replied
  | some id =>
      cases found : store.read ⟨collection, id⟩ with
      | error error => simp [addressed, found, Except.map] at replied
      | ok parent =>
          have isAnswer :
              (store.listing ⟨resource.key, ⟨collection, id⟩⟩ context.window).answer = answer := by
            simpa [addressed, found, Except.map] using replied
          refine ⟨id, rfl, ?_, isAnswer.symm⟩
          rw [readable?, found]
          rfl

end Store

/-! ## Entries -/

/-- An entity that a response shows, with its node and the executions that are made for it. -/
structure Entry where
  root : Entity
  node : Node
  calls : Trace

namespace Service

/-- What an answer in the response to a request is expanded to, with the executions made. -/
def ExpandsTo (service : Service) (store : Store) (collection : String) (context : Context)
    (answer : Answer) (node : Node) (calls : Trace) : Prop :=
  (service.expander Store.connection).traced.expandWithin service.settings.maxDepth
    (some collection) context answer [] store = ((node, calls), store)

/--
The entries of a response: the entity itself, or the items of a page, before which only its
source is looked up.
-/
inductive HasEntries (service : Service) (store : Store) (collection : String)
    (context : Context) : Answer → Node → Trace → List Entry → Prop where
  | entity (entry : Entry) :
      service.ExpandsTo store collection context (.entity entry.root) entry.node entry.calls →
      HasEntries service store collection context (.entity entry.root) entry.node entry.calls
        [entry]
  | page (info : PageInfo) (source : Option Entity) {search : Trace} {entries : List Entry} :
      (∀ call ∈ search, call.resource.kind = .entities) →
      (∀ entry ∈ entries,
        service.ExpandsTo store collection context (.entity entry.root) entry.node entry.calls) →
      HasEntries service store collection context
        (.page info (entries.map fun entry => .entity entry.root))
        (.page { info with source } (entries.map Entry.node))
        (search ++ entries.flatMap Entry.calls) entries

variable {service : Service} {settings : Settings} {store : Store} {collection : String}
variable {context : Context} {answer : Answer} {node : Node} {calls : Trace}

theorem onlyReads (service : Service) : (service.expander Store.connection).OnlyReads := by
  intro resource context store
  show (Store.connection.execute resource context store).2 = store
  rw [Store.execute_connection]

theorem findsEntities (settings : Settings) :
    ((ofSettings settings).expander Store.connection).FindsEntities := by
  intro name resource found
  exact (coherent_register.of_collection? found).2

/-- A derivation from the frame of a request gives what the service expands to. -/
theorem expandsTo_of_expands {visits : List Visit} {final : Store}
    (expands : Expands (service.expander Store.connection) service.settings.maxDepth
      (.start (some collection) context) answer store node visits final) :
    service.ExpandsTo store collection context answer node (visits.map Visit.toCall) := by
  obtain rfl := expands.keeps service.onlyReads
  exact expands.noted (Nat.zero_add _) []

theorem exists_expands (service : Service) (store : Store) (collection : String)
    (context : Context) (answer : Answer) :
    ∃ node visits,
      Expands (service.expander Store.connection) service.settings.maxDepth
        (.start (some collection) context) answer store node visits store := by
  have ends : Expander.Ends (service.expander Store.connection) service.settings.maxDepth
      (.start (some collection) context) :=
    Expander.ends_within _ (Nat.zero_le _)
  obtain ⟨node, visits, final, expands⟩ := ends answer store
  obtain rfl := expands.keeps service.onlyReads
  exact ⟨node, visits, expands⟩

/-- What the service expands to has a derivation. -/
theorem ExpandsTo.expands
    (expanded : service.ExpandsTo store collection context answer node calls) :
    ∃ visits, calls = visits.map Visit.toCall ∧
      Expands (service.expander Store.connection) service.settings.maxDepth
        (.start (some collection) context) answer store node visits store := by
  obtain ⟨derived, visits, expands⟩ :=
    service.exists_expands store collection context answer
  have same : ((derived, visits.map Visit.toCall), store) = ((node, calls), store) :=
    (expandsTo_of_expands expands).symm.trans expanded
  cases same
  exact ⟨visits, rfl, expands⟩

theorem exists_entries_of_items {items : List Entity} {nodes : List Node} {visits : List Visit}
    {final : Store}
    (expands : ExpandsItems (service.expander Store.connection) service.settings.maxDepth
      (.start (some collection) context) (items.map .entity) store nodes visits final) :
    ∃ entries : List Entry, entries.map Entry.root = items ∧ entries.map Entry.node = nodes ∧
      entries.flatMap Entry.calls = visits.map Visit.toCall ∧
      ∀ entry ∈ entries, service.ExpandsTo store collection context (.entity entry.root)
        entry.node entry.calls := by
  induction items generalizing nodes visits final with
  | nil =>
      cases expands
      exact ⟨[], rfl, rfl, rfl, List.forall_mem_nil _⟩
  | cons item rest ih =>
      cases expands with
      | @cons _ _ _ node _ early _ _ between _ first others =>
          obtain rfl := first.keeps service.onlyReads
          obtain ⟨entries, roots, isNodes, isCalls, expanded⟩ := ih others
          refine ⟨⟨item, node, early.map Visit.toCall⟩ :: entries, ?_, ?_, ?_, ?_⟩
          · rw [List.map_cons, roots]
          · rw [List.map_cons, isNodes]
          · rw [List.flatMap_cons, isCalls, List.map_append]
          · exact List.forall_mem_cons.mpr ⟨expandsTo_of_expands first, expanded⟩

theorem exists_entries_of_listing {settings : Settings} {listing : Listing}
    (expanded : (ofSettings settings).ExpandsTo store collection context listing.answer node
      calls) :
    ∃ entries, (ofSettings settings).HasEntries store collection context listing.answer node
      calls entries := by
  obtain ⟨visits, rfl, expands⟩ := expanded.expands
  cases expands with
  | page finds expands =>
      obtain rfl := finds.keeps (onlyReads _)
      obtain ⟨entries, roots, rfl, isCalls, expanded⟩ := exists_entries_of_items expands
      have isAnswer : listing.answer =
          .page listing.info (entries.map fun entry => .entity entry.root) := by
        rw [Listing.answer, ← roots, List.map_map]
        rfl
      refine ⟨entries, ?_⟩
      rw [isAnswer, List.map_append, ← isCalls]
      refine .page _ _ ?_ expanded
      exact List.forall_mem_map.mpr (finds.entities (findsEntities settings))

/-! ## Responses -/

theorem lift_succeeds {α : Type} {program : StateM Store α} {value : α} {behind : Store}
    (ran : program store = (value, behind)) :
    (ExceptT.lift program : ExceptT ApiError (StateM Store) α) store = (.ok value, behind) := by
  show (Except.ok (program store).1, (program store).2) = _
  rw [ran]

/-- A request gets an answer, which is then expanded. -/
structure Replied (service : Service) (store : Store) (collection id : String)
    (relation : Option String) (parameters : Parameters) (context : Context) (answer : Answer) :
    Prop where
  read : Context.ofRequest (some id) parameters = .ok context
  replied : ∃ resource, service.locate collection relation = .ok resource ∧
    store.reply resource context = .ok (some answer)

variable {id : String} {relation : Option String} {parameters : Parameters}

theorem ExpandsTo.ran (expanded : service.ExpandsTo store collection context answer node calls) :
    (service.expander Store.connection).expand service.settings.maxDepth (some collection)
      context (some answer) store = (some node, store) := by
  obtain ⟨visits, _, expands⟩ := expanded.expands
  rw [Expander.expand, map_eq_pure_bind]
  exact bind_of_ran (expands.ran (Nat.zero_add _))

namespace Replied

theorem get_eq
    (replied : service.Replied store collection id relation parameters context answer)
    (expanded : service.ExpandsTo store collection context answer node calls) :
    service.get Store.connection collection id relation parameters store =
      (body (some node), store) := by
  obtain ⟨read, resource, located, isReply⟩ := replied
  have executed : Store.connection.execute resource context store = (.ok (some answer), store) := by
    rw [store.execute_connection, isReply]
  unfold get
  rw [read, located]
  -- The parameters and the resource are found without the store.
  refine (Store.bind_of_succeeds rfl).trans ((Store.bind_of_succeeds rfl).trans ?_)
  refine (Store.bind_of_succeeds executed).trans ?_
  exact Store.bind_of_succeeds (lift_succeeds expanded.ran)

/-- A collection answers with the addressed entity. -/
theorem entity_eq
    (replied : (ofSettings settings).Replied store collection id none parameters context answer) :
    ∃ entity, store.readable? ⟨collection, id⟩ = some entity ∧ answer = .entity entity := by
  obtain ⟨read, resource, located, isReply⟩ := replied
  obtain ⟨rfl, isEntities⟩ := of_locate_none located
  obtain ⟨addressed, entity, isAddressed, readable, rfl⟩ :=
    Store.entity_of_reply isEntities isReply
  obtain rfl := Option.some.inj (isAddressed.symm.trans (entityId_ofRequest read))
  exact ⟨entity, readable, rfl⟩

theorem exists_entries
    (replied :
      (ofSettings settings).Replied store collection id relation parameters context answer)
    (expanded : (ofSettings settings).ExpandsTo store collection context answer node calls) :
    ∃ entries, (ofSettings settings).HasEntries store collection context answer node calls
      entries := by
  cases relation with
  | none =>
      obtain ⟨entity, _, rfl⟩ := replied.entity_eq
      exact ⟨_, .entity ⟨entity, node, calls⟩ expanded⟩
  | some name =>
      obtain ⟨_, resource, located, isReply⟩ := replied
      obtain ⟨_, isRelationship⟩ := of_locate_some located
      obtain ⟨parent, _, _, rfl⟩ := Store.listing_of_reply isRelationship isReply
      exact exists_entries_of_listing expanded

end Replied

theorem HasEntries.expandsTo {entries : List Entry}
    (has : service.HasEntries store collection context answer node calls entries) :
    ∀ entry ∈ entries, service.ExpandsTo store collection context (.entity entry.root)
      entry.node entry.calls := by
  cases has with
  | entity entry expanded => exact List.forall_mem_singleton.mpr expanded
  | page _ _ _ expanded => exact expanded

/-- A page of one entity has it as its entry, if no source is looked up. -/
theorem HasEntries.of_single (info : PageInfo) {root : Entity}
    (expanded : service.ExpandsTo store collection context (.entity root) node calls) :
    service.HasEntries store collection context (.page info [.entity root])
      (.page { info with source := none } [node]) calls [⟨root, node, calls⟩] := by
  have all : ∀ entry ∈ [Entry.mk root node calls], service.ExpandsTo store collection context
      (.entity entry.root) entry.node entry.calls := List.forall_mem_singleton.mpr expanded
  have has := HasEntries.page info none (List.forall_mem_nil _) all
  simpa using has

theorem HasEntries.root_eq {entries : List Entry} {root : Entity}
    (has : service.HasEntries store collection context answer node calls entries)
    (isAnswer : answer = .entity root) {entry : Entry} (member : entry ∈ entries) :
    entry.root = root := by
  cases has with
  | entity only _ =>
      rw [List.mem_singleton.mp member]
      exact Answer.entity.inj isAnswer
  | page => cases isAnswer

end Service

end ContentApi
