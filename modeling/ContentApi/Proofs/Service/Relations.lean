import ContentApi.Proofs.Service.Entries
import ContentApi.Proofs.Store.Integrity

/-!
# What is shown beside the entries of a response

Relations are resolved against the collection that a request addresses, and executed for the
id of the entity beside which they are shown (`Entry.RelatesTo`).  For an addressed entity
that is its own collection.  The items of a relation may belong to another one: then what is
shown beside an item is related to an entity of the addressed collection that happens to have
the same id, and not to the item (`not_ownRelations`).  The main statement says exactly which
entries are shown beside relations of their own (`relatesTo_run`).
-/

namespace ContentApi

open Expander (Expands ExpandsItems)

/-! ## Listings in a response -/

def Node.root? : Node → Option Entity
  | .entity root _ _ _ _ _ => some root
  | _ => none

/-- A node shows a listing, with its items in their order. -/
def Node.Lists (node : Node) (listing : Listing) : Prop :=
  ∃ nodes, node = .page listing.info nodes ∧
    nodes.map Node.root? = listing.items.map some

namespace Expander

variable {σ : Type} {expander : Expander (StateM σ)} {maxDepth : Nat} {frame : Frame}
variable {state final : σ} {visits : List Visit}

theorem Expands.root?_eq {root : Entity} {node : Node}
    (expands : Expands expander maxDepth frame (.entity root) state node visits final) :
    node.root? = some root := by
  cases expands <;> rfl

theorem ExpandsItems.roots_eq {items : List Entity} {nodes : List Node}
    (expands : ExpandsItems expander maxDepth frame (items.map .entity) state nodes visits
      final) :
    nodes.map Node.root? = items.map some := by
  induction items generalizing nodes visits state with
  | nil =>
      cases expands
      rfl
  | cons item rest ih =>
      cases expands with
      | cons first others => rw [List.map_cons, List.map_cons, first.root?_eq, ih others]

/-- Where no source is asked for, an expanded listing shows the listing. -/
theorem Expands.lists {listing : Listing} {node : Node}
    (unasked : frame.context.includeSource = false) (unknown : listing.info.source = none)
    (expands : Expands expander maxDepth frame listing.answer state node visits final) :
    node.Lists listing := by
  cases expands with
  | page finds expands =>
      cases finds with
      | unasked => exact ⟨_, by rw [← unknown], expands.roots_eq⟩
      | known _ asked => simp [unasked] at asked
      | unlocated _ asked => simp [unasked] at asked
      | executed asked => simp [unasked] at asked

end Expander

/-! ## Relations of entries -/

/-- The relations beside an entry are those of a collection, for the id of the entry. -/
structure Entry.RelatesTo (entry : Entry) (store : Store) (context : Context)
    (collection : String) : Prop where
  /-- A relationship is executed only for a relation that is asked for. -/
  executed : ∀ call ∈ entry.calls, call.resource.kind ≠ .entities →
    ∃ name ∈ context.relations.names,
      call.resource.key = Resource.relationshipKey collection name ∧
      call.resource.kind = .relationship collection ∧ call.context.entityId = entry.root.id
  /-- What is shown under the name of a relation is the listing that was executed for it. -/
  shown : ∀ name node, entry.node.child? (.related name) = some node →
    ∃ call ∈ entry.calls, ∃ id listing,
      call.resource.key = Resource.relationshipKey collection name ∧
      call.resource.kind = .relationship collection ∧ entry.root.id = some id ∧
      store.handle (.list ⟨Resource.relationshipKey collection name, ⟨collection, id⟩⟩ {}) =
        (.ok listing, store) ∧
      node.Lists listing

namespace Service

variable {settings : Settings} {store : Store} {collection : String} {context : Context}

theorem of_mem_relationBranches {root : Entity} {branch : Branch}
    (member : branch ∈ ((ofSettings settings).expander Store.connection).relationBranches
      (some collection) context root) :
    branch.name ∈ context.relations.names ∧
      branch.resource.key = Resource.relationshipKey collection branch.name ∧
      branch.resource.kind = .relationship collection ∧ branch.entityId = root.id := by
  unfold Expander.relationBranches at member
  dsimp only at member
  split at member
  · cases member
  · obtain ⟨⟨name, resource⟩, isField, rfl⟩ := List.mem_map.mp member
    have found := (Dictionary.ascending _).get?_eq_some_iff.mpr isField
    obtain ⟨isKey, isKind⟩ := coherent_register.of_relations found
    have isName := Registry.mem_names_of_relations found
    refine ⟨?_, isKey, isKind, rfl⟩
    simpa [Dictionary.names, Dictionary.nameSet] using isName

/-- An entry is shown beside relations of the addressed collection. -/
theorem relatesTo {entry : Entry}
    (expanded : (ofSettings settings).ExpandsTo store collection context (.entity entry.root)
      entry.node entry.calls) : entry.RelatesTo store context collection := by
  obtain ⟨root, node, calls⟩ := entry
  obtain ⟨visits, isCalls, expands⟩ := expanded.expands
  dsimp only at isCalls expands
  subst isCalls
  cases expands with
  | exhausted root _ _ => exact ⟨nofun, nofun⟩
  | entity within runs others =>
      obtain rfl := runs.keeps (onlyReads _)
      constructor
      case executed =>
        intro call isCall isRelationship
        obtain ⟨visit, member, rfl⟩ := List.mem_map.mp isCall
        rcases List.mem_append.mp member with member | member
        · -- For what is embedded only collections are executed.
          have entities := runs.entities (findsEntities settings)
            ((findsEntities settings).embedBranches root)
          exact absurd (entities visit member) isRelationship
        · obtain ⟨branch, isBranch, rfl⟩ :=
            others.of_relationship (findsEntities settings) member isRelationship
          obtain ⟨isAsked, isKey, isKind, isId⟩ := of_mem_relationBranches isBranch
          exact ⟨branch.name, isAsked, isKey, isKind, isId⟩
      case shown =>
        intro name node found
        obtain ⟨branch, isBranch, rfl, visited, answer, nested, executed, expands⟩ :=
          others.answered (onlyReads _) found
        obtain ⟨_, isKey, isKind, isId⟩ := of_mem_relationBranches isBranch
        have replied := congrArg Prod.fst ((Store.execute_connection _ _ _).symm.trans executed)
        obtain ⟨id, addressed, readable, rfl⟩ := Store.listing_of_reply isKind replied
        refine ⟨_, List.mem_map_of_mem (List.mem_append_right _ visited), id, _, isKey, isKind,
          isId.symm.trans addressed, ?_, expands.lists rfl rfl⟩
        rw [← isKey]
        exact Store.handle_list_of_readable _ readable

/-! ## Responses -/

/-- How a response relates its entries to what is shown beside them. -/
structure Relates (store : Store) (collection id : String) (relation : Option String)
    (context : Context) (entries : List Entry) : Prop where
  addressed : ∀ entry ∈ entries, entry.RelatesTo store context collection
  /-- For a request without a relation this is the collection of the entity. -/
  entity : relation = none → ∀ entry ∈ entries,
    entry.root.collection = collection ∧ entry.root.id = some id
  /-- An entry of another collection is not shown beside relations of its own. -/
  own : ∀ entry ∈ entries, entry.RelatesTo store context entry.root.collection ↔
    entry.root.collection = collection ∨ ∀ call ∈ entry.calls, call.resource.kind = .entities

end Service

open Service

/-- What is shown beside an entry is related by one collection only, if there is anything. -/
theorem Entry.RelatesTo.iff_eq {entry : Entry} {store : Store} {context : Context}
    {collection : String} (relates : entry.RelatesTo store context collection) (other : String) :
    entry.RelatesTo store context other ↔
      other = collection ∨ ∀ call ∈ entry.calls, call.resource.kind = .entities := by
  constructor
  · intro alsoOther
    by_cases entities : ∀ call ∈ entry.calls, call.resource.kind = .entities
    · exact .inr entities
    · push Not at entities
      obtain ⟨call, member, isRelationship⟩ := entities
      obtain ⟨_, _, _, isKind, _⟩ := relates.executed call member isRelationship
      obtain ⟨_, _, _, isOther, _⟩ := alsoOther.executed call member isRelationship
      exact .inl (ResourceKind.relationship.inj (isOther.symm.trans isKind))
  · rintro (rfl | entities)
    · exact relates
    · constructor
      case executed =>
        intro call member isRelationship
        exact absurd (entities call member) isRelationship
      case shown =>
        intro name node found
        obtain ⟨call, member, _, _, _, isKind, _⟩ := relates.shown name node found
        rw [entities call member] at isKind
        cases isKind

namespace Traffic

/-- Every entry is shown beside relations of its own collection. -/
def OwnRelations (settings : Settings) : Prop :=
  ∀ (moves : List Move) (collection id : String) (relation : Option String)
    (parameters : Parameters) (context : Context) (answer : Answer) (node : Node)
    (calls : Trace) (entries : List Entry),
    (ofSettings settings).Replied (run settings.maxPageSize moves).store collection id relation
      parameters context answer →
    (ofSettings settings).HasEntries (run settings.maxPageSize moves).store collection context
      answer node calls entries →
    ∀ entry ∈ entries,
      entry.RelatesTo (run settings.maxPageSize moves).store context entry.root.collection

/-- Ada is a member of a site, and Bob of another site, which has the same id as Ada. -/
def namesakes : List Move :=
  [.call (.create (.person ⟨"ada", "Ada", "Lovelace", "ada@example.com"⟩)),
    .call (.create (.person ⟨"bob", "Bob", "Bemer", "bob@example.com"⟩)),
    .call (.create (.site ⟨"team", "Team", .everyone, none⟩)),
    .call (.create (.site ⟨"ada", "Ada", .everyone, none⟩)),
    .call (.link ⟨"sites/members", ⟨"sites", "team"⟩⟩ ⟨"people", "ada"⟩),
    .call (.link ⟨"sites/members", ⟨"sites", "ada"⟩⟩ ⟨"people", "bob"⟩)] ++
  (List.range 6).flatMap fun task => [.send task, .answer]

def ada : Entity := .person ⟨"ada", "Ada", "Lovelace", "ada@example.com"⟩

/-- The members of a site are asked for, with their members. -/
def membersOfMembers : Parameters := .ofPairs [("relations", "members")]

def contextOfTeam : Context where
  entityId := some "team"
  parameters := membersOfMembers.unknown
  relations := Projection.ofRelations (some "members")

theorem replied_namesakes :
    (ofSettings {}).Replied (run 100 namesakes).store "sites" "team" (some "members")
      membersOfMembers contextOfTeam (.page ⟨{}, false, some 1, none⟩ [.entity ada]) where
  read := rfl
  replied := ⟨.ofRelationship "sites" "members" [.get, .post], rfl, rfl⟩

theorem exists_relationship_namesakes {node : Node} {calls : Trace}
    (expanded : (ofSettings {}).ExpandsTo (run 100 namesakes).store "sites" contextOfTeam
      (.entity ada) node calls) :
    ∃ call ∈ calls, call.resource.kind = .relationship "sites" := by
  have executed :
      ((((ofSettings {}).expander Store.connection).traced.expandWithin
        (ofSettings {}).settings.maxDepth (some "sites") contextOfTeam (.entity ada) []
        (run 100 namesakes).store).1.2.any
          fun call => call.resource.kind = .relationship "sites") = true := by
    decide +kernel
  unfold ExpandsTo at expanded
  rw [expanded, List.any_eq_true] at executed
  simpa using executed

/-- As if a person could have members, those of a site are shown beside Ada. -/
theorem not_ownRelations : ¬OwnRelations {} := by
  intro own
  obtain ⟨node, visits, expands⟩ :=
    (ofSettings {}).exists_expands (run 100 namesakes).store "sites" contextOfTeam (.entity ada)
  have expanded := expandsTo_of_expands expands
  have has := HasEntries.of_single ⟨{}, false, some 1, none⟩ expanded
  have relates := own namesakes "sites" "team" _ _ _ _ _ _ _ replied_namesakes has _
    (List.mem_singleton_self _)
  obtain ⟨call, member, isKind⟩ := exists_relationship_namesakes expanded
  have isRelationship : call.resource.kind ≠ .entities := by
    rw [isKind]
    exact ResourceKind.noConfusion
  obtain ⟨_, _, _, isOwn, _⟩ := relates.executed call member isRelationship
  have isSite : "sites" = "people" := ResourceKind.relationship.inj (isKind.symm.trans isOwn)
  exact absurd isSite (by decide)

/--
Whatever operations clients have called, a request that gets an answer gets a response whose
entries are shown beside relations of the addressed collection, executed for their own ids
and each shown as it is listed for the entity of that collection and that id.  If no relation
is addressed the only entry is that entity.  In a listing, an entry of another collection is
never shown beside relations of its own, if any relation is followed for it.
-/
theorem relatesTo_run (settings : Settings) (moves : List Move) {collection id : String}
    {relation : Option String} {parameters : Parameters} {context : Context} {answer : Answer}
    (replied : (ofSettings settings).Replied (run settings.maxPageSize moves).store collection
      id relation parameters context answer) :
    ∃ node calls entries,
      (ofSettings settings).get Store.connection collection id relation parameters
          (run settings.maxPageSize moves).store =
        (body (some node), (run settings.maxPageSize moves).store) ∧
      (ofSettings settings).ExpandsTo (run settings.maxPageSize moves).store collection context
        answer node calls ∧
      (ofSettings settings).HasEntries (run settings.maxPageSize moves).store collection context
        answer node calls entries ∧
      Relates (run settings.maxPageSize moves).store collection id relation context entries := by
  have intact := (consistent_run settings.maxPageSize moves).intact
  generalize (run settings.maxPageSize moves).store = store at replied intact ⊢
  obtain ⟨node, visits, expands⟩ :=
    (ofSettings settings).exists_expands store collection context answer
  have expanded := expandsTo_of_expands expands
  obtain ⟨entries, has⟩ := replied.exists_entries expanded
  refine ⟨node, _, entries, replied.get_eq expanded, expanded, has, ?_⟩
  have addressed : ∀ entry ∈ entries, entry.RelatesTo store context collection :=
    fun entry member => relatesTo (has.expandsTo entry member)
  constructor
  case addressed => exact addressed
  case entity =>
    rintro rfl entry member
    obtain ⟨entity, readable, isAnswer⟩ := replied.entity_eq
    have isEntity : entry.root = entity := has.root_eq isAnswer member
    rw [isEntity]
    exact intact.inPlace _ _ (Store.readable?_eq_some_iff.mp readable).1
  case own =>
    intro entry member
    exact (addressed entry member).iff_eq entry.root.collection

theorem relatesTo_run_namesakes :
    (ofSettings {}).Replied (run 100 namesakes).store "sites" "team" (some "members")
        membersOfMembers contextOfTeam (.page ⟨{}, false, some 1, none⟩ [.entity ada]) ∧
      ∃ node calls entries,
        (ofSettings {}).get Store.connection "sites" "team" (some "members") membersOfMembers
            (run 100 namesakes).store =
          (body (some node), (run 100 namesakes).store) ∧
        (ofSettings {}).ExpandsTo (run 100 namesakes).store "sites" contextOfTeam
          (.page ⟨{}, false, some 1, none⟩ [.entity ada]) node calls ∧
        (ofSettings {}).HasEntries (run 100 namesakes).store "sites" contextOfTeam
          (.page ⟨{}, false, some 1, none⟩ [.entity ada]) node calls entries ∧
        Relates (run 100 namesakes).store "sites" "team" (some "members") contextOfTeam
          entries :=
  ⟨replied_namesakes, relatesTo_run {} namesakes replied_namesakes⟩

end Traffic

end ContentApi
