import ContentApi.Proofs.Expansion.Bodies
import ContentApi.Proofs.Request.Reading
import ContentApi.Proofs.Resource.Registry
import ContentApi.Proofs.Store.Readable
import ContentApi.Proofs.Store.Runs
import ContentApi.Service

/-!
# What responses tell about a store

The service only reads the store, and it reads only what readers may see.  So two stores
that are alike for readers give the same response to every request (`get_sameReadable`):
the same body, or the same error, or an entity that is reported as missing in one and as
hidden in the other.
-/

namespace ContentApi

open Store

/-! ## Programs over two stores -/

/-- Programs that leave their stores as they are and give related values. -/
def readsBoth (first second : Store) :
    ProgramRelation (StateM Store) (StateM Store) where
  Holds related program other :=
    ∃ value result,
      program first = (value, first) ∧ other second = (result, second) ∧
        related value result
  pure := by
    intro α β related value result alike
    exact ⟨value, result, rfl, rfl, alike⟩
  bind := by
    intro α β γ δ related later program other next after holds continues
    rcases holds with ⟨value, result, ran, otherRan, alike⟩
    obtain ⟨output, counterpart, ranNext, otherRanNext, outputsAlike⟩ :=
      continues value result alike
    refine ⟨output, counterpart, ?_, ?_, outputsAlike⟩
    · rw [bind_of_ran ran, ranNext]
    · rw [bind_of_ran otherRan, otherRanNext]

variable {first second : Store}

/-- Programs that leave their stores as they are and tell readers the same. -/
def AnswerAlike (first second : Store) {α β : Type} (related : α → β → Prop)
    (target : EntityRef) (program : ExceptT ApiError (StateM Store) α)
    (other : ExceptT ApiError (StateM Store) β) : Prop :=
  (readsBoth first second).Holds (SameAnswer related target) program.run other.run

namespace AnswerAlike

variable {α β γ δ : Type} {related : α → β → Prop} {later : γ → δ → Prop}
variable {target : EntityRef}

/-- Programs that tell the same can be continued by programs that tell the same. -/
theorem bind {program : ExceptT ApiError (StateM Store) α}
    {other : ExceptT ApiError (StateM Store) β}
    {next : α → ExceptT ApiError (StateM Store) γ}
    {after : β → ExceptT ApiError (StateM Store) δ}
    (alike : AnswerAlike first second related target program other)
    (continues : ∀ value result, related value result →
      AnswerAlike first second later target (next value) (after result)) :
    AnswerAlike first second later target (program >>= next) (other >>= after) := by
  show (readsBoth first second).Holds _ (program.run >>= ExceptT.bindCont next)
    (other.run >>= ExceptT.bindCont after)
  apply (readsBoth first second).bind alike
  intro value result same
  cases same with
  | ok valuesAlike => exact continues _ _ valuesAlike
  | error error => exact (readsBoth first second).pure (.error error)
  | hidden => exact (readsBoth first second).pure .hidden
  | missing => exact (readsBoth first second).pure .missing

theorem ofExcept {value : Except ApiError α} {result : Except ApiError β}
    (same : SameAnswer related target value result) :
    AnswerAlike first second related target (ExceptT.mk (pure value))
      (ExceptT.mk (pure result)) :=
  (readsBoth first second).pure same

theorem lift {program : StateM Store α} {other : StateM Store β}
    (holds : (readsBoth first second).Holds related program other) :
    AnswerAlike first second related target (ExceptT.lift program) (ExceptT.lift other) := by
  rcases holds with ⟨value, result, ran, otherRan, alike⟩
  refine ⟨.ok value, .ok result, ?_, ?_, .ok alike⟩
  · show (Except.ok (program first).1, (program first).2) = _
    rw [ran]
  · show (Except.ok (other second).1, (other second).2) = _
    rw [otherRan]

end AnswerAlike

/-! ## Expansion -/

theorem answer?_eq_of_sameAnswer {target : EntityRef} {first second : Reply}
    (same : SameAnswer Eq target first second) : first.answer? = second.answer? := by
  cases same with
  | ok equal =>
      rw [equal]
  | error error => rfl
  | hidden => rfl
  | missing => rfl

namespace Store.SameReadable

/-- Replies hold the same answer, whatever a resource is executed for. -/
theorem answer?_reply (same : SameReadable first second)
    (samePages : first.maxPageSize = second.maxPageSize) (resource : Resource)
    (context : Context) :
    Reply.answer? (first.reply resource context) =
      Reply.answer? (second.reply resource context) := by
  cases addressed : context.entityId with
  | none =>
      unfold Store.reply
      rw [addressed]
  | some id => exact answer?_eq_of_sameAnswer (same.reply samePages resource addressed)

/-- A service expands alike over stores that are alike for readers. -/
theorem corresponds (same : SameReadable first second)
    (samePages : first.maxPageSize = second.maxPageSize) (service : Service) :
    Corresponds (readsBoth first second) Likeness.body
      (service.expander Store.connection) (service.expander Store.connection) where
  locator := rfl
  api := rfl
  execute := by
    intro resource context
    exact ⟨_, _, first.execute_connection resource context,
      second.execute_connection resource context,
      same.answer?_reply samePages resource context⟩

end Store.SameReadable

/-! ## Responses -/

namespace Service

/-- Nodes that agree but for their omissions have the same body. -/
theorem body_eq {node other : Option Node}
    (alike : Option.Rel Likeness.body.node node other) : body node = body other := by
  cases alike with
  | none => rfl
  | some sameBody => rw [body, body, render_eq_of_alike sameBody]

/-- The resources of the demonstration content stand under their own names. -/
theorem coherent_register : Registry.Coherent (Demo.register {} Demo.api) :=
  Registry.Coherent.empty
    |>.addCollection Demo.api "people" [.get, .post]
    |>.addCollection Demo.api "sites" [.get]
    |>.addCollection Demo.api "documents" [.get, .put, .delete]
    |>.addRelationship Demo.api "sites" "members" [.get, .post]
    |>.addRelationship Demo.api "sites" "documents" [.get]

theorem of_locate_none {settings : Settings} {collection : String} {resource : Resource}
    (located : (ofSettings settings).locate collection none = .ok resource) :
    resource.key = collection ∧ resource.kind = .entities := by
  unfold locate at located
  cases found : (ofSettings settings).locator.collection? (ofSettings settings).api
      collection .get with
  | none => simp [found] at located
  | some stored =>
      simp only [found, Except.ok.injEq] at located
      subst located
      exact coherent_register.of_collection? found

theorem of_locate_some {settings : Settings} {collection name : String} {resource : Resource}
    (located : (ofSettings settings).locate collection (some name) = .ok resource) :
    resource.key = Resource.relationshipKey collection name ∧
      resource.kind = .relationship collection := by
  unfold locate at located
  cases found : ((ofSettings settings).locator.relations (ofSettings settings).api
      collection (.ofList [name]) .get).get? name with
  | none => simp [found] at located
  | some stored =>
      simp only [found, Except.ok.injEq] at located
      subst located
      exact coherent_register.of_relations found

/-- A request is executed for the entity that it addresses. -/
theorem readBy_locate {settings : Settings} {collection id : String}
    {relation : Option String} {resource : Resource}
    (located : (ofSettings settings).locate collection relation = .ok resource) :
    readBy resource id = ⟨collection, id⟩ := by
  cases relation with
  | none =>
      obtain ⟨isKey, isEntities⟩ := of_locate_none located
      rw [readBy, isEntities, isKey]
  | some name =>
      obtain ⟨_, isRelationship⟩ := of_locate_some located
      rw [readBy, isRelationship]

theorem entityId_ofRequest {entityId : Option String} {request : Parameters}
    {context : Context} (read : Context.ofRequest entityId request = .ok context) :
    context.entityId = entityId :=
  (Context.readFrom read).addressed

/-- Every response is told alike over stores that are alike for readers. -/
theorem get_alike (settings : Settings) (same : SameReadable first second)
    (samePages : first.maxPageSize = second.maxPageSize) (collection id : String)
    (relation : Option String) (parameters : Parameters) :
    AnswerAlike first second Eq ⟨collection, id⟩
      ((ofSettings settings).get Store.connection collection id relation parameters)
      ((ofSettings settings).get Store.connection collection id relation parameters) := by
  -- The parameters and the resource are found without the store.
  have contexts : SameAnswer
      (fun context other => context = other ∧ context.entityId = some id) ⟨collection, id⟩
      (Context.ofRequest (some id) parameters) (Context.ofRequest (some id) parameters) := by
    apply SameAnswer.refl
    intro context read
    exact ⟨rfl, entityId_ofRequest read⟩
  have resources : SameAnswer
      (fun resource other => resource = other ∧ readBy resource id = ⟨collection, id⟩)
      ⟨collection, id⟩ ((ofSettings settings).locate collection relation)
      ((ofSettings settings).locate collection relation) := by
    apply SameAnswer.refl
    intro resource located
    exact ⟨rfl, readBy_locate located⟩
  unfold get
  apply AnswerAlike.bind (.ofExcept contexts)
  rintro context _ ⟨rfl, addressed⟩
  apply AnswerAlike.bind (.ofExcept resources)
  rintro resource _ ⟨rfl, isTarget⟩
  -- The reply may differ in its error, and the nodes in their omissions.
  have replies := same.reply samePages resource addressed
  rw [isTarget] at replies
  have executed : AnswerAlike first second Eq ⟨collection, id⟩
      (ExceptT.mk (Store.connection.execute resource context))
      (ExceptT.mk (Store.connection.execute resource context)) :=
    ⟨_, _, first.execute_connection resource context,
      second.execute_connection resource context, replies⟩
  apply AnswerAlike.bind executed
  rintro answer _ rfl
  apply AnswerAlike.bind
    (.lift ((same.corresponds samePages _).expand _ _ context answer))
  intro node other alike
  rw [body_eq alike]
  apply AnswerAlike.ofExcept
  apply SameAnswer.refl
  intro json _
  rfl

/-- The response to a request over the store that other requests have led to. -/
def responseAfter (service : Service) (requests : List AnyRequest) (collection id : String)
    (relation : Option String) (parameters : Parameters) : Except ApiError Json :=
  (service.get Store.connection collection id relation parameters
    (service.initialStore.run requests)).1

/--
A response depends only on what readers may see.  Whatever requests two stores of a service
have answered, if readers see the same entities and the same links between them, then every
request is answered with the same body or with the same error, or the addressed entity is
reported as missing over one store and as hidden over the other.
-/
theorem get_sameReadable (settings : Settings) (requests others : List AnyRequest)
    (same : SameReadable ((ofSettings settings).initialStore.run requests)
      ((ofSettings settings).initialStore.run others))
    (collection id : String) (relation : Option String) (parameters : Parameters) :
    SameAnswer Eq ⟨collection, id⟩
      ((ofSettings settings).responseAfter requests collection id relation parameters)
      ((ofSettings settings).responseAfter others collection id relation parameters) := by
  have samePages :
      ((ofSettings settings).initialStore.run requests).maxPageSize =
        ((ofSettings settings).initialStore.run others).maxPageSize := by
    rw [maxPageSize_run, maxPageSize_run]
  obtain ⟨response, other, answered, otherAnswered, alike⟩ :=
    get_alike settings same samePages collection id relation parameters
  have first : (ofSettings settings).responseAfter requests collection id relation parameters =
      response :=
    congrArg Prod.fst answered
  have second : (ofSettings settings).responseAfter others collection id relation parameters =
      other :=
    congrArg Prod.fst otherAnswered
  rw [first, second]
  exact alike

/-- The person who manages the site. -/
def manager : EntityRef := ⟨"people", "bob"⟩

/-- A site is stored whose manager is not. -/
def unmanaged : List AnyRequest :=
  [⟨_, .put ⟨"sites", "site"⟩ (.site ⟨"site", "Legal", .hidden, some "bob"⟩)⟩]

/-- A site is stored whose manager and only member is hidden. -/
def managedInSecret : List AnyRequest :=
  unmanaged ++
    [⟨_, .put manager (.person ⟨"bob", "Bob", "Baker", "bob@example.com"⟩)⟩,
      ⟨_, .link ⟨"sites/members", ⟨"sites", "site"⟩⟩ manager⟩,
      ⟨_, .deny manager⟩]

/-- A hidden manager cannot be told from a missing one, nor a hidden member from none. -/
theorem sameReadable_managedInSecret :
    SameReadable ((ofSettings {}).initialStore.run unmanaged)
      ((ofSettings {}).initialStore.run managedInSecret) where
  entities := by
    intro target
    have moreEntities : ((ofSettings {}).initialStore.run managedInSecret).entities =
        ((ofSettings {}).initialStore.run unmanaged).entities.set manager
          (.person ⟨"bob", "Bob", "Baker", "bob@example.com"⟩) := rfl
    have hidden : ((ofSettings {}).initialStore.run managedInSecret).denied = [manager] := rfl
    have nothingHidden : ((ofSettings {}).initialStore.run unmanaged).denied = [] := rfl
    have missing :
        ((ofSettings {}).initialStore.run unmanaged).entities.get? manager = none := rfl
    apply Option.ext
    intro entity
    rw [readable?_eq_some_iff, readable?_eq_some_iff, moreEntities, hidden, nothingHidden,
      Table.get?_set]
    by_cases isManager : target = manager
    · simp [isManager, missing]
    · simp [isManager]
  links := by
    intro key _
    have listed : ((ofSettings {}).initialStore.run managedInSecret).links.entries =
        [(⟨"sites/members", ⟨"sites", "site"⟩⟩, [manager])] := rfl
    have unreadable :
        ((ofSettings {}).initialStore.run managedInSecret).readable? manager = none := rfl
    have nothing : ((ofSettings {}).initialStore.run unmanaged).readableLinks key = [] := rfl
    rw [nothing, readableLinks, linked, Table.get?, listed, List.lookup_cons]
    split
    · simp [unreadable]
    · simp

/--
The site is shown with its members in both cases, and the response does not tell whether it
has a manager.
-/
theorem get_sameReadable_managedInSecret :
    SameReadable ((ofSettings {}).initialStore.run unmanaged)
        ((ofSettings {}).initialStore.run managedInSecret) ∧
      ((ofSettings {}).responseAfter unmanaged "sites" "site" none
        (.ofPairs [("relations", "members")])).toOption.isSome ∧
      SameAnswer Eq ⟨"sites", "site"⟩
        ((ofSettings {}).responseAfter unmanaged "sites" "site" none
          (.ofPairs [("relations", "members")]))
        ((ofSettings {}).responseAfter managedInSecret "sites" "site" none
          (.ofPairs [("relations", "members")])) := by
  refine ⟨sameReadable_managedInSecret, by decide +kernel, ?_⟩
  exact get_sameReadable {} unmanaged managedInSecret sameReadable_managedInSecret
    "sites" "site" none (.ofPairs [("relations", "members")])

end Service

end ContentApi
