import ContentApi.Proofs.Store.Readable
import ContentApi.Proofs.Store.Runs
import Mathlib.Data.List.Induction

/-!
# What a store keeps of its history

The history of a store is the row of requests that it has answered since it was empty
(`after`), whoever sent them.  Each part of the store is written by requests of one kind only
(`frame_step`), and what it holds can be told from these requests: an address holds the entity
of the latest request that put one there (`get?_entities_after`), an entity is hidden if a
request has hidden it (`mem_denied_after`), and the counter of a collection tells how many ids
were generated in it (`counter_after`).
-/

namespace ContentApi

/-- The address of an entity, if it has an id. -/
def Entity.address? (entity : Entity) : Option EntityRef :=
  entity.id.map fun id => ⟨entity.collection, id⟩

namespace Store

universe u

/-- A store that has not answered any request yet. -/
def initial (maxPageSize : Nat) : Store where
  maxPageSize := maxPageSize

/-- The store behind a history. -/
def after (maxPageSize : Nat) (history : List AnyRequest) : Store :=
  (initial maxPageSize).run history

variable {store : Store} {maxPageSize : Nat} {history : List AnyRequest}
variable {request : AnyRequest}

theorem after_concat :
    after maxPageSize (history ++ [request]) = (after maxPageSize history).step request := by
  rw [after, run, List.foldl_append]
  rfl

/-! ## Kinds of requests -/

/-- What a request is for. -/
inductive RequestKind where
  | nextId
  | put
  | get
  | link
  | unlink
  | deny
  | list
deriving DecidableEq

/-- The kind of a request. -/
def AnyRequest.kind : AnyRequest → RequestKind
  | ⟨_, .nextId _⟩ => .nextId
  | ⟨_, .put _ _⟩ => .put
  | ⟨_, .get _⟩ => .get
  | ⟨_, .link _ _⟩ => .link
  | ⟨_, .unlink _ _⟩ => .unlink
  | ⟨_, .deny _⟩ => .deny
  | ⟨_, .list _ _⟩ => .list

/-- Requests of different kinds differ, whatever the types of their replies are. -/
theorem AnyRequest.ne_of_kind {other : AnyRequest} (different : request.kind ≠ other.kind) :
    request ≠ other := by
  rintro rfl
  exact different rfl

theorem step_link (key : LinkKey) (target : EntityRef) :
    store.step ⟨_, .link key target⟩ =
      if store.isStored key.parent ∧ store.isStored target then store.addLink key target
      else store := by
  simp only [step, handle]
  cases store.isStored key.parent <;> cases store.isStored target <;> simp

theorem step_unlink (key : LinkKey) (target : EntityRef) :
    store.step ⟨_, .unlink key target⟩ =
      if target ∈ store.linked key then store.removeLink key target else store := by
  simp only [step, handle, List.contains_iff_mem]
  split <;> rfl

theorem step_list (key : LinkKey) (window : Window) :
    store.step ⟨_, .list key window⟩ = store := by
  simp only [step, handle]
  split <;> rfl

/-- Requests of one kind change one part of a store, and leave the others as they are. -/
structure Frame (store behind : Store) (kind : RequestKind) : Prop where
  entities : kind ≠ .put → behind.entities = store.entities
  links : kind ≠ .link → kind ≠ .unlink → behind.links = store.links
  denied : kind ≠ .deny → behind.denied = store.denied
  counters : kind ≠ .nextId → behind.counters = store.counters

theorem Frame.refl (kind : RequestKind) : Frame store store kind :=
  ⟨fun _ => rfl, fun _ _ => rfl, fun _ => rfl, fun _ => rfl⟩

theorem frame_step (store : Store) (request : AnyRequest) :
    Frame store (store.step request) request.kind := by
  rcases request with ⟨ρ, request⟩
  cases request with
  | nextId collection =>
      exact ⟨fun _ => rfl, fun _ _ => rfl, fun _ => rfl, fun other => absurd rfl other⟩
  | put target entity =>
      exact ⟨fun other => absurd rfl other, fun _ _ => rfl, fun _ => rfl, fun _ => rfl⟩
  | get target => exact .refl _
  | deny target =>
      exact ⟨fun _ => rfl, fun _ _ => rfl, fun other => absurd rfl other, fun _ => rfl⟩
  | list key window =>
      rw [step_list]
      exact .refl _
  | link key target =>
      rw [step_link]
      unfold addLink
      split
      · split
        · exact .refl _
        · exact ⟨fun _ => rfl, fun other => absurd rfl other, fun _ => rfl, fun _ => rfl⟩
      · exact .refl _
  | unlink key target =>
      rw [step_unlink]
      split
      · exact ⟨fun _ => rfl, fun _ other => absurd rfl other, fun _ => rfl, fun _ => rfl⟩
      · exact .refl _

/-! ## Times -/

/-- What stands in a longer row stands in the shorter one or is what was added. -/
theorem getElem?_concat_eq_some_iff {α : Type u} {row : List α} {last wanted : α} {time : Nat} :
    (row ++ [last])[time]? = some wanted ↔
      row[time]? = some wanted ∨ time = row.length ∧ last = wanted := by
  rcases Nat.lt_trichotomy time row.length with less | rfl | greater
  · rw [List.getElem?_append_left less]
    simp [Nat.ne_of_lt less]
  · simp
  · have beyond : (row ++ [last]).length ≤ time := by
      rw [List.length_append, List.length_singleton]
      exact greater
    rw [List.getElem?_eq_none beyond, List.getElem?_eq_none (Nat.le_of_lt greater)]
    simp [Nat.ne_of_gt greater]

/-- An entity has been put at an address. -/
def Stored (history : List AnyRequest) (target : EntityRef) : Prop :=
  ∃ entity, ⟨_, .put target entity⟩ ∈ history

/-- An entity is the one that was put at an address last. -/
def LatestPut (history : List AnyRequest) (target : EntityRef) (entity : Entity) : Prop :=
  ∃ time : Nat, history[time]? = some ⟨_, .put target entity⟩ ∧
    ∀ (later : Nat) (other : Entity), time < later →
      history[later]? ≠ some ⟨_, .put target other⟩

/-- An entity has been hidden. -/
def Denied (history : List AnyRequest) (target : EntityRef) : Prop :=
  ⟨_, .deny target⟩ ∈ history

/-- Everything that has been put was put at its own address, as clients do it. -/
def PutInPlace (history : List AnyRequest) : Prop :=
  ∀ target entity, ⟨_, .put target entity⟩ ∈ history → entity.address? = some target

/-- What was put last is that still unless the next request puts something there. -/
theorem latestPut_concat {target : EntityRef} {entity : Entity} :
    LatestPut (history ++ [request]) target entity ↔
      request = ⟨_, .put target entity⟩ ∨
        LatestPut history target entity ∧ ∀ other, request ≠ ⟨_, .put target other⟩ := by
  constructor
  · rintro ⟨time, puts, isLast⟩
    rcases getElem?_concat_eq_some_iff.mp puts with puts | ⟨rfl, isPut⟩
    · have before : time < history.length := (List.getElem?_eq_some_iff.mp puts).1
      refine .inr ⟨⟨time, puts, ?_⟩, ?_⟩
      · intro later other after puts
        exact isLast later other after (getElem?_concat_eq_some_iff.mpr (.inl puts))
      · intro other isPut
        exact isLast history.length other before
          (getElem?_concat_eq_some_iff.mpr (.inr ⟨rfl, isPut⟩))
    · exact .inl isPut
  · rintro (isPut | ⟨⟨time, puts, isLast⟩, notPut⟩)
    · refine ⟨history.length, getElem?_concat_eq_some_iff.mpr (.inr ⟨rfl, isPut⟩), ?_⟩
      intro later other after puts
      have within := (List.getElem?_eq_some_iff.mp puts).1
      simp only [List.length_append, List.length_singleton] at within
      omega
    · refine ⟨time, getElem?_concat_eq_some_iff.mpr (.inl puts), ?_⟩
      intro later other after puts
      rcases getElem?_concat_eq_some_iff.mp puts with puts | ⟨_, isPut⟩
      · exact isLast later other after puts
      · exact notPut other isPut

/-! ## What is stored and hidden -/

theorem get?_entities_after {target : EntityRef} {entity : Entity} :
    (after maxPageSize history).entities.get? target = some entity ↔
      LatestPut history target entity := by
  induction history using List.reverseRecOn with
  | nil =>
      constructor
      · intro found
        cases found
      · rintro ⟨time, puts, _⟩
        cases puts
  | append_singleton history request ih =>
      rw [after_concat, latestPut_concat]
      -- Requests of all other kinds leave the table, and what was put last, as they are.
      by_cases isPut : request.kind = .put
      · rcases request with ⟨ρ, request⟩
        cases request with
        | put address value =>
            show ((after maxPageSize history).entities.set address value).get? target = _ ↔ _
            rw [Table.get?_set]
            by_cases same : target = address
            · subst same
              simp
            · simp [same, ih, Ne.symm same]
        | _ => cases isPut
      · rw [((after maxPageSize history).frame_step request).entities isPut, ih]
        have notPut : ∀ other, request ≠ ⟨_, .put target other⟩ :=
          fun other => AnyRequest.ne_of_kind isPut
        simp [notPut]

theorem stored_concat {target : EntityRef} :
    Stored (history ++ [request]) target ↔
      Stored history target ∨ ∃ entity, request = ⟨_, .put target entity⟩ := by
  simp only [Stored, List.mem_append, List.mem_singleton, exists_or, eq_comm]

theorem exists_latestPut_iff {target : EntityRef} :
    (∃ entity, LatestPut history target entity) ↔ Stored history target := by
  induction history using List.reverseRecOn with
  | nil => simp [LatestPut, Stored]
  | append_singleton history request ih =>
      rw [stored_concat, ← ih]
      by_cases puts : ∃ entity, request = ⟨_, .put target entity⟩
      · obtain ⟨entity, isPut⟩ := puts
        exact ⟨fun _ => .inr ⟨entity, isPut⟩, fun _ => ⟨entity, latestPut_concat.mpr (.inl isPut)⟩⟩
      · simp only [not_exists] at puts
        simp [latestPut_concat, puts]

theorem isStored_after {target : EntityRef} :
    (after maxPageSize history).isStored target ↔ Stored history target := by
  rw [isStored, Table.contains, Option.isSome_iff_exists, ← exists_latestPut_iff]
  simp only [get?_entities_after]

theorem mem_denied_after {target : EntityRef} :
    target ∈ (after maxPageSize history).denied ↔ Denied history target := by
  induction history using List.reverseRecOn with
  | nil => simp [after, run, initial, Denied]
  | append_singleton history request ih =>
      rw [after_concat, Denied, List.mem_append, List.mem_singleton]
      by_cases isDeny : request.kind = .deny
      · rcases request with ⟨ρ, request⟩
        cases request with
        | deny hidden =>
            show target ∈ hidden :: (after maxPageSize history).denied ↔ _
            rw [List.mem_cons, ih]
            simp [Denied, or_comm]
        | _ => cases isDeny
      · rw [((after maxPageSize history).frame_step request).denied isDeny, ih]
        have notDeny : ⟨_, .deny target⟩ ≠ request := (AnyRequest.ne_of_kind isDeny).symm
        simp [Denied, notDeny]

/-- Readers see an entity if it was put last and has not been hidden. -/
theorem readable?_after {target : EntityRef} {entity : Entity} :
    (after maxPageSize history).readable? target = some entity ↔
      LatestPut history target entity ∧ ¬Denied history target := by
  rw [readable?_eq_some_iff, get?_entities_after, mem_denied_after]

/-! ## Generated ids -/

/-- Whether a request generates an id in a collection. -/
def AnyRequest.generates (collection : String) : AnyRequest → Bool
  | ⟨_, .nextId wanted⟩ => wanted = collection
  | _ => false

theorem AnyRequest.generates_iff {collection : String} :
    request.generates collection ↔ request = ⟨_, .nextId collection⟩ := by
  rcases request with ⟨ρ, request⟩
  cases request with
  | nextId wanted => simp [generates]
  | _ => exact iff_of_false Bool.false_ne_true (ne_of_kind nofun)

/-- How many ids were generated in a collection. -/
def generatedIn (history : List AnyRequest) (collection : String) : Nat :=
  history.countP (AnyRequest.generates collection)

theorem generatedIn_concat {collection : String} :
    generatedIn (history ++ [request]) collection =
      generatedIn history collection + if request.generates collection then 1 else 0 := by
  rw [generatedIn, List.countP_append, List.countP_singleton]
  rfl

theorem counter_after (collection : String) :
    (after maxPageSize history).counter collection =
      UInt64.ofNat (generatedIn history collection) := by
  induction history using List.reverseRecOn with
  | nil => rfl
  | append_singleton history request ih =>
      rw [after_concat, generatedIn_concat]
      by_cases isNextId : request.kind = .nextId
      · rcases request with ⟨ρ, request⟩
        cases request with
        | nextId wanted =>
            show (((after maxPageSize history).counters.set wanted _).get? collection).getD 0 = _
            rw [Table.get?_set]
            by_cases same : collection = wanted
            · subst same
              simp [AnyRequest.generates, ih]
            · simp only [same, if_false, AnyRequest.generates, Ne.symm same, decide_false]
              exact ih
        | _ => cases isNextId
      · have others : ¬request.generates collection :=
          fun generates => AnyRequest.ne_of_kind isNextId (AnyRequest.generates_iff.mp generates)
        rw [counter, ((after maxPageSize history).frame_step request).counters isNextId,
          if_neg others]
        exact ih

end Store

end ContentApi
