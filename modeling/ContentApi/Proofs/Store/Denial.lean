import ContentApi.Proofs.Store.History
import ContentApi.Proofs.Store.Listings

/-!
# Hidden entities stay hidden

Reading an entity gives what was put at its address last, unless nothing was, or the entity
has been hidden (`read_after`).  Hiding is for good: whatever is requested later, a hidden
entity is refused itself, nothing can be listed under it, and every answer that a store gives
is made up of other entities and counts only others (`denial_after`).
-/

namespace ContentApi.Store

variable {store : Store} {maxPageSize : Nat} {history : List AnyRequest}
variable {target : EntityRef}

/-! ## Answers of a store -/

/-- An answer that a store gives to a request or for the execution of a resource. -/
inductive Gives (store : Store) : Answer → Prop where
  | entity {address : EntityRef} {entity : Entity} :
      (store.handle (.get address)).1 = .ok entity → Gives store (.entity entity)
  | listing {key : LinkKey} {window : Window} {listing : Listing} :
      (store.handle (.list key window)).1 = .ok listing → Gives store listing.answer
  | execution {resource : Resource} {context : Context} {answer : Answer} :
      (connection.execute resource context store).1 = .ok (some answer) → Gives store answer

/--
An answer is made up of the entities at some addresses: it is the entity at one address, or it
shows a window of the readable links of a list and counts these links.
-/
inductive MadeUp (store : Store) : Answer → List EntityRef → Prop where
  | entity {address : EntityRef} {entity : Entity} :
      store.readable? address = some entity → MadeUp store (.entity entity) [address]
  | listing {key : LinkKey} {window : Window} {items : List Entity} :
      List.Forall₂ (fun address entity => store.readable? address = some entity)
        (window.cut store.maxPageSize (store.readableLinks key)) items →
      MadeUp store
        (.page
          { window
            hasMore := window.skip + items.length < (store.readableLinks key).length
            total := some (store.readableLinks key).length
            source := none }
          (items.map .entity))
        (store.readableLinks key)

/-- The entities that an answer of a store shows. -/
def shown : Answer → List Entity
  | .entity entity => [entity]
  | .page info items =>
      items.filterMap (fun item => match item with | .entity entity => some entity | _ => none) ++
        info.source.toList
  | _ => []

theorem madeUp_of_get {address : EntityRef} {entity : Entity}
    (found : store.read address = .ok entity) : MadeUp store (.entity entity) [address] := by
  apply MadeUp.entity
  rw [readable?, found]
  rfl

theorem madeUp_of_listing (store : Store) (key : LinkKey) (window : Window) :
    MadeUp store (store.listing key window).answer (store.readableLinks key) := by
  have made := MadeUp.listing (store.forall₂_listing_items key window)
  rw [← length_visibleLinks] at made
  exact made

theorem exists_of_map_eq_ok {α β : Type} {result : Except ApiError α} {change : α → β}
    {value : β} (changed : result.map change = .ok value) :
    ∃ source, result = .ok source ∧ change source = value := by
  cases result with
  | error error => cases changed
  | ok source => exact ⟨source, rfl, Except.ok.inj changed⟩

/-- Every answer of a store is made up of entities that readers see. -/
theorem Gives.exists_madeUp {answer : Answer} (gives : Gives store answer) :
    ∃ addresses, MadeUp store answer addresses := by
  cases gives with
  | entity found => exact ⟨_, madeUp_of_get found⟩
  | listing listed =>
      rw [(readable_of_handle_list _ listed).2]
      exact ⟨_, store.madeUp_of_listing _ _⟩
  | @execution resource context _ executed =>
      rw [execute_connection, reply] at executed
      cases addressed : context.entityId with
      | none => simp [addressed] at executed
      | some id =>
          cases kind : resource.kind with
          | entities =>
              simp only [addressed, kind] at executed
              obtain ⟨entity, found, isAnswer⟩ := exists_of_map_eq_ok executed
              rw [← Option.some.inj isAnswer]
              exact ⟨_, madeUp_of_get found⟩
          | relationship collection =>
              simp only [addressed, kind] at executed
              obtain ⟨_, _, isAnswer⟩ := exists_of_map_eq_ok executed
              rw [← Option.some.inj isAnswer]
              exact ⟨_, store.madeUp_of_listing _ _⟩

/-- An answer counts and shows only what readers see. -/
theorem MadeUp.readable {answer : Answer} {addresses : List EntityRef}
    (made : MadeUp store answer addresses) {address : EntityRef} (member : address ∈ addresses) :
    (store.readable? address).isSome := by
  cases made with
  | entity found =>
      rw [List.mem_singleton.mp member, found]
      rfl
  | listing => exact (List.mem_filter.mp member).2

theorem MadeUp.exists_of_shown {answer : Answer} {addresses : List EntityRef}
    (made : MadeUp store answer addresses) {entity : Entity} (member : entity ∈ shown answer) :
    ∃ address ∈ addresses, store.readable? address = some entity := by
  cases made with
  | entity found =>
      rw [shown, List.mem_singleton] at member
      exact ⟨_, List.mem_singleton_self _, member ▸ found⟩
  | @listing key window items found =>
      have isItem : entity ∈ items := by
        simpa [shown] using member
      obtain ⟨place, within, rfl⟩ := List.mem_iff_getElem.mp isItem
      have inWindow := within
      rw [← found.length_eq] at inWindow
      refine ⟨_, ?_, found.get inWindow within⟩
      exact List.mem_of_mem_drop (List.mem_of_mem_take (List.get_mem _ _))

/-! ## Hiding -/

theorem read_after (maxPageSize : Nat) (history : List AnyRequest) (target : EntityRef) :
    ((after maxPageSize history).read target = .error (.notFound target.path) ↔
        ¬Stored history target) ∧
      ((after maxPageSize history).read target = .error (.permissionDenied target.path) ↔
        Stored history target ∧ Denied history target) ∧
      ∀ entity, (after maxPageSize history).read target = .ok entity ↔
        LatestPut history target entity ∧ ¬Denied history target := by
  have found : ∀ entity, LatestPut history target entity ↔
      (after maxPageSize history).entities.get? target = some entity :=
    fun _ => get?_entities_after.symm
  have hidden : Denied history target ↔ target ∈ (after maxPageSize history).denied :=
    mem_denied_after.symm
  simp only [← exists_latestPut_iff, found, hidden]
  unfold read
  cases (after maxPageSize history).entities.get? target with
  | none => simp
  | some entity =>
      by_cases isDenied : target ∈ (after maxPageSize history).denied
      · simp [isDenied]
      · simp [isDenied]

/-- A hidden entity is refused itself, and no answer shows or counts it. -/
structure Conceals (store : Store) (target : EntityRef) : Prop where
  refused : ∀ entity, (store.handle (.get target)).1 ≠ .ok entity
  /-- Nothing is listed under it. -/
  unlisted : ∀ key window, key.parent = target →
    ∃ error, store.handle (.list key window) = (.error error, store)
  /-- No resource can be executed for it. -/
  unexecuted : ∀ resource context id, context.entityId = some id →
    readBy resource id = target →
    ∃ error, connection.execute resource context store = (.error error, store)
  /-- Every answer is made up of other entities. -/
  answers : ∀ answer, Gives store answer →
    ∃ addresses, MadeUp store answer addresses ∧ target ∉ addresses

theorem exists_refusal (unreadable : store.readable? target = none) :
    ∃ error, store.read target = .error error := by
  rcases read_of_unreadable unreadable with refused | refused
  · exact ⟨_, refused⟩
  · exact ⟨_, refused⟩

theorem conceals_of_unreadable (unreadable : store.readable? target = none) :
    Conceals store target where
  refused := by
    intro entity found
    have readable : store.readable? target = some entity := by
      rw [readable?]
      exact congrArg Except.toOption found
    rw [unreadable] at readable
    cases readable
  unlisted := by
    rintro key window rfl
    obtain ⟨error, refused⟩ := exists_refusal unreadable
    refine ⟨error, ?_⟩
    simp only [handle, refused]
  unexecuted := by
    rintro resource context id addressed rfl
    obtain ⟨error, refused⟩ := exists_refusal unreadable
    refine ⟨error, ?_⟩
    rw [execute_connection, reply, addressed]
    cases kind : resource.kind with
    | entities =>
        simp only [readBy, kind] at refused
        simp only [refused, Except.map]
    | relationship collection =>
        simp only [readBy, kind] at refused
        simp only [refused, Except.map]
  answers := by
    intro answer gives
    obtain ⟨addresses, made⟩ := gives.exists_madeUp
    refine ⟨addresses, made, ?_⟩
    intro member
    have readable := made.readable member
    rw [unreadable] at readable
    cases readable

/-- Where everything was put at its own address, each entity in an answer tells where it is. -/
theorem address?_of_shown {answer : Answer} {addresses : List EntityRef}
    (inPlace : PutInPlace history) (made : MadeUp (after maxPageSize history) answer addresses)
    {entity : Entity} (member : entity ∈ shown answer) :
    ∃ address ∈ addresses, entity.address? = some address := by
  obtain ⟨address, counted, readable⟩ := made.exists_of_shown member
  obtain ⟨time, puts, _⟩ := (readable?_after.mp readable).1
  exact ⟨address, counted, inPlace address entity (List.mem_of_getElem? puts)⟩

theorem conceals_of_denied (denied : Denied history target) :
    Conceals (after maxPageSize history) target := by
  apply conceals_of_unreadable
  apply Option.eq_none_iff_forall_not_mem.mpr
  intro entity readable
  exact (readable?_after.mp readable).2 denied

/-- Where everything was put at its own address, no answer shows what belongs at a hidden one. -/
theorem not_shown_of_denied (denied : Denied history target) (inPlace : PutInPlace history)
    {answer : Answer} (gives : Gives (after maxPageSize history) answer) {entity : Entity}
    (member : entity ∈ shown answer) : entity.address? ≠ some target := by
  intro isTarget
  obtain ⟨addresses, made, absent⟩ := (conceals_of_denied denied).answers answer gives
  obtain ⟨address, counted, isAddress⟩ := address?_of_shown inPlace made member
  rw [isTarget] at isAddress
  rw [Option.some.inj isAddress] at absent
  exact absent counted

/--
Hiding is complete and for good.  Whatever requests a store has answered, reading an entity
reports it as missing exactly if nothing was put at its address, else as hidden exactly if it
was hidden at any time, and else gives what was put there last.  Once it is hidden nothing is
read at, listed under or executed for its address, and every answer is made up of entities at
other addresses, which are all that it counts; if clients put entities at their own addresses
only, then no answer shows an entity that belongs there.
-/
theorem denial_after (maxPageSize : Nat) (history : List AnyRequest) (target : EntityRef) :
    ((((after maxPageSize history).handle (.get target)).1 = .error (.notFound target.path) ↔
        ¬Stored history target) ∧
      (((after maxPageSize history).handle (.get target)).1 =
          .error (.permissionDenied target.path) ↔
        Stored history target ∧ Denied history target) ∧
      ∀ entity, ((after maxPageSize history).handle (.get target)).1 = .ok entity ↔
        LatestPut history target entity ∧ ¬Denied history target) ∧
    (Denied history target →
      Conceals (after maxPageSize history) target ∧
        (PutInPlace history → ∀ answer, Gives (after maxPageSize history) answer →
          ∀ entity ∈ shown answer, entity.address? ≠ some target)) := by
  refine ⟨read_after maxPageSize history target, ?_⟩
  intro denied
  refine ⟨conceals_of_denied denied, ?_⟩
  intro inPlace answer gives entity
  exact not_shown_of_denied denied inPlace gives

end ContentApi.Store
