import ContentApi.Store.Connection

/-!
# What readers see of a store

Readers see the entities that are stored and not hidden, and the links between those.
Two stores are alike for readers (`SameReadable`) if these agree; then their listings are
the same, and reading an entity differs at most in the reason for which it is refused.
Executing a resource only reads (`execute_connection`), so its replies are alike too.
-/

namespace ContentApi.Store

/-! ## Reading -/

/-- Readers see an entity exactly if it is stored and not hidden. -/
theorem readable?_eq_some_iff {store : Store} {target : EntityRef} {entity : Entity} :
    store.readable? target = some entity ↔
      store.entities.get? target = some entity ∧ target ∉ store.denied := by
  unfold readable? read
  cases store.entities.get? target with
  | none => simp [Except.toOption]
  | some stored =>
      by_cases hidden : target ∈ store.denied
      · simp [hidden, Except.toOption]
      · simp [hidden, Except.toOption]

theorem read_of_readable {store : Store} {target : EntityRef} {entity : Entity}
    (readable : store.readable? target = some entity) : store.read target = .ok entity := by
  unfold readable? at readable
  cases found : store.read target with
  | error error => simp [found, Except.toOption] at readable
  | ok stored =>
      rw [found] at readable
      rw [Option.some.inj readable]

/-- An entity that readers cannot see is reported as missing or as hidden. -/
theorem read_of_unreadable {store : Store} {target : EntityRef}
    (unreadable : store.readable? target = none) :
    store.read target = .error (.notFound target.path) ∨
      store.read target = .error (.permissionDenied target.path) := by
  unfold readable? read at unreadable
  unfold read
  cases found : store.entities.get? target with
  | none => exact .inl rfl
  | some stored =>
      by_cases hidden : target ∈ store.denied
      · simp [hidden]
      · simp [found, hidden, Except.toOption] at unreadable

/-! ## Executing resources -/

/-- The entity that is read when a resource is executed for an id. -/
def readBy (resource : Resource) (id : String) : EntityRef :=
  match resource.kind with
  | .entities => ⟨resource.key, id⟩
  | .relationship collection => ⟨collection, id⟩

/-- What executing a resource on a store gives. -/
def reply (store : Store) (resource : Resource) (context : Context) : Reply :=
  match context.entityId with
  | none => .error (.invalidArgument (.idNeeded resource.key))
  | some id =>
      match resource.kind with
      | .entities => (store.read ⟨resource.key, id⟩).map fun entity => some (.entity entity)
      | .relationship collection =>
          (store.read ⟨collection, id⟩).map fun _ =>
            some (store.listing ⟨resource.key, ⟨collection, id⟩⟩ context.window).answer

/-- Behind a program that succeeds the next one goes on with its value. -/
theorem bind_of_succeeds {α β : Type} {store behind : Store}
    {program : ExceptT ApiError (StateM Store) α} {value : α}
    {next : α → ExceptT ApiError (StateM Store) β}
    (succeeds : program store = (.ok value, behind)) :
    (program >>= next) store = next value behind := by
  show ExceptT.bindCont next (program store).1 (program store).2 = _
  rw [succeeds]
  rfl

/-- Behind a request that succeeds the program goes on with its reply. -/
theorem ask_of_ok {ρ α : Type} {store behind : Store} {request : Request ρ} {value : ρ}
    {next : ρ → ExceptT ApiError (StateM Store) α}
    (handled : store.handle request = (.ok value, behind)) :
    (connection.ask request >>= next) store = next value behind :=
  bind_of_succeeds handled

/-- A request that fails ends the program. -/
theorem ask_of_error {ρ α : Type} {store behind : Store} {request : Request ρ}
    {error : ApiError} {next : ρ → ExceptT ApiError (StateM Store) α}
    (handled : store.handle request = (.error error, behind)) :
    (connection.ask request >>= next) store = (.error error, behind) := by
  show ExceptT.bindCont next (store.handle request).1 (store.handle request).2 = _
  rw [handled]
  rfl

/-- Executing a resource leaves the store as it is. -/
theorem execute_connection (store : Store) (resource : Resource) (context : Context) :
    connection.execute resource context store = (store.reply resource context, store) := by
  unfold Connection.execute reply
  cases context.entityId with
  | none => rfl
  | some id =>
      cases resource.kind with
      | entities =>
          cases found : store.read ⟨resource.key, id⟩ with
          | error error =>
              have handled : store.handle (.get ⟨resource.key, id⟩) = (.error error, store) := by
                rw [handle, found]
              simp only [found]
              exact ask_of_error handled
          | ok entity =>
              have handled : store.handle (.get ⟨resource.key, id⟩) = (.ok entity, store) := by
                rw [handle, found]
              simp only [found]
              exact ask_of_ok handled
      | relationship collection =>
          let key : LinkKey := ⟨resource.key, ⟨collection, id⟩⟩
          cases found : store.read ⟨collection, id⟩ with
          | error error =>
              have handled :
                  store.handle (.list key context.window) = (.error error, store) := by
                simp only [handle, key, found]
              simp only [found]
              exact ask_of_error handled
          | ok parent =>
              have handled :
                  store.handle (.list key context.window) =
                    (.ok (store.listing key context.window), store) := by
                simp only [handle, key, found]
              simp only [found]
              exact ask_of_ok handled

/-! ## Stores that are alike for readers -/

/-- The links of a parent to entities that readers see. -/
def readableLinks (store : Store) (key : LinkKey) : List EntityRef :=
  (store.linked key).filter fun target => (store.readable? target).isSome

/-- Two stores in which readers see the same entities and the same links between them. -/
structure SameReadable (first second : Store) : Prop where
  entities : ∀ target, first.readable? target = second.readable? target
  links : ∀ key, (first.readable? key.parent).isSome →
    first.readableLinks key = second.readableLinks key

/--
Results for an entity that tell readers the same: they are related, or the error is the
same, or the entity is reported as missing in one and as hidden in the other.
-/
inductive SameAnswer {α β : Type} (related : α → β → Prop) (target : EntityRef) :
    Except ApiError α → Except ApiError β → Prop where
  | ok {value : α} {result : β} :
      related value result → SameAnswer related target (.ok value) (.ok result)
  | error (error : ApiError) : SameAnswer related target (.error error) (.error error)
  | hidden :
      SameAnswer related target (.error (.notFound target.path))
        (.error (.permissionDenied target.path))
  | missing :
      SameAnswer related target (.error (.permissionDenied target.path))
        (.error (.notFound target.path))

/-- A result tells the same as itself, if its value is related to itself. -/
theorem SameAnswer.refl {α : Type} {related : α → α → Prop} {target : EntityRef}
    {result : Except ApiError α} (alike : ∀ value, result = .ok value → related value value) :
    SameAnswer related target result result := by
  cases result with
  | error error => exact .error error
  | ok value => exact .ok (alike value rfl)

theorem SameAnswer.map {α β γ δ : Type} {related : α → β → Prop} {target : EntityRef}
    {first : Except ApiError α} {second : Except ApiError β} {later : γ → δ → Prop}
    {change : α → γ} {other : β → δ} (same : SameAnswer related target first second)
    (kept : ∀ value result, related value result → later (change value) (other result)) :
    SameAnswer later target (first.map change) (second.map other) := by
  cases same with
  | ok alike => exact .ok (kept _ _ alike)
  | error error => exact .error error
  | hidden => exact .hidden
  | missing => exact .missing

namespace SameReadable

variable {first second : Store}

/-- The visible links are the entities at the readable ones. -/
theorem visibleLinks_eq (store : Store) (key : LinkKey) :
    store.visibleLinks key = (store.readableLinks key).filterMap store.readable? := by
  unfold visibleLinks readableLinks
  rw [List.filterMap_filter]
  congr 1
  funext target
  cases store.readable? target with
  | none => rfl
  | some entity => rfl

theorem visibleLinks (same : SameReadable first second) (key : LinkKey)
    (readable : (first.readable? key.parent).isSome) :
    first.visibleLinks key = second.visibleLinks key := by
  rw [visibleLinks_eq, visibleLinks_eq, same.links key readable]
  congr 1
  funext target
  exact same.entities target

/-- The windows of a readable parent's list are the same. -/
theorem listing (same : SameReadable first second)
    (samePages : first.maxPageSize = second.maxPageSize) (key : LinkKey)
    (readable : (first.readable? key.parent).isSome) (window : Window) :
    first.listing key window = second.listing key window := by
  unfold Store.listing
  rw [same.visibleLinks key readable, samePages]

/-- Reading an entity gives the same, or is refused for one reason or the other. -/
theorem read (same : SameReadable first second) (target : EntityRef) :
    SameAnswer (fun entity other => entity = other ∧ first.readable? target = some entity)
      target (first.read target) (second.read target) := by
  have alike := same.entities target
  cases found : second.readable? target with
  | some entity =>
      rw [found] at alike
      rw [read_of_readable alike, read_of_readable found]
      exact .ok ⟨rfl, alike⟩
  | none =>
      rw [found] at alike
      rcases read_of_unreadable alike with first | first
      · rcases read_of_unreadable found with second | second
        · rw [first, second]
          exact .error _
        · rw [first, second]
          exact .hidden
      · rcases read_of_unreadable found with second | second
        · rw [first, second]
          exact .missing
        · rw [first, second]
          exact .error _

/-- Executing a resource for an entity gives the same, unless it is refused. -/
theorem reply (same : SameReadable first second)
    (samePages : first.maxPageSize = second.maxPageSize) (resource : Resource)
    {context : Context} {id : String} (addressed : context.entityId = some id) :
    SameAnswer Eq (readBy resource id) (first.reply resource context)
      (second.reply resource context) := by
  unfold Store.reply readBy
  rw [addressed]
  cases resource.kind with
  | entities =>
      apply (same.read ⟨resource.key, id⟩).map
      rintro entity _ ⟨rfl, _⟩
      rfl
  | relationship collection =>
      apply (same.read ⟨collection, id⟩).map
      rintro parent _ ⟨rfl, readable⟩
      have visible : (first.readable? ⟨collection, id⟩).isSome := by
        rw [readable]
        rfl
      rw [same.listing samePages ⟨resource.key, ⟨collection, id⟩⟩ visible]

end SameReadable

end ContentApi.Store
