import ContentApi.Proofs.Store.History
import ContentApi.Store.Traffic

/-!
# What operations ask of a store

An operation that is left alone with a store does what it does through `Store.connection`
(`serve_program`), so its program is the operation itself, cut where it waits.  In traffic it
is not left alone; all that is known then is which exchanges it has had (`Program.Leads`) and
what it may ask for at all (`Program.Asks`).  Only two operations put entities, and they put
them at their own addresses (`asks_program`).
-/

namespace ContentApi

open Store (AnyRequest)

/-- The request of an exchange. -/
def Exchange.sent (exchange : Exchange) : AnyRequest :=
  ⟨_, exchange.request⟩

namespace Program

variable {α β : Type}

/-! ## Programs that are left alone -/

/-- Has all requests answered at once by a store. -/
def serve : Program α → StateM Store α
  | .done value => pure value
  | .ask request next => fun store =>
      (next (store.handle request).1).serve (store.handle request).2

theorem serve_bind (program : Program α) (next : α → Program β) :
    (program.bind next).serve = program.serve >>= fun value => (next value).serve := by
  induction program with
  | done value => rfl
  | ask request rest ih =>
      funext store
      exact congrFun (ih (store.handle request).1) (store.handle request).2

/-- A program that gives or throws does, left alone, what an action on the store does. -/
def Serves (program : ExceptT ApiError Program α)
    (action : ExceptT ApiError (StateM Store) α) : Prop :=
  program.run.serve = action.run

namespace Serves

theorem pure (value : α) : Serves (pure value) (pure value) :=
  rfl

theorem throw (error : ApiError) : Serves (throw error : ExceptT ApiError Program α) (throw error) :=
  rfl

theorem ask (request : Store.Request α) :
    Serves (Program.connection.ask request) (Store.connection.ask request) :=
  rfl

theorem bind {program : ExceptT ApiError Program α}
    {action : ExceptT ApiError (StateM Store) α} {next : α → ExceptT ApiError Program β}
    {later : α → ExceptT ApiError (StateM Store) β} (first : Serves program action)
    (rest : ∀ value, Serves (next value) (later value)) :
    Serves (program >>= next) (action >>= later) := by
  show (program.run.bind (ExceptT.bindCont next)).serve =
    action.run >>= ExceptT.bindCont later
  rw [serve_bind, first]
  congr 1
  funext result
  cases result with
  | error error => rfl
  | ok value => exact rest value

end Serves

end Program

namespace Operation

open Program (Serves)

variable {α : Type}

theorem serves_put (entity : Entity) :
    Serves (Program.connection.put entity) (Store.connection.put entity) := by
  unfold Connection.put
  split
  · exact .throw _
  · exact .ask _

theorem serves_through (operation : Operation α) :
    Serves (operation.through Program.connection) (operation.through Store.connection) := by
  cases operation with
  | create entity =>
      show Serves (Program.connection.create entity) (Store.connection.create entity)
      unfold Connection.create
      split
      · exact (serves_put entity).bind fun _ => .pure _
      · exact (Serves.ask _).bind fun id => (serves_put _).bind fun _ => .pure _
  | put entity => exact serves_put entity
  | fetch target => exact .ask _
  | link key target => exact .ask _
  | unlink key target => exact .ask _
  | deny target => exact .ask _
  | list key window => exact .ask _
  | execute resource context =>
      show Serves (ExceptT.mk (Program.connection.execute resource context))
        (ExceptT.mk (Store.connection.execute resource context))
      unfold Connection.execute
      split
      · exact .throw _
      · split
        · exact (Serves.ask _).bind fun _ => .pure _
        · exact (Serves.ask _).bind fun _ => .pure _

/-- An operation that is left alone with a store is the operation through `Store.connection`. -/
theorem serve_program (operation : Operation α) :
    operation.program.serve = (operation.through Store.connection).run :=
  operation.serves_through

end Operation

namespace Program

variable {α β : Type} {program : Program α}

/-! ## Programs among others -/

/--
The program of a task gets from its start to some rest by exchanges with a store, of whatever
states, and by finding that the store has gone.
-/
inductive Leads (program : Program α) (number : Nat) : List Exchange → Program α → Prop where
  | start : Leads program number [] program
  | answered {exchanges : List Exchange} {ρ : Type} {request : Store.Request ρ}
      {next : Except ApiError ρ → Program α} (store : Store) :
      Leads program number exchanges (.ask request next) →
      Leads program number (exchanges ++ [⟨number, request, (store.handle request).1⟩])
        (next (store.handle request).1)
  | refused {exchanges : List Exchange} {ρ : Type} {request : Store.Request ρ}
      {next : Except ApiError ρ → Program α} :
      Leads program number exchanges (.ask request next) →
      Leads program number exchanges (next (.error .storeClosed))

/-- Whatever the replies are, a program asks only for what is allowed. -/
inductive Asks (allowed : AnyRequest → Prop) : Program α → Prop where
  | done (value : α) : Asks allowed (.done value)
  | ask {ρ : Type} {request : Store.Request ρ} {next : Except ApiError ρ → Program α} :
      allowed ⟨_, request⟩ → (∀ reply, Asks allowed (next reply)) →
      Asks allowed (.ask request next)

variable {allowed : AnyRequest → Prop}

theorem Leads.asks {number : Nat} {exchanges : List Exchange} {rest : Program α}
    (leads : program.Leads number exchanges rest) (asks : program.Asks allowed) :
    (∀ exchange ∈ exchanges, allowed exchange.sent) ∧ rest.Asks allowed := by
  induction leads with
  | start => exact ⟨fun _ member => absurd member List.not_mem_nil, asks⟩
  | answered store _ ih =>
      obtain ⟨sent, asksNext⟩ := ih
      cases asksNext with
      | ask isAllowed asksRest =>
          refine ⟨?_, asksRest _⟩
          intro exchange member
          rcases List.mem_append.mp member with member | isLast
          · exact sent exchange member
          · rw [List.mem_singleton.mp isLast]
            exact isAllowed
  | refused _ ih =>
      obtain ⟨sent, asksNext⟩ := ih
      cases asksNext with
      | ask _ asksRest => exact ⟨sent, asksRest _⟩

namespace Asks

theorem request {ρ : Type} {request : Store.Request ρ} (isAllowed : allowed ⟨_, request⟩) :
    (Program.connection.ask request).run.Asks allowed :=
  .ask isAllowed .done

theorem bind (asks : program.Asks allowed) {next : α → Program β}
    (rest : ∀ value, (next value).Asks allowed) : (program.bind next).Asks allowed := by
  induction asks with
  | done value => exact rest value
  | ask isAllowed _ ih => exact .ask isAllowed ih

theorem bindExcept {program : ExceptT ApiError Program α} (asks : program.run.Asks allowed)
    {next : α → ExceptT ApiError Program β} (rest : ∀ value, (next value).run.Asks allowed) :
    (program >>= next).run.Asks allowed := by
  refine asks.bind ?_
  intro result
  cases result with
  | error error => exact .done _
  | ok value => exact rest value

end Asks

end Program

namespace Operation

open Program (Asks)

variable {α : Type}

/-- An operation may put an entity at an address, which is that of the entity. -/
inductive Puts (target : EntityRef) (entity : Entity) : {α : Type} → Operation α → Prop where
  | put : entity.address? = some target → Puts target entity (.put entity)
  /-- The entity had an id. -/
  | brought : entity.address? = some target → Puts target entity (.create entity)
  /-- The entity had no id, and was given a generated one. -/
  | assigned {original : Entity} {id : String} :
      original.id = none → entity = original.assignId id → entity.address? = some target →
      Puts target entity (.create original)

theorem Puts.address {target : EntityRef} {entity : Entity} {operation : Operation α}
    (puts : Puts target entity operation) : entity.address? = some target := by
  cases puts with
  | put address => exact address
  | brought address => exact address
  | assigned _ _ address => exact address

/-- A request puts only what some operations may put. -/
def PutsOnly (puts : EntityRef → Entity → Prop) (request : AnyRequest) : Prop :=
  ∀ target entity, request = ⟨_, .put target entity⟩ → puts target entity

theorem putsOnly_of_kind {puts : EntityRef → Entity → Prop} {request : AnyRequest}
    (notPut : request.kind ≠ .put) : PutsOnly puts request :=
  fun _ _ isPut => absurd isPut (AnyRequest.ne_of_kind notPut)

theorem asks_put {puts : EntityRef → Entity → Prop} {entity : Entity}
    (allowed : ∀ target, entity.address? = some target → puts target entity) :
    (Program.connection.put entity).run.Asks (PutsOnly puts) := by
  unfold Connection.put
  split
  · exact .done _
  · rename_i id isId
    refine .request ?_
    rintro target other ⟨⟩
    exact allowed _ (by rw [Entity.address?, isId, Option.map_some])

theorem asks_request {puts : EntityRef → Entity → Prop} {ρ : Type}
    {request : Store.Request ρ} (notPut : AnyRequest.kind ⟨_, request⟩ ≠ .put) :
    (Program.connection.ask request).run.Asks (PutsOnly puts) :=
  .request (putsOnly_of_kind notPut)

theorem asks_program (operation : Operation α) :
    operation.program.Asks (PutsOnly fun target entity => Puts target entity operation) := by
  cases operation with
  | create entity =>
      show (Program.connection.create entity).run.Asks _
      unfold Connection.create
      split
      · exact .bindExcept (asks_put fun _ => .brought) fun _ => .done _
      · rename_i noId
        refine .bindExcept (asks_request (by nofun)) fun id => ?_
        exact .bindExcept (asks_put fun _ => .assigned noId rfl) fun _ => .done _
  | put entity => exact asks_put fun _ => .put
  | fetch target => exact asks_request nofun
  | link key target => exact asks_request nofun
  | unlink key target => exact asks_request nofun
  | deny target => exact asks_request nofun
  | list key window => exact asks_request nofun
  | execute resource context =>
      show (Program.connection.execute resource context).Asks _
      unfold Connection.execute
      split
      · exact .done _
      · split
        · exact .bindExcept (asks_request (by nofun)) fun _ => .done _
        · exact .bindExcept (asks_request (by nofun)) fun _ => .done _

end Operation

end ContentApi
