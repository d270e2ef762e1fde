import ContentApi.Store.Connection

/-!
# Traffic between clients and a store

A store runs beside its clients.  A client calls an operation, which sends requests and waits
for the reply to each before it goes on; meanwhile other operations, of the same client or of
others, send theirs.  The store takes the requests off one channel and answers them in the
order in which they arrive.  `Program` is an operation that waits for replies, `Traffic` the
state of a store and of all operations that were ever called, and `Traffic.move` one step of
any of them.  Clients have no state of their own, so nothing needs to be known of how many
there are and which one calls what.
-/

namespace ContentApi

/-- What is left to do: nothing, or to go on with the reply to a request. -/
inductive Program (α : Type) : Type 1 where
  | done (value : α)
  | ask {ρ : Type} (request : Store.Request ρ) (next : Except ApiError ρ → Program α)

namespace Program

/-- Goes on with the value that a program ends with. -/
def bind {α β : Type} : Program α → (α → Program β) → Program β
  | .done value, next => next value
  | .ask request rest, next => .ask request fun reply => (rest reply).bind next

instance : Monad Program where
  pure := .done
  bind := .bind

/-- Waits for the reply to every request. -/
def connection : Connection Program where
  ask request := ExceptT.mk (.ask request .done)

end Program

/-- An operation of a client, with the type of what it gives. -/
inductive Operation : Type → Type where
  | create (entity : Entity) : Operation String
  | put (entity : Entity) : Operation Unit
  | fetch (target : EntityRef) : Operation Entity
  | link (key : LinkKey) (target : EntityRef) : Operation Unit
  | unlink (key : LinkKey) (target : EntityRef) : Operation Bool
  | deny (target : EntityRef) : Operation Unit
  | list (key : LinkKey) (window : Window) : Operation Listing
  | execute (resource : Resource) (context : Context) : Operation (Option Answer)

namespace Operation

universe u

variable {m : Type → Type u} [Monad m] {α : Type}

/-- An operation as it is done through a connection. -/
def through (connection : Connection m) : Operation α → ExceptT ApiError m α
  | .create entity => connection.create entity
  | .put entity => connection.put entity
  | .fetch target => connection.fetch target
  | .link key target => connection.link key target
  | .unlink key target => connection.unlink key target
  | .deny target => connection.deny target
  | .list key window => connection.list key window
  | .execute resource context => ExceptT.mk (connection.execute resource context)

/-- What an operation has to do when it is called. -/
def program (operation : Operation α) : Program (Except ApiError α) :=
  (operation.through Program.connection).run

end Operation

/-- An operation that was called, and what is left of it to do. -/
structure Task where
  {result : Type}
  operation : Operation result
  rest : Program (Except ApiError result)

/-- A request that was answered, with the number of the task that sent it. -/
structure Exchange where
  task : Nat
  {ρ : Type}
  request : Store.Request ρ
  reply : Except ApiError ρ

/-- A store and the operations that were called on it. -/
structure Traffic where
  store : Store
  isOpen : Bool := true
  /-- The tasks in the order in which they were called; their places are their numbers. -/
  tasks : List Task := []
  /-- The tasks whose request is on its way, in the order in which it was sent. -/
  channel : List Nat := []
  /-- What was answered, in the order in which the store did it. -/
  answered : List Exchange := []

/-- A step of a client or of the store. -/
inductive Move : Type 1 where
  /-- A client calls an operation. -/
  | call {α : Type} (operation : Operation α)
  /-- A task sends its next request. -/
  | send (task : Nat)
  /-- The store answers the request that has arrived first. -/
  | answer
  /-- The store goes, and what is on its way is lost. -/
  | close
  /-- A task finds that the store has gone. -/
  | refuse (task : Nat)

namespace Traffic

/-- A store that has just started. -/
def start (maxPageSize : Nat) : Traffic where
  store := { maxPageSize }

/--
Makes a move.  A task that waits for a reply does not send again, and a move that cannot be
made changes nothing.
-/
def move (traffic : Traffic) : Move → Traffic
  | .call operation =>
      { traffic with tasks := traffic.tasks ++ [⟨operation, operation.program⟩] }
  | .send number =>
      match traffic.isOpen, traffic.tasks[number]? with
      | true, some ⟨_, .ask _ _⟩ =>
          if number ∈ traffic.channel then traffic
          else { traffic with channel := traffic.channel ++ [number] }
      | _, _ => traffic
  | .answer =>
      match traffic.channel with
      | [] => traffic
      | number :: rest =>
          match traffic.tasks[number]? with
          | some ⟨operation, .ask request next⟩ =>
              let (reply, store) := traffic.store.handle request
              { traffic with
                store
                tasks := traffic.tasks.set number ⟨operation, next reply⟩
                channel := rest
                answered := traffic.answered ++ [⟨number, request, reply⟩] }
          | _ => { traffic with channel := rest }
  | .close => { traffic with isOpen := false, channel := [] }
  | .refuse number =>
      match traffic.isOpen, traffic.tasks[number]? with
      | false, some ⟨operation, .ask _ next⟩ =>
          { traffic with
            tasks := traffic.tasks.set number ⟨operation, next (.error .storeClosed)⟩ }
      | _, _ => traffic

/-- The traffic behind a row of moves. -/
def run (maxPageSize : Nat) (moves : List Move) : Traffic :=
  moves.foldl move (start maxPageSize)

end Traffic

end ContentApi
