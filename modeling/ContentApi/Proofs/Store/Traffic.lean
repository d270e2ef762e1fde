import ContentApi.Proofs.Store.Denial
import ContentApi.Proofs.Store.Operations

/-!
# Traffic and the history of its store

However the messages of the clients interleave, a store has only answered one row of requests
(`Traffic.history`), each as the state behind the earlier ones demands.  What a task has left
to do follows from its own exchanges, whatever was answered in between.  This is what every
move keeps (`consistent_move`) and so what all traffic has (`consistent_run`).  No message is
lost as long as the store is there (`exists_answered_of_channel`).  As tasks send only what
their operations ask for, clients put entities at their own addresses, and what belongs at a
hidden address is never shown to them (`Consistent.not_shown`).
-/

namespace ContentApi

open Store (AnyRequest)

namespace Traffic

variable {traffic behind : Traffic} {maxPageSize : Nat}

/-- The requests that the store has answered. -/
def history (traffic : Traffic) : List AnyRequest :=
  traffic.answered.map Exchange.sent

/-- The exchanges of one task. -/
def exchangesOf (traffic : Traffic) (number : Nat) : List Exchange :=
  traffic.answered.filter fun exchange => exchange.task = number

theorem history_congr (same : behind.answered = traffic.answered) :
    behind.history = traffic.history :=
  congrArg (List.map Exchange.sent) same

theorem exchangesOf_congr (same : behind.answered = traffic.answered) (number : Nat) :
    behind.exchangesOf number = traffic.exchangesOf number :=
  congrArg (List.filter _) same

section Concat

variable {exchange : Exchange} (answered : behind.answered = traffic.answered ++ [exchange])

include answered

theorem history_concat : behind.history = traffic.history ++ [exchange.sent] := by
  rw [history, answered, List.map_append]
  rfl

/-- One more exchange is one of the task that it was made for. -/
theorem exchangesOf_concat :
    behind.exchangesOf exchange.task = traffic.exchangesOf exchange.task ++ [exchange] := by
  simp [exchangesOf, answered]

theorem exchangesOf_concat_of_ne {number : Nat} (different : number ≠ exchange.task) :
    behind.exchangesOf number = traffic.exchangesOf number := by
  simp [exchangesOf, answered, different.symm]

end Concat

/-! ## One move -/

/-- What a move does to the store, the tasks and what was answered. -/
inductive Advance (traffic behind : Traffic) : Prop where
  | kept :
      behind.store = traffic.store → behind.tasks = traffic.tasks →
      behind.answered = traffic.answered → Advance traffic behind
  | called {α : Type} (operation : Operation α) :
      behind.store = traffic.store →
      behind.tasks = traffic.tasks ++ [⟨operation, operation.program⟩] →
      behind.answered = traffic.answered → Advance traffic behind
  | answered {α ρ : Type} {operation : Operation α} {request : Store.Request ρ}
      {next : Except ApiError ρ → Program (Except ApiError α)} (number : Nat) :
      traffic.tasks[number]? = some ⟨operation, .ask request next⟩ →
      behind.store = (traffic.store.handle request).2 →
      behind.tasks =
        traffic.tasks.set number ⟨operation, next (traffic.store.handle request).1⟩ →
      behind.answered =
        traffic.answered ++ [⟨number, request, (traffic.store.handle request).1⟩] →
      Advance traffic behind
  | refused {α ρ : Type} {operation : Operation α} {request : Store.Request ρ}
      {next : Except ApiError ρ → Program (Except ApiError α)} (number : Nat) :
      traffic.tasks[number]? = some ⟨operation, .ask request next⟩ →
      behind.store = traffic.store →
      behind.tasks = traffic.tasks.set number ⟨operation, next (.error .storeClosed)⟩ →
      behind.answered = traffic.answered → Advance traffic behind

theorem advance_move (traffic : Traffic) (move : Move) :
    Advance traffic (traffic.move move) := by
  cases move with
  | call operation => exact .called operation rfl rfl rfl
  | close => exact .kept rfl rfl rfl
  | send number =>
      simp only [Traffic.move]
      split
      · split <;> exact .kept rfl rfl rfl
      · exact .kept rfl rfl rfl
  | answer =>
      simp only [Traffic.move]
      split
      · exact .kept rfl rfl rfl
      · split
        · rename_i waiting
          exact .answered _ waiting rfl rfl rfl
        · exact .kept rfl rfl rfl
  | refuse number =>
      simp only [Traffic.move]
      split
      · rename_i waiting
        exact .refused _ waiting rfl rfl rfl
      · exact .kept rfl rfl rfl

/-! ## All moves -/

/-- A state that fits the history of its store. -/
structure Consistent (maxPageSize : Nat) (traffic : Traffic) : Prop where
  store : traffic.store = Store.after maxPageSize traffic.history
  /-- Every reply is that of the store behind the earlier requests. -/
  replies : ∀ (time : Nat) (exchange : Exchange), traffic.answered[time]? = some exchange →
    exchange.reply =
      ((Store.after maxPageSize (traffic.history.take time)).handle exchange.request).1
  senders : ∀ exchange ∈ traffic.answered, exchange.task < traffic.tasks.length
  /-- Every task goes on as its own exchanges demand. -/
  tasks : ∀ (number : Nat) (task : Task), traffic.tasks[number]? = some task →
    task.operation.program.Leads number (traffic.exchangesOf number) task.rest

theorem consistent_start (maxPageSize : Nat) : Consistent maxPageSize (start maxPageSize) where
  store := rfl
  replies _ _ found := nomatch found
  senders _ member := nomatch member
  tasks _ _ found := nomatch found

section Kept

variable (consistent : Consistent maxPageSize traffic)

include consistent

/-- A task that was just called has not sent anything. -/
theorem Consistent.exchangesOf_length : traffic.exchangesOf traffic.tasks.length = [] := by
  apply List.filter_eq_nil_iff.mpr
  intro exchange member
  simpa using Nat.ne_of_lt (consistent.senders exchange member)

/-- One task goes on as its exchanges demand, and the others have none that are new. -/
theorem Consistent.leads_set {number : Nat} {task next : Task} {exchanges : Nat → List Exchange}
    (found : traffic.tasks[number]? = some task)
    (leads : next.operation.program.Leads number (exchanges number) next.rest)
    (others : ∀ other, other ≠ number → exchanges other = traffic.exchangesOf other)
    (other : Nat) (waiting : Task)
    (isOther : (traffic.tasks.set number next)[other]? = some waiting) :
    waiting.operation.program.Leads other (exchanges other) waiting.rest := by
  have within : number < traffic.tasks.length := (List.getElem?_eq_some_iff.mp found).1
  rw [List.getElem?_set] at isOther
  by_cases same : number = other
  · subst same
    rw [if_pos rfl, if_pos within] at isOther
    rw [← Option.some.inj isOther]
    exact leads
  · rw [if_neg same] at isOther
    rw [others other (Ne.symm same)]
    exact consistent.tasks other waiting isOther

/-- Where nothing is answered, only the tasks may go on. -/
theorem Consistent.silent (store : behind.store = traffic.store)
    (answered : behind.answered = traffic.answered)
    (noFewer : traffic.tasks.length ≤ behind.tasks.length)
    (tasks : ∀ (number : Nat) (task : Task), behind.tasks[number]? = some task →
      task.operation.program.Leads number (traffic.exchangesOf number) task.rest) :
    Consistent maxPageSize behind where
  store := by
    rw [store, history_congr answered]
    exact consistent.store
  replies := by
    rw [answered, history_congr answered]
    exact consistent.replies
  senders := by
    rw [answered]
    intro exchange member
    exact Nat.lt_of_lt_of_le (consistent.senders exchange member) noFewer
  tasks := by
    intro number
    rw [exchangesOf_congr answered]
    exact tasks number

theorem Consistent.kept (store : behind.store = traffic.store)
    (tasks : behind.tasks = traffic.tasks) (answered : behind.answered = traffic.answered) :
    Consistent maxPageSize behind := by
  apply consistent.silent store answered
  · exact Nat.le_of_eq (congrArg List.length tasks.symm)
  · rw [tasks]
    exact consistent.tasks

theorem Consistent.called {α : Type} {operation : Operation α}
    (store : behind.store = traffic.store)
    (tasks : behind.tasks = traffic.tasks ++ [⟨operation, operation.program⟩])
    (answered : behind.answered = traffic.answered) : Consistent maxPageSize behind := by
  apply consistent.silent store answered
  · rw [tasks, List.length_append]
    exact Nat.le_add_right _ _
  · intro number task found
    rw [tasks] at found
    rcases Store.getElem?_concat_eq_some_iff.mp found with found | ⟨rfl, isNew⟩
    · exact consistent.tasks number task found
    · rw [consistent.exchangesOf_length, ← isNew]
      exact .start

section Asked

variable {α ρ : Type} {operation : Operation α} {request : Store.Request ρ}
  {next : Except ApiError ρ → Program (Except ApiError α)} {number : Nat}
  (waiting : traffic.tasks[number]? = some ⟨operation, .ask request next⟩)

include waiting

theorem Consistent.refused (store : behind.store = traffic.store)
    (tasks : behind.tasks = traffic.tasks.set number ⟨operation, next (.error .storeClosed)⟩)
    (answered : behind.answered = traffic.answered) : Consistent maxPageSize behind := by
  apply consistent.silent store answered
  · apply Nat.le_of_eq
    rw [tasks, List.length_set]
  · rw [tasks]
    exact consistent.leads_set waiting (.refused (consistent.tasks number _ waiting))
      fun _ _ => rfl

theorem Consistent.answered (store : behind.store = (traffic.store.handle request).2)
    (tasks : behind.tasks =
      traffic.tasks.set number ⟨operation, next (traffic.store.handle request).1⟩)
    (answered : behind.answered =
      traffic.answered ++ [⟨number, request, (traffic.store.handle request).1⟩]) :
    Consistent maxPageSize behind where
  store := by
    rw [store, history_concat answered, Store.after_concat, ← consistent.store]
    rfl
  replies := by
    intro time exchange found
    rw [answered] at found
    rw [history_concat answered]
    have length : traffic.history.length = traffic.answered.length := List.length_map _
    rcases Store.getElem?_concat_eq_some_iff.mp found with found | ⟨rfl, isNew⟩
    · have within := (List.getElem?_eq_some_iff.mp found).1
      rw [List.take_append_of_le_length (by omega)]
      exact consistent.replies time exchange found
    · rw [← length, List.take_left, ← consistent.store, ← isNew]
  senders := by
    intro exchange member
    rw [tasks, List.length_set]
    rw [answered] at member
    rcases List.mem_append.mp member with member | isNew
    · exact consistent.senders exchange member
    · rw [List.mem_singleton.mp isNew]
      exact (List.getElem?_eq_some_iff.mp waiting).1
  tasks := by
    rw [tasks]
    apply consistent.leads_set waiting
    · rw [exchangesOf_concat answered]
      exact .answered traffic.store (consistent.tasks number _ waiting)
    · exact fun _ different => exchangesOf_concat_of_ne answered different

end Asked

end Kept

theorem consistent_move (consistent : Consistent maxPageSize traffic) (move : Move) :
    Consistent maxPageSize (traffic.move move) := by
  cases traffic.advance_move move with
  | kept store tasks answered => exact consistent.kept store tasks answered
  | called operation store tasks answered => exact consistent.called store tasks answered
  | answered number waiting store tasks answered =>
      exact consistent.answered waiting store tasks answered
  | refused number waiting store tasks answered =>
      exact consistent.refused waiting store tasks answered

theorem consistent_run (maxPageSize : Nat) (moves : List Move) :
    Consistent maxPageSize (run maxPageSize moves) := by
  induction moves using List.reverseRecOn with
  | nil => exact consistent_start maxPageSize
  | append_singleton moves move ih =>
      rw [run, List.foldl_append]
      exact consistent_move ih move

/-! ## Messages on their way -/

/-- A task waits for the reply to a request. -/
def Waits (traffic : Traffic) (number : Nat) : Prop :=
  ∃ (α ρ : Type) (operation : Operation α) (request : Store.Request ρ)
    (next : Except ApiError ρ → Program (Except ApiError α)),
    traffic.tasks[number]? = some ⟨operation, .ask request next⟩

/-- Each message on its way is the one that a waiting task has sent. -/
structure Orderly (traffic : Traffic) : Prop where
  nodup : traffic.channel.Nodup
  waits : ∀ number ∈ traffic.channel, traffic.Waits number
  closed : traffic.isOpen = false → traffic.channel = []

/-- A task waits as long as it is left alone. -/
theorem Waits.of_getElem?_eq {number : Nat} (waits : traffic.Waits number)
    (same : behind.tasks[number]? = traffic.tasks[number]?) : behind.Waits number := by
  obtain ⟨α, ρ, operation, request, next, found⟩ := waits
  exact ⟨α, ρ, operation, request, next, same.trans found⟩

theorem Waits.lt_length {number : Nat} (waits : traffic.Waits number) :
    number < traffic.tasks.length := by
  obtain ⟨α, ρ, operation, request, next, found⟩ := waits
  exact (List.getElem?_eq_some_iff.mp found).1

namespace Orderly

variable (orderly : Orderly traffic)

include orderly

theorem call {α : Type} (operation : Operation α) : Orderly (traffic.move (.call operation)) where
  nodup := orderly.nodup
  waits := by
    intro number member
    have waits := orderly.waits number member
    exact waits.of_getElem?_eq (List.getElem?_append_left waits.lt_length)
  closed := orderly.closed

theorem send (number : Nat) : Orderly (traffic.move (.send number)) := by
  simp only [Traffic.move]
  split
  · split
    · exact orderly
    · rename_i isOpen waiting isNew
      refine ⟨?_, ?_, ?_⟩
      · rw [List.nodup_append]
        refine ⟨orderly.nodup, List.pairwise_singleton _ number, ?_⟩
        intro other member last isLast
        rw [List.mem_singleton.mp isLast]
        exact ne_of_mem_of_not_mem member isNew
      · intro other member
        rcases List.mem_append.mp member with member | isLast
        · exact orderly.waits other member
        · rw [List.mem_singleton.mp isLast]
          exact ⟨_, _, _, _, _, waiting⟩
      · intro isClosed
        exact absurd (isOpen.symm.trans isClosed) (by decide)
  · exact orderly

/-- With its first message taken, the channel is in order for all tasks that did not send it. -/
theorem received {number : Nat} {rest : List Nat} (channel : traffic.channel = number :: rest)
    (behindChannel : behind.channel = rest) (isOpen : behind.isOpen = traffic.isOpen)
    (tasks : ∀ other, other ≠ number → behind.tasks[other]? = traffic.tasks[other]?) :
    Orderly behind := by
  have nodup := orderly.nodup
  rw [channel, List.nodup_cons] at nodup
  refine ⟨?_, ?_, ?_⟩
  · rw [behindChannel]
    exact nodup.2
  · rw [behindChannel]
    intro other member
    have waits := orderly.waits other (channel ▸ List.mem_cons_of_mem _ member)
    exact waits.of_getElem?_eq (tasks other (ne_of_mem_of_not_mem member nodup.1))
  · rw [isOpen]
    intro isClosed
    have empty := orderly.closed isClosed
    rw [channel] at empty
    cases empty

theorem answer : Orderly (traffic.move .answer) := by
  simp only [Traffic.move]
  split
  · exact orderly
  · rename_i number rest channel
    split
    · exact orderly.received channel rfl rfl fun _ different =>
        List.getElem?_set_ne different.symm
    · exact orderly.received channel rfl rfl fun _ _ => rfl

/-- A task is refused only by a closed store, and then nothing is on its way. -/
theorem refuse (number : Nat) : Orderly (traffic.move (.refuse number)) := by
  simp only [Traffic.move]
  split
  · rename_i isClosed _
    refine ⟨orderly.nodup, ?_, orderly.closed⟩
    intro other member
    have member : other ∈ traffic.channel := member
    rw [orderly.closed isClosed] at member
    cases member
  · exact orderly

end Orderly

theorem orderly_move (orderly : Orderly traffic) (move : Move) :
    Orderly (traffic.move move) := by
  cases move with
  | call operation => exact orderly.call operation
  | send number => exact orderly.send number
  | answer => exact orderly.answer
  | close => exact ⟨.nil, nofun, fun _ => rfl⟩
  | refuse number => exact orderly.refuse number

theorem orderly_run (maxPageSize : Nat) (moves : List Move) :
    Orderly (run maxPageSize moves) := by
  induction moves using List.reverseRecOn with
  | nil => exact ⟨.nil, nofun, fun _ => rfl⟩
  | append_singleton moves move ih =>
      rw [run, List.foldl_append]
      exact orderly_move ih move

/-- The message that has arrived first is the next one to be answered; none is dropped. -/
theorem exists_answered_of_channel (orderly : Orderly traffic) {number : Nat} {rest : List Nat}
    (channel : traffic.channel = number :: rest) :
    ∃ exchange : Exchange, exchange.task = number ∧
      (traffic.move .answer).answered = traffic.answered ++ [exchange] ∧
      (traffic.move .answer).channel = rest := by
  have member : number ∈ traffic.channel := channel ▸ List.mem_cons_self
  obtain ⟨α, ρ, operation, request, next, found⟩ := orderly.waits number member
  refine ⟨⟨number, request, (traffic.store.handle request).1⟩, rfl, ?_, ?_⟩
  · simp only [Traffic.move, channel, found]
  · simp only [Traffic.move, channel, found]

/-! ## Who puts what -/

namespace Consistent

theorem exists_sender (consistent : Consistent maxPageSize traffic) {exchange : Exchange}
    (member : exchange ∈ traffic.answered) :
    ∃ task, traffic.tasks[exchange.task]? = some task ∧
      task.operation.program.Leads exchange.task (traffic.exchangesOf exchange.task)
        task.rest := by
  have found := List.getElem?_eq_getElem (consistent.senders exchange member)
  exact ⟨_, found, consistent.tasks _ _ found⟩

/-- Whatever is put comes from an operation that may put it. -/
theorem puts (consistent : Consistent maxPageSize traffic) {number : Nat} {target : EntityRef}
    {entity : Entity} {reply : Except ApiError Unit}
    (member : ⟨number, .put target entity, reply⟩ ∈ traffic.answered) :
    ∃ task, traffic.tasks[number]? = some task ∧ task.operation.Puts target entity := by
  obtain ⟨task, found, leads⟩ := consistent.exists_sender member
  refine ⟨task, found, ?_⟩
  have isIts : ⟨number, .put target entity, reply⟩ ∈ traffic.exchangesOf number :=
    List.mem_filter.mpr ⟨member, by simp⟩
  exact (leads.asks task.operation.asks_program).1 _ isIts target entity rfl

/-- Clients put entities at their own addresses. -/
theorem putInPlace (consistent : Consistent maxPageSize traffic) :
    Store.PutInPlace traffic.history := by
  intro target entity member
  obtain ⟨⟨number, request, reply⟩, answered, isPut⟩ := List.mem_map.mp member
  cases isPut
  obtain ⟨task, _, puts⟩ := consistent.puts answered
  exact puts.address

/-- So nothing that belongs at a hidden address is ever shown to them. -/
theorem not_shown (consistent : Consistent maxPageSize traffic) {target : EntityRef}
    (denied : Store.Denied traffic.history target) {answer : Answer}
    (gives : Store.Gives traffic.store answer) {entity : Entity}
    (member : entity ∈ Store.shown answer) : entity.address? ≠ some target := by
  rw [consistent.store] at gives
  exact Store.not_shown_of_denied denied consistent.putInPlace gives member

end Consistent

end Traffic

end ContentApi
