import ContentApi.Proofs.Rehearsal.Execution
import Mathlib.Algebra.Ring.Nat
import Mathlib.Data.List.Induction

/-!
# Accounts of expectations

The books of a rehearsal have an account for every expectation that was ever registered, in the
order of registration, with the executions that it has answered.  An execution is credited to the
first account that can still answer it.  What is pending can be read off the books at any time:
it is what the accounts have left (`exists_books`).  So each expectation answers at most as often
as it was registered for, and what was expected, what is pending and what was answered balance
(`accounted`).
-/

namespace ContentApi.Rehearsal

/-- A rehearsal without expectations. -/
def initial : Rehearsal :=
  {}

/-- The registration that an event is, if it is one. -/
def Event.registration? : Event → Option Registration
  | .expect registration => some registration
  | .execute _ => none

/-- The registrations among events, the first one first. -/
def registrations (events : List Event) : List Registration :=
  events.filterMap Event.registration?

/-- How many executions were expected altogether. -/
def expectedCount (events : List Event) : Nat :=
  ((registrations events).map Registration.times).sum

/-- How many executions got a reply. -/
def answerCount (responses : List Response) : Nat :=
  responses.countP Except.isOk

/-- How many executions are still expected. -/
def remainingCount (rehearsal : Rehearsal) : Nat :=
  (rehearsal.pending.map Expectation.remaining).sum

/-! ## Accounts -/

/-- An expectation as it was registered, with the executions that it has answered. -/
structure Account where
  registration : Registration
  answered : List Call

namespace Account

variable {account : Account} {call : Call}

/-- The expectation of an account, with as many executions as are left. -/
def expectation (account : Account) : Expectation :=
  account.registration.expectation (account.registration.times - account.answered.length)

/-- What is pending of an account. -/
def pending? (account : Account) : Option Expectation :=
  if account.answered.length < account.registration.times then some account.expectation
  else none

/-- An account can answer an execution if it is not used up and its expectation meets it. -/
def Answers (account : Account) (call : Call) : Prop :=
  account.answered.length < account.registration.times ∧ account.expectation.Meets call

/-- An account that has answered one more execution. -/
def credit (account : Account) (call : Call) : Account :=
  { account with answered := account.answered ++ [call] }

theorem pending?_eq_some_iff {expectation : Expectation} :
    account.pending? = some expectation ↔
      account.answered.length < account.registration.times ∧
        account.expectation = expectation := by
  rw [pending?]
  split <;> simp [*]

theorem answers_iff :
    account.Answers call ↔
      ∃ expectation, account.pending? = some expectation ∧ expectation.Meets call := by
  simp only [Answers, pending?_eq_some_iff, and_assoc, exists_and_left, exists_eq_left']

/-- All executions of a new account are pending, if there are any. -/
theorem pending?_opened (registration : Registration) :
    (⟨registration, []⟩ : Account).pending?.toList =
      if registration.times = 0 then [] else [registration.expectation registration.times] := by
  rw [pending?]
  by_cases never : registration.times = 0
  · simp [never]
  · simp [never, expectation, Nat.pos_of_ne_zero never]

theorem length_answered_credit :
    (account.credit call).answered.length = account.answered.length + 1 :=
  List.length_append

/-- One more answer uses the expectation of an account once. -/
theorem pending?_credit (isOpen : account.answered.length < account.registration.times) :
    (account.credit call).pending?.toList = account.expectation.used := by
  have left : account.expectation.remaining =
      account.registration.times - account.answered.length := rfl
  have same : (account.credit call).registration = account.registration := rfl
  rw [pending?, Expectation.used, left, length_answered_credit, same]
  by_cases last : account.registration.times - account.answered.length ≤ 1
  · rw [if_pos last, if_neg (by omega)]
    rfl
  · rw [if_neg last, if_pos (by omega), Option.toList_some, expectation, same,
      length_answered_credit, Nat.sub_add_eq]
    rfl

/-- What is pending of an account is what is left of its registration. -/
theorem remaining_add_answered
    (within : account.answered.length ≤ account.registration.times) :
    (account.pending?.toList.map Expectation.remaining).sum + account.answered.length =
      account.registration.times := by
  have left : account.expectation.remaining =
      account.registration.times - account.answered.length := rfl
  rw [pending?]
  split
  · rw [Option.toList_some, List.map_singleton, List.sum_singleton, left]
    omega
  · rw [Option.toList_none, List.map_nil, List.sum_nil]
    omega

end Account

/-- What is pending of several accounts. -/
def pendingOf (accounts : List Account) : List Expectation :=
  accounts.filterMap Account.pending?

/--
The books behind a row of events, beside what the executions in it gave.  Every registration
opens an account, and an execution is answered by the first account that can answer it and
credited to it.
-/
inductive Books : List Event → List Response → List Account → Prop where
  | start : Books [] [] []
  | registered {events : List Event} {responses : List Response} {accounts : List Account}
      (before : Books events responses accounts) (registration : Registration) :
      Books (events ++ [.expect registration]) responses (accounts ++ [⟨registration, []⟩])
  | answered {events : List Event} {responses : List Response} {front back : List Account}
      {account : Account} {call : Call}
      (before : Books events responses (front ++ account :: back))
      (first : ∀ earlier ∈ front, ¬earlier.Answers call) (answers : account.Answers call) :
      Books (events ++ [.execute call]) (responses ++ [.ok account.expectation.reply])
        (front ++ account.credit call :: back)
  | unexpected {events : List Event} {responses : List Response} {accounts : List Account}
      {call : Call} (before : Books events responses accounts)
      (unmet : ∀ account ∈ accounts, ¬account.Answers call) :
      Books (events ++ [.execute call])
        (responses ++ [.error ⟨call.resource.key, call.context.entityId⟩]) accounts

namespace Books

variable {events : List Event} {responses : List Response} {accounts : List Account}

/-- There is one account for every registration, in their order. -/
theorem registrations_eq (books : Books events responses accounts) :
    accounts.map Account.registration = registrations events := by
  induction books with
  | start => rfl
  | registered before registration ih =>
      rw [List.map_append, ih, registrations, registrations, List.filterMap_append]
      rfl
  | answered before first answers ih =>
      rw [registrations, List.filterMap_append]
      rw [List.map_append, List.map_cons] at ih ⊢
      exact ih.trans (List.append_nil _).symm
  | unexpected before unmet ih =>
      rw [ih, registrations, registrations, List.filterMap_append]
      exact (List.append_nil _).symm

/-- No expectation answers more often than it was registered for. -/
theorem answered_le (books : Books events responses accounts) :
    ∀ account ∈ accounts, account.answered.length ≤ account.registration.times := by
  induction books with
  | start => exact List.forall_mem_nil _
  | registered before registration ih =>
      rw [List.forall_mem_append]
      exact ⟨ih, List.forall_mem_singleton.mpr (Nat.zero_le _)⟩
  | @answered _ _ front back account call before first answers ih =>
      rw [List.forall_mem_append, List.forall_mem_cons] at ih ⊢
      refine ⟨ih.1, ?_, ih.2.2⟩
      rw [Account.length_answered_credit]
      exact answers.1
  | unexpected before unmet ih => exact ih

/-- Every execution with a reply is credited to one account. -/
theorem answerCount_eq (books : Books events responses accounts) :
    answerCount responses = (accounts.map fun account => account.answered.length).sum := by
  induction books with
  | start => rfl
  | registered before registration ih => simpa using ih
  | @answered _ responses _ _ account call before first answers ih =>
      have one : List.countP Except.isOk [(.ok account.expectation.reply : Response)] = 1 := rfl
      rw [answerCount, List.countP_append, ← answerCount, ih, one]
      simp only [List.map_append, List.map_cons, List.sum_append, List.sum_cons,
        Account.length_answered_credit]
      omega
  | unexpected before unmet ih =>
      rw [← ih, answerCount, answerCount, List.countP_append]
      rfl

end Books

/-! ## What is pending -/

section Pending

variable {accounts : List Account} {call : Call}

theorem pendingOf_append (front back : List Account) :
    pendingOf (front ++ back) = pendingOf front ++ pendingOf back :=
  List.filterMap_append

theorem pendingOf_cons (account : Account) (rest : List Account) :
    pendingOf (account :: rest) = account.pending?.toList ++ pendingOf rest := by
  rw [pendingOf, List.filterMap_cons]
  cases account.pending? <;> rfl

theorem unmet_iff_pendingOf :
    (∀ expectation ∈ pendingOf accounts, ¬expectation.Meets call) ↔
      ∀ account ∈ accounts, ¬account.Answers call := by
  simp only [pendingOf, List.mem_filterMap, Account.answers_iff]
  constructor
  · rintro unmet account member ⟨expectation, found, meets⟩
    exact unmet expectation ⟨account, member, found⟩ meets
  · rintro unmet expectation ⟨account, member, found⟩ meets
    exact unmet account member ⟨expectation, found, meets⟩

/-- The first pending expectation that meets an execution is that of the first account. -/
theorem exists_account {front back : List Expectation} {expectation : Expectation}
    (cut : pendingOf accounts = front ++ expectation :: back)
    (first : ∀ earlier ∈ front, ¬earlier.Meets call) :
    ∃ before account behind, accounts = before ++ account :: behind ∧
      pendingOf before = front ∧ account.pending? = some expectation ∧
      pendingOf behind = back ∧ ∀ earlier ∈ before, ¬earlier.Answers call := by
  obtain ⟨before, rest, rfl, frontOpen, restOpen⟩ := List.filterMap_eq_append_iff.mp cut
  obtain ⟨closed, account, behind, rfl, allClosed, found, backOpen⟩ :=
    List.filterMap_eq_cons_iff.mp restOpen
  have nothing : pendingOf closed = [] := List.filterMap_eq_nil_iff.mpr allClosed
  have same : pendingOf (before ++ closed) = front := by
    rw [pendingOf_append, nothing, List.append_nil]
    exact frontOpen
  refine ⟨before ++ closed, account, behind, ?_, same, found, backOpen, ?_⟩
  · rw [List.append_assoc]
  · rw [← unmet_iff_pendingOf, same]
    exact first

/-- What is pending and what has been answered is what was expected. -/
theorem remaining_add_answered
    (within : ∀ account ∈ accounts,
      account.answered.length ≤ account.registration.times) :
    ((pendingOf accounts).map Expectation.remaining).sum +
        (accounts.map fun account => account.answered.length).sum =
      (accounts.map fun account => account.registration.times).sum := by
  induction accounts with
  | nil => rfl
  | cons account rest ih =>
      rw [List.forall_mem_cons] at within
      have others := ih within.2
      have own := Account.remaining_add_answered within.1
      rw [pendingOf_cons, List.map_append, List.sum_append, List.map_cons, List.map_cons,
        List.sum_cons, List.sum_cons]
      omega

section Step

variable {events : List Event} {responses : List Response} {rehearsal : Rehearsal}

/-- A registration opens an account, of which as much is pending as is noted. -/
theorem Books.expect_pending (books : Books events responses accounts)
    (pending : rehearsal.pending = pendingOf accounts) (registration : Registration) :
    ∃ later, Books (events ++ [.expect registration]) responses later ∧
      (rehearsal.step (.expect registration)).pending = pendingOf later := by
  refine ⟨accounts ++ [⟨registration, []⟩], books.registered registration, ?_⟩
  rw [pending_expect, pending, pendingOf_append, pendingOf_cons, Account.pending?_opened]
  split
  · exact (List.append_nil _).symm
  · rfl

/-- An execution is credited to the account whose expectation it uses. -/
theorem Books.execute_pending (books : Books events responses accounts)
    (pending : rehearsal.pending = pendingOf accounts) (call : Call) :
    ∃ later, Books (events ++ [.execute call]) (responses ++ [(rehearsal.attempt call).1]) later ∧
      (rehearsal.attempt call).2.pending = pendingOf later := by
  have done := rehearsal.attempted call
  generalize rehearsal.attempt call = result at done ⊢
  cases done with
  | @answered front back expectation cut first meets =>
      rw [pending] at cut
      obtain ⟨before, account, behind, rfl, frontOpen, found, backOpen, passed⟩ :=
        exists_account cut first
      obtain ⟨isOpen, rfl⟩ := Account.pending?_eq_some_iff.mp found
      refine ⟨before ++ account.credit call :: behind,
        books.answered passed ⟨isOpen, meets⟩, ?_⟩
      rw [pendingOf_append, pendingOf_cons, Account.pending?_credit isOpen, frontOpen, backOpen]
  | unexpected unmet =>
      rw [pending, unmet_iff_pendingOf] at unmet
      exact ⟨accounts, books.unexpected unmet, pending⟩

end Step

/-- The books of a rehearsal show what is pending in it. -/
theorem exists_books (events : List Event) :
    ∃ accounts, Books events (initial.responses events) accounts ∧
      (initial.run events).pending = pendingOf accounts := by
  induction events using List.reverseRecOn with
  | nil => exact ⟨[], .start, rfl⟩
  | append_singleton events event ih =>
      -- The last event is entered in the books that the events before it have led to.
      obtain ⟨accounts, books, pending⟩ := ih
      rw [responses_append, run_append]
      cases event with
      | expect registration =>
          have silent : (initial.run events).responses [.expect registration] = [] := rfl
          rw [silent, List.append_nil]
          exact books.expect_pending pending registration
      | execute call => exact books.execute_pending pending call

end Pending

/-! ## Balance -/

/-- What holds behind a row of events, and what the next execution does. -/
structure Accounted (events : List Event) : Prop where
  /-- Nothing that is pending is used up. -/
  remaining_pos : ∀ expectation ∈ (initial.run events).pending, 1 ≤ expectation.remaining
  /-- An execution uses the first expectation that meets it, or it changes nothing. -/
  attempted : ∀ call, Attempted (initial.run events) call ((initial.run events).attempt call)
  /-- An execution is unexpected if and only if nothing that is pending meets it. -/
  unexpected_iff : ∀ call,
    (∃ unexpected, ((initial.run events).attempt call).1 = .error unexpected) ↔
      ∀ expectation ∈ (initial.run events).pending, ¬expectation.Meets call
  /-- An expectation answers what the reply of its registration is stored as. -/
  stored : ∀ registration ∈ registrations events, ∀ remaining,
    Stored registration.reply (registration.expectation remaining).reply
  /-- Each expectation answers the executions credited to it, and these are not too many. -/
  books : ∃ accounts, Books events (initial.responses events) accounts ∧
    accounts.map Account.registration = registrations events ∧
    (initial.run events).pending = pendingOf accounts ∧
    ∀ account ∈ accounts, account.answered.length ≤ account.registration.times
  /-- What is still expected and what was answered is what was expected. -/
  balance : (initial.run events).remainingCount + answerCount (initial.responses events) =
    expectedCount events
  /-- All expectations are met if and only if as much was answered as was expected. -/
  met_iff : (initial.run events).unmet? = none ↔
    expectedCount events = answerCount (initial.responses events)

theorem attempt_unexpected_iff (rehearsal : Rehearsal) (call : Call) :
    (∃ unexpected, (rehearsal.attempt call).1 = .error unexpected) ↔
      ∀ expectation ∈ rehearsal.pending, ¬expectation.Meets call := by
  have done := rehearsal.attempted call
  generalize rehearsal.attempt call = result at done ⊢
  cases done with
  | @answered front back expectation cut first meets =>
      refine iff_of_false ?_ ?_
      · rintro ⟨unexpected, impossible⟩
        cases impossible
      · intro unmet
        apply unmet expectation _ meets
        rw [cut]
        exact List.mem_append_right _ List.mem_cons_self
  | unexpected unmet => exact iff_of_true ⟨_, rfl⟩ unmet

theorem unmet?_eq_none_iff (rehearsal : Rehearsal) :
    rehearsal.unmet? = none ↔ rehearsal.pending = [] := by
  rw [unmet?]
  cases rehearsal.pending <;> simp

/-- If nothing that is pending is used up, nothing is pending unless something is expected. -/
theorem pending_eq_nil_iff {rehearsal : Rehearsal}
    (positive : ∀ expectation ∈ rehearsal.pending, 1 ≤ expectation.remaining) :
    rehearsal.pending = [] ↔ rehearsal.remainingCount = 0 := by
  rw [remainingCount]
  cases pending : rehearsal.pending with
  | nil => simp
  | cons expectation rest =>
      rw [pending, List.forall_mem_cons] at positive
      have first := positive.1
      rw [List.map_cons, List.sum_cons]
      refine iff_of_false (List.cons_ne_nil _ _) ?_
      omega

theorem remaining_pos_of_mem {accounts : List Account} {expectation : Expectation}
    (member : expectation ∈ pendingOf accounts) : 1 ≤ expectation.remaining := by
  obtain ⟨account, _, found⟩ := List.mem_filterMap.mp member
  obtain ⟨isOpen, rfl⟩ := Account.pending?_eq_some_iff.mp found
  exact Nat.sub_pos_of_lt isOpen

/--
A rehearsal accounts for every execution.  Whatever is registered and executed in whatever order,
an execution that no pending expectation meets is unexpected and changes nothing, and every other
one uses the first expectation that meets it once and gets its reply.  Nothing is pending that is
used up, no expectation answers more often than it was registered for, and what is still expected
is what was expected less what was answered.  So all expectations are met if and only if these
two are equal.
-/
theorem accounted (events : List Event) : Accounted events := by
  obtain ⟨accounts, books, pending⟩ := exists_books events
  have positive : ∀ expectation ∈ (initial.run events).pending, 1 ≤ expectation.remaining := by
    rw [pending]
    exact fun _ => remaining_pos_of_mem
  have expected : expectedCount events =
      (accounts.map fun account => account.registration.times).sum := by
    rw [expectedCount, ← books.registrations_eq, List.map_map]
    rfl
  have balance : (initial.run events).remainingCount +
      answerCount (initial.responses events) = expectedCount events := by
    rw [remainingCount, pending, books.answerCount_eq, expected]
    exact remaining_add_answered books.answered_le
  have met : (initial.run events).unmet? = none ↔
      expectedCount events = answerCount (initial.responses events) := by
    rw [unmet?_eq_none_iff, pending_eq_nil_iff positive]
    omega
  exact
    { remaining_pos := positive
      attempted := (initial.run events).attempted
      unexpected_iff := attempt_unexpected_iff (initial.run events)
      stored := fun _ _ _ => stored_iff.mpr rfl
      books := ⟨accounts, books, books.registrations_eq, pending, books.answered_le⟩
      balance := balance
      met_iff := met }

end ContentApi.Rehearsal
