import ContentApi.Proofs.Rehearsal.Accounts
import Mathlib.Data.List.FinRange
import Mathlib.Logic.Equiv.Defs
import Mathlib.Logic.Function.Iterate

/-!
# Executions in another order

As long as every expectation names its entity, an execution has to do with the expectations of
its own resource and entity only: it uses the first of them and leaves all others as they are
(`pendingAt_attempt`).  What is left of them can therefore be told from the number of executions
for the same resource and entity (`pendingAt_executions`), and in front of each execution this
number stays the same when executions are reordered that have nothing to do with each other
(`Reordering.countAt_take`).  So each of them gives the same in every such order, and in the end
either all expectations are met or they are not (`responses_reordered`).
-/

namespace ContentApi

/-- The resource and the entity of an execution. -/
def Call.address (call : Call) : String × Option String :=
  (call.resource.key, call.context.entityId)

/-- The resource and the entity that an expectation names. -/
def Expectation.address (expectation : Expectation) : String × Option String :=
  (expectation.resource, expectation.entityId)

theorem Expectation.meets_iff_of_ne_none {expectation : Expectation}
    (named : expectation.entityId ≠ none) (call : Call) :
    expectation.Meets call ↔ expectation.address = call.address := by
  obtain ⟨id, isNamed⟩ := Option.ne_none_iff_exists'.mp named
  rw [Meets, address, Call.address, isNamed, Prod.mk.injEq]
  apply and_congr_right
  intro _
  simp [eq_comm]

namespace Rehearsal

/-- Every pending expectation names its entity. -/
def Named (pending : List Expectation) : Prop :=
  ∀ expectation ∈ pending, expectation.entityId ≠ none

/-- The pending expectations for one resource and entity. -/
def pendingAt (address : String × Option String) (pending : List Expectation) :
    List Expectation :=
  pending.filter fun expectation => expectation.address = address

/-- What is left when the first expectation is used once. -/
def useFirst : List Expectation → List Expectation
  | [] => []
  | expectation :: rest => expectation.used ++ rest

/-- What an execution gives if the first expectation that it can use is this one, if any. -/
def respond (call : Call) : Option Expectation → Response
  | none => .error ⟨call.resource.key, call.context.entityId⟩
  | some expectation => .ok expectation.reply

/-! ## Pending expectations for one resource and entity -/

section PendingAt

variable {address : String × Option String}

theorem pendingAt_append (front back : List Expectation) :
    pendingAt address (front ++ back) = pendingAt address front ++ pendingAt address back :=
  List.filter_append front back

theorem pendingAt_cons (expectation : Expectation) (rest : List Expectation) :
    pendingAt address (expectation :: rest) =
      if expectation.address = address then expectation :: pendingAt address rest
      else pendingAt address rest := by
  simp [pendingAt, List.filter_cons]

/-- What is left of an expectation is for the same resource and entity. -/
theorem pendingAt_used (expectation : Expectation) :
    pendingAt address expectation.used =
      if expectation.address = address then expectation.used else [] := by
  rw [Expectation.used]
  split
  · exact (ite_self _).symm
  · rw [pendingAt_cons]
    rfl

theorem pendingAt_eq_nil_iff {pending : List Expectation} :
    pendingAt address pending = [] ↔
      ∀ expectation ∈ pending, expectation.address ≠ address := by
  simp [pendingAt]

/-- Nothing is pending if nothing is pending at any address. -/
theorem eq_nil_iff_pendingAt {pending : List Expectation} :
    pending = [] ↔ ∀ address, pendingAt address pending = [] := by
  constructor
  · rintro rfl address
    rfl
  · intro nowhere
    cases pending with
    | nil => rfl
    | cons expectation rest =>
        have found := nowhere expectation.address
        rw [pendingAt_cons, if_pos rfl] at found
        cases found

theorem entityId_of_mem_used {expectation left : Expectation}
    (member : left ∈ expectation.used) : left.entityId = expectation.entityId := by
  rw [Expectation.used] at member
  split at member
  · cases member
  · rw [List.mem_singleton.mp member]

end PendingAt

/-! ## Single executions -/

section Attempt

variable {rehearsal : Rehearsal} {call : Call}

/-- An execution registers nothing, so that what is pending still names its entity. -/
theorem named_attempt (named : Named rehearsal.pending) (call : Call) :
    Named (rehearsal.attempt call).2.pending := by
  have done := rehearsal.attempted call
  generalize rehearsal.attempt call = result at done ⊢
  cases done with
  | @answered front back expectation cut first meets =>
      rw [cut, Named, List.forall_mem_append, List.forall_mem_cons] at named
      show Named (front ++ (expectation.used ++ back))
      rw [Named, List.forall_mem_append, List.forall_mem_append]
      refine ⟨named.1, ?_, named.2.2⟩
      intro left member
      rw [entityId_of_mem_used member]
      exact named.2.1
  | unexpected unmet => exact named

/-- Where all expectations name their entity, only those at its address meet an execution. -/
theorem unmet_iff_pendingAt {pending : List Expectation} (named : Named pending) :
    (∀ expectation ∈ pending, ¬expectation.Meets call) ↔
      pendingAt call.address pending = [] := by
  rw [pendingAt_eq_nil_iff]
  apply forall₂_congr
  intro expectation member
  rw [expectation.meets_iff_of_ne_none (named _ member)]

/-- An execution gives what the first expectation at its address gives. -/
theorem response_eq (named : Named rehearsal.pending) :
    (rehearsal.attempt call).1 =
      respond call (pendingAt call.address rehearsal.pending).head? := by
  have done := rehearsal.attempted call
  generalize rehearsal.attempt call = result at done ⊢
  cases done with
  | @answered front back expectation cut first meets =>
      rw [cut, Named, List.forall_mem_append, List.forall_mem_cons] at named
      have passed := (unmet_iff_pendingAt named.1).mp first
      have own := (expectation.meets_iff_of_ne_none named.2.1 call).mp meets
      rw [cut, pendingAt_append, passed, pendingAt_cons, if_pos own]
      rfl
  | unexpected unmet =>
      rw [(unmet_iff_pendingAt named).mp unmet]
      rfl

/-- An execution uses the first expectation at its address and leaves all others as they are. -/
theorem pendingAt_attempt (named : Named rehearsal.pending) (address : String × Option String) :
    pendingAt address (rehearsal.attempt call).2.pending =
      if call.address = address then useFirst (pendingAt address rehearsal.pending)
      else pendingAt address rehearsal.pending := by
  have done := rehearsal.attempted call
  generalize rehearsal.attempt call = result at done ⊢
  cases done with
  | @answered front back expectation cut first meets =>
      rw [cut, Named, List.forall_mem_append, List.forall_mem_cons] at named
      have own := (expectation.meets_iff_of_ne_none named.2.1 call).mp meets
      show pendingAt address (front ++ (expectation.used ++ back)) = _
      rw [cut, pendingAt_append, pendingAt_append, pendingAt_append, pendingAt_cons,
        pendingAt_used, own]
      split
      · -- At its own address nothing stands in front of the expectation that is used.
        rename_i same
        subst same
        rw [(unmet_iff_pendingAt named.1).mp first]
        rfl
      · rfl
  | unexpected unmet =>
      split
      · rename_i same
        subst same
        rw [(unmet_iff_pendingAt named).mp unmet]
        rfl
      · rfl

end Attempt

/-! ## Rows of executions -/

/-- Executions as events. -/
def executions (calls : List Call) : List Event :=
  calls.map Event.execute

/-- How many of some executions are at an address. -/
def countAt (address : String × Option String) (calls : List Call) : Nat :=
  calls.countP fun call => call.address = address

section Executions

variable {rehearsal : Rehearsal}

/-- If only expectations that name their entity are registered, only such ones are pending. -/
theorem named_run {events : List Event} (start : Named rehearsal.pending)
    (named : ∀ registration, Event.expect registration ∈ events →
      registration.entityId ≠ none) :
    Named (rehearsal.run events).pending := by
  refine @run_induction (fun behind => Named behind.pending) rehearsal events start ?_
  intro before event member holds
  cases event with
  | expect registration =>
      rw [pending_expect]
      split
      · exact holds
      · rw [Named, List.forall_mem_append, List.forall_mem_singleton]
        exact ⟨holds, named registration member⟩
  | execute call => exact named_attempt holds call

theorem named_executions (named : Named rehearsal.pending) (calls : List Call) :
    Named (rehearsal.run (executions calls)).pending := by
  apply named_run named
  intro registration member
  obtain ⟨call, _, impossible⟩ := List.mem_map.mp member
  cases impossible

/-- Behind a row of executions as many are used at an address as were made there. -/
theorem pendingAt_executions (named : Named rehearsal.pending) (address : String × Option String)
    (calls : List Call) :
    pendingAt address (rehearsal.run (executions calls)).pending =
      useFirst^[countAt address calls] (pendingAt address rehearsal.pending) := by
  induction calls generalizing rehearsal with
  | nil => rfl
  | cons call rest ih =>
      have behind := ih (named_attempt named call)
      show pendingAt address ((rehearsal.attempt call).2.run (executions rest)).pending = _
      rw [behind, pendingAt_attempt named, countAt, countAt, List.countP_cons]
      by_cases own : call.address = address
      · simp [own, Function.iterate_succ_apply]
      · simp [own]

/-- What one of several executions gives is what it gives behind those in front of it. -/
theorem responses_executions (calls : List Call) (index : Fin calls.length) :
    (rehearsal.responses (executions calls))[index.val]? =
      some ((rehearsal.run (executions (calls.take index))).attempt calls[index]).1 := by
  induction calls generalizing rehearsal with
  | nil => exact index.elim0
  | cons call rest ih =>
      cases index using Fin.cases with
      | zero => rfl
      | succ index => exact @ih (rehearsal.attempt call).2 index

end Executions

/-! ## Reorderings -/

/--
Executions in another order, in which those with the same resource and entity follow each other
as before.
-/
structure Reordering (calls others : List Call) where
  /-- The place of an execution in the other order. -/
  place : Fin calls.length ≃ Fin others.length
  same : ∀ index, others[place index] = calls[index]
  follows : ∀ earlier later, earlier < later →
    calls[earlier].address = calls[later].address → place earlier < place later

/-- Members are counted in front of a place by their indices. -/
theorem countP_take {α : Type} (test : α → Bool) (members : List α) (bound : Nat) :
    (members.take bound).countP test =
      (List.finRange members.length).countP fun index =>
        decide (index.val < bound) && test members[index] := by
  induction members generalizing bound with
  | nil => simp
  | cons member rest ih =>
      cases bound with
      | zero => simp
      | succ bound =>
          simp [List.finRange_succ, List.countP_cons, List.countP_map, Function.comp_def, ih]

namespace Reordering

variable {calls others : List Call}

theorem place_lt_iff (order : Reordering calls others) {first second : Fin calls.length}
    (alike : calls[first].address = calls[second].address) :
    order.place first < order.place second ↔ first < second := by
  rcases lt_trichotomy first second with less | rfl | greater
  · exact iff_of_true (order.follows _ _ less alike) less
  · exact iff_of_false (lt_irrefl _) (lt_irrefl _)
  · exact iff_of_false (order.follows _ _ greater alike.symm).asymm greater.asymm

/-- Every place in the other order is that of one execution. -/
theorem map_place_perm (order : Reordering calls others) :
    ((List.finRange calls.length).map order.place).Perm (List.finRange others.length) := by
  rw [List.perm_ext_iff_of_nodup ((List.nodup_finRange _).map order.place.injective)
    (List.nodup_finRange _)]
  intro index
  refine iff_of_true ?_ (List.mem_finRange index)
  exact List.mem_map.mpr ⟨order.place.symm index, List.mem_finRange _, by simp⟩

theorem perm (order : Reordering calls others) : others.Perm calls := by
  have moved : ((List.finRange calls.length).map order.place).map (others[·]) = calls :=
    calc
      _ = (List.finRange calls.length).map (others[order.place ·]) := List.map_map
      _ = (List.finRange calls.length).map (calls[·]) :=
        List.map_congr_left fun index _ => order.same index
      _ = calls := List.map_getElem_finRange calls
  have whole : (List.finRange others.length).map (others[·]) = others :=
    List.map_getElem_finRange others
  have members := order.map_place_perm.map (others[·])
  rw [moved, whole] at members
  exact members.symm

/-- In front of an execution there are in both orders as many with its resource and entity. -/
theorem countAt_take (order : Reordering calls others) (index : Fin calls.length) :
    countAt calls[index].address (others.take (order.place index)) =
      countAt calls[index].address (calls.take index) := by
  rw [countAt, countAt, countP_take, countP_take, ← order.map_place_perm.countP_eq,
    List.countP_map]
  apply List.countP_congr
  intro earlier _
  simp only [Function.comp_apply, order.same, Bool.and_eq_true, decide_eq_true_eq]
  -- Only executions at the address are compared, and those follow each other as before.
  apply and_congr_left
  intro alike
  exact order.place_lt_iff alike

theorem countAt_eq (order : Reordering calls others) (address : String × Option String) :
    countAt address others = countAt address calls :=
  order.perm.countP_eq _

end Reordering

/--
Where every expectation names its entity, the order does not matter.  If executions are made in
another order, in which only those with the same resource and entity follow each other as before,
each of them gives what it gave in the first order, whether it is a reply or nobody expected it.
In the end all expectations are met in both orders or in none.
-/
theorem responses_reordered {events : List Event}
    (named : ∀ registration, Event.expect registration ∈ events →
      registration.entityId ≠ none)
    {calls others : List Call} (order : Reordering calls others) :
    (∀ index, ∃ response,
      ((initial.run events).responses (executions calls))[index.val]? = some response ∧
        ((initial.run events).responses (executions others))[(order.place index).val]? =
          some response) ∧
      (((initial.run events).run (executions calls)).unmet? = none ↔
        ((initial.run events).run (executions others)).unmet? = none) := by
  have start : Named (initial.run events).pending :=
    named_run (List.forall_mem_nil _) named
  refine ⟨?_, ?_⟩
  · intro index
    refine ⟨_, responses_executions calls index, ?_⟩
    rw [responses_executions others (order.place index), response_eq (named_executions start _),
      response_eq (named_executions start _), pendingAt_executions start,
      pendingAt_executions start, order.same, order.countAt_take]
  · rw [unmet?_eq_none_iff, unmet?_eq_none_iff, eq_nil_iff_pendingAt, eq_nil_iff_pendingAt]
    apply forall_congr'
    intro address
    rw [pendingAt_executions start, pendingAt_executions start, order.countAt_eq]

/-- One person is expected twice, with different replies, and another person once. -/
def people : List Event :=
  [.expect ⟨"people", some "ada", 1, .ok none⟩,
    .expect ⟨"people", some "bob", 1, .error (.permissionDenied "bob")⟩,
    .expect ⟨"people", some "ada", 1, .error (.notFound "ada")⟩]

/-- An execution for a person. -/
def person (id : String) : Call :=
  ⟨.ofCollection "people" [.get], { entityId := some id }⟩

/-- Two executions for each of two persons, one person behind the other or by turns. -/
def byTurns : Reordering [person "ada", person "ada", person "bob", person "bob"]
    [person "ada", person "bob", person "ada", person "bob"] where
  place := Equiv.swap 1 2
  same
    | 0 => rfl
    | 1 => rfl
    | 2 => rfl
    | 3 => rfl
  follows := by decide

/-- By turns each execution gives what it gives if one person comes behind the other. -/
theorem responses_reordered_people :
    (∀ registration, Event.expect registration ∈ people → registration.entityId ≠ none) ∧
      (∀ index, ∃ response,
        ((initial.run people).responses
          (executions [person "ada", person "ada", person "bob", person "bob"]))[index.val]? =
            some response ∧
          ((initial.run people).responses
            (executions [person "ada", person "bob", person "ada", person "bob"]))[
              (byTurns.place index).val]? = some response) ∧
        (((initial.run people).run
          (executions [person "ada", person "ada", person "bob", person "bob"])).unmet? = none ↔
          ((initial.run people).run
            (executions [person "ada", person "bob", person "ada", person "bob"])).unmet? =
            none) := by
  have named : ∀ registration, Event.expect registration ∈ people →
      registration.entityId ≠ none := by
    simp [people]
  exact ⟨named, responses_reordered named byTurns⟩

end Rehearsal

end ContentApi
