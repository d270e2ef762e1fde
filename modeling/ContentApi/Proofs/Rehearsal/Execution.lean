import ContentApi.Expansion.Trace
import ContentApi.Rehearsal

/-!
# Events of a rehearsal

A rehearsal lives through a row of events: expectations are registered and resources are
executed, whether an execution is expected or not.  An execution uses the first pending
expectation that meets it once, and if there is none it leaves the rehearsal as it is.  That is
all that an execution can do (`attempted`), and everything else about rows of events follows from
it.
-/

namespace ContentApi

/-- An expectation meets an execution of its resource, for its own entity or for any. -/
def Expectation.Meets (expectation : Expectation) (call : Call) : Prop :=
  expectation.resource = call.resource.key ∧
    (expectation.entityId = none ∨
      ∃ id, expectation.entityId = some id ∧ call.context.entityId = some id)

theorem Expectation.fits_iff (expectation : Expectation) (call : Call) :
    expectation.fits call.resource.key call.context.entityId = true ↔
      expectation.Meets call := by
  rw [fits, Meets, Bool.and_eq_true, Bool.or_eq_true, beq_iff_eq, beq_iff_eq,
    Option.isNone_iff_eq_none]
  apply and_congr_right
  intro _
  cases expectation.entityId with
  | none => simp
  | some id => simp [eq_comm]

/-- What is left of an expectation that is used once, which is nothing behind its last use. -/
def Expectation.used (expectation : Expectation) : List Expectation :=
  if expectation.remaining ≤ 1 then []
  else [{ expectation with remaining := expectation.remaining - 1 }]

/-- An expectation as it is registered. -/
structure Registration where
  resource : String
  /-- The id of the entity, or nothing if any will do. -/
  entityId : Option String
  /-- How many executions are expected. -/
  times : Nat
  reply : Reply

/-- The expectation that a registration notes, with so many executions still expected. -/
def Registration.expectation (registration : Registration) (remaining : Nat) : Expectation where
  resource := registration.resource
  entityId := registration.entityId
  reply := registration.reply.mapError Rehearsal.canned
  remaining := remaining

namespace Rehearsal

/--
What a reply is stored as.  An error is kept if it says that something is missing, hidden or
broken inside, with what it says of it; any other one becomes an internal error with its wording.
-/
inductive Stored : Reply → Reply → Prop where
  | answer (answer : Option Answer) : Stored (.ok answer) (.ok answer)
  | notFound (what : String) : Stored (.error (.notFound what)) (.error (.notFound what))
  | permissionDenied (what : String) :
      Stored (.error (.permissionDenied what)) (.error (.permissionDenied what))
  | internal (text : String) : Stored (.error (.internal text)) (.error (.internal text))
  | other {error : ApiError} (notMissing : ∀ what, error ≠ .notFound what)
      (notHidden : ∀ what, error ≠ .permissionDenied what)
      (notInternal : ∀ text, error ≠ .internal text) :
      Stored (.error error) (.error (.internal error.message))

theorem stored_iff {reply kept : Reply} : Stored reply kept ↔ kept = reply.mapError canned := by
  constructor
  · intro stored
    cases stored with
    | answer | notFound | permissionDenied | internal => rfl
    | other notMissing notHidden notInternal =>
        exact congrArg Except.error (canned.eq_4 _ notMissing notHidden notInternal).symm
  · rintro rfl
    cases reply with
    | ok answer => exact .answer answer
    | error error =>
        cases error with
        | notFound what => exact .notFound what
        | permissionDenied what => exact .permissionDenied what
        | internal text => exact .internal text
        | _ => exact .other nofun nofun nofun

/-- What can happen to a rehearsal. -/
inductive Event where
  | expect (registration : Registration)
  | execute (call : Call)

/-- What an execution gives: the reply of an expectation, unless nobody expected it. -/
abbrev Response := Except Unexpected Reply

/-- An execution, after which the rehearsal goes on even if nobody expected it. -/
def attempt (rehearsal : Rehearsal) (call : Call) : Response × Rehearsal :=
  let run : ExceptT Unexpected (StateM Rehearsal) Reply :=
    execute call.resource call.context
  run.run.run rehearsal

/-- The rehearsal behind one event. -/
def step (rehearsal : Rehearsal) : Event → Rehearsal
  | .expect registration =>
      rehearsal.expect registration.resource registration.entityId registration.times
        registration.reply
  | .execute call => (rehearsal.attempt call).2

/-- The rehearsal behind a row of events. -/
def run (rehearsal : Rehearsal) (events : List Event) : Rehearsal :=
  events.foldl step rehearsal

/-- What the executions in a row of events give, the first one first. -/
def responses (rehearsal : Rehearsal) : List Event → List Response
  | [] => []
  | .expect registration :: rest => responses (rehearsal.step (.expect registration)) rest
  | .execute call :: rest =>
      (rehearsal.attempt call).1 :: responses (rehearsal.step (.execute call)) rest

theorem run_append (rehearsal : Rehearsal) (front back : List Event) :
    rehearsal.run (front ++ back) = (rehearsal.run front).run back :=
  List.foldl_append

theorem responses_append (rehearsal : Rehearsal) (front back : List Event) :
    rehearsal.responses (front ++ back) =
      rehearsal.responses front ++ (rehearsal.run front).responses back := by
  induction front generalizing rehearsal with
  | nil => rfl
  | cons event rest ih =>
      have behind := ih (rehearsal.step event)
      cases event with
      | expect registration => exact behind
      | execute call => exact congrArg ((rehearsal.attempt call).1 :: ·) behind

/-- What holds at first and is kept by every event holds behind every row of events. -/
theorem run_induction {holds : Rehearsal → Prop} {rehearsal : Rehearsal} {events : List Event}
    (start : holds rehearsal)
    (kept : ∀ before, ∀ event ∈ events, holds before → holds (before.step event)) :
    holds (rehearsal.run events) := by
  induction events generalizing rehearsal with
  | nil => exact start
  | cons event rest ih =>
      apply ih
      · exact kept rehearsal event List.mem_cons_self start
      · intro before later member
        exact kept before later (List.mem_cons_of_mem _ member)

/-- Only an expectation of at least one execution is noted, behind all that are pending. -/
theorem pending_expect (rehearsal : Rehearsal) (registration : Registration) :
    (rehearsal.step (.expect registration)).pending =
      if registration.times = 0 then rehearsal.pending
      else rehearsal.pending ++ [registration.expectation registration.times] := by
  rw [step, expect]
  split <;> rfl

/-! ## Single executions -/

/--
All that an execution does.  It uses the first pending expectation that meets it, or it is not
expected and changes nothing.
-/
inductive Attempted (rehearsal : Rehearsal) (call : Call) : Response × Rehearsal → Prop where
  | answered {front back : List Expectation} {expectation : Expectation}
      (cut : rehearsal.pending = front ++ expectation :: back)
      (first : ∀ earlier ∈ front, ¬earlier.Meets call) (meets : expectation.Meets call) :
      Attempted rehearsal call
        (.ok expectation.reply, ⟨front ++ (expectation.used ++ back)⟩)
  | unexpected (unmet : ∀ expectation ∈ rehearsal.pending, ¬expectation.Meets call) :
      Attempted rehearsal call
        (.error ⟨call.resource.key, call.context.entityId⟩, rehearsal)

variable {call : Call}

theorem consume_eq_none {pending : List Expectation}
    (unmet : ∀ expectation ∈ pending, ¬expectation.Meets call) :
    consume call.resource.key call.context.entityId pending = none := by
  induction pending with
  | nil => rfl
  | cons expectation rest ih =>
      have passed := unmet _ List.mem_cons_self
      rw [← expectation.fits_iff] at passed
      rw [consume, if_neg passed,
        ih fun later member => unmet later (List.mem_cons_of_mem _ member)]
      rfl

theorem consume_of_first {front : List Expectation} {expectation : Expectation}
    (first : ∀ earlier ∈ front, ¬earlier.Meets call) (meets : expectation.Meets call)
    (back : List Expectation) :
    consume call.resource.key call.context.entityId (front ++ expectation :: back) =
      some (expectation.reply, front ++ (expectation.used ++ back)) := by
  induction front with
  | nil =>
      have fits := (expectation.fits_iff call).mpr meets
      have usedUp : expectation.remaining - 1 = 0 ↔ expectation.remaining ≤ 1 := by omega
      rw [List.nil_append, consume, if_pos fits, Expectation.used]
      simp only [usedUp, List.nil_append]
      split <;> rfl
  | cons earlier rest ih =>
      have passed := first _ List.mem_cons_self
      rw [← earlier.fits_iff] at passed
      rw [List.cons_append, consume, if_neg passed,
        ih fun later member => first later (List.mem_cons_of_mem _ member)]
      rfl

/-- Either nothing that is pending meets an execution, or there is a first one that does. -/
theorem unmet_or_first (call : Call) (pending : List Expectation) :
    (∀ expectation ∈ pending, ¬expectation.Meets call) ∨
      ∃ front expectation back, pending = front ++ expectation :: back ∧
        (∀ earlier ∈ front, ¬earlier.Meets call) ∧ expectation.Meets call := by
  classical
  cases found : pending.find? fun expectation => decide (expectation.Meets call) with
  | none =>
      left
      simpa using List.find?_eq_none.mp found
  | some expectation =>
      right
      obtain ⟨meets, front, back, cut, first⟩ := List.find?_eq_some_iff_append.mp found
      refine ⟨front, expectation, back, cut, ?_, by simpa using meets⟩
      intro earlier member
      simpa using first earlier member

/-- An execution looks for an expectation among those that are pending. -/
theorem attempt_eq (rehearsal : Rehearsal) (call : Call) :
    rehearsal.attempt call =
      match consume call.resource.key call.context.entityId rehearsal.pending with
      | none => (.error ⟨call.resource.key, call.context.entityId⟩, rehearsal)
      | some (reply, pending) => (.ok reply, ⟨pending⟩) := by
  have looked : ∀ next : Rehearsal → ExceptT Unexpected (StateM Rehearsal) Reply,
      (getThe Rehearsal >>= next).run.run rehearsal = (next rehearsal).run.run rehearsal :=
    fun _ => rfl
  rw [attempt, execute, looked]
  cases consume call.resource.key call.context.entityId rehearsal.pending <;> rfl

theorem attempted (rehearsal : Rehearsal) (call : Call) :
    Attempted rehearsal call (rehearsal.attempt call) := by
  rw [attempt_eq]
  rcases unmet_or_first call rehearsal.pending with
    unmet | ⟨front, expectation, back, cut, first, meets⟩
  · rw [consume_eq_none unmet]
    exact .unexpected unmet
  · have found := consume_of_first first meets back
    rw [← cut] at found
    rw [found]
    exact .answered cut first meets

end Rehearsal

end ContentApi
