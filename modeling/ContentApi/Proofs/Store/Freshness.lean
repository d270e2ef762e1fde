import ContentApi.Proofs.Store.Creation

/-!
# Generated ids and ids that were brought along

A counter does not know which ids clients have chosen themselves, so a generated id may be
that of an entity that is stored already, and the creation for which it is generated then
replaces that entity (`not_freshIds_chosen`).  This happens exactly where an operation has put
an entity that had the id from the start (`takenIfBrought_run`).
-/

namespace ContentApi

open Store (AnyRequest Stored after generatedId generatedIn)

/-- An operation is given an entity that has an id, and may put it. -/
inductive Operation.Brings (target : EntityRef) (entity : Entity) :
    {α : Type} → Operation α → Prop where
  | put : entity.address? = some target → Brings target entity (.put entity)
  | create : entity.address? = some target → Brings target entity (.create entity)

namespace Traffic

variable {traffic : Traffic} {maxPageSize : Nat} {target : EntityRef} {time number : Nat}
variable {stored : Entity}

/-- Whatever is put was brought along, or was given its id by the store. -/
theorem Consistent.brings_or_generates (consistent : Consistent maxPageSize traffic)
    {reply : Except ApiError Unit}
    (puts : traffic.answered[time]? = some ⟨number, .put target stored, reply⟩) :
    (∃ task, traffic.tasks[number]? = some task ∧ task.operation.Brings target stored) ∨
      traffic.Generates number := by
  obtain ⟨⟨operation, rest⟩, found, mayPut⟩ := consistent.puts (List.mem_of_getElem? puts)
  cases mayPut with
  | put address => exact .inl ⟨_, found, .put address⟩
  | brought address => exact .inl ⟨_, found, .create address⟩
  | assigned noId => exact .inr ⟨_, rest, found, noId⟩

/-- Before a time an operation has put an entity at an address that it had from the start. -/
def BroughtBefore (traffic : Traffic) (time : Nat) (target : EntityRef) : Prop :=
  ∃ earlier < time, ∃ number entity reply,
    traffic.answered[earlier]? = some ⟨number, .put target entity, reply⟩ ∧
      ∃ task, traffic.tasks[number]? = some task ∧ task.operation.Brings target entity

/-- What is stored at a time was put there before. -/
theorem exists_put_of_stored (isStored : Stored (traffic.history.take time) target) :
    ∃ earlier < time, ∃ number entity reply,
      traffic.answered[earlier]? = some ⟨number, .put target entity, reply⟩ := by
  obtain ⟨entity, member⟩ := isStored
  obtain ⟨earlier, found⟩ := List.mem_iff_getElem?.mp member
  have before : earlier < time := by
    have within := (List.getElem?_eq_some_iff.mp found).1
    rw [List.length_take] at within
    omega
  rw [List.getElem?_take_of_lt before, history, List.getElem?_map,
    Option.map_eq_some_iff] at found
  obtain ⟨⟨number, request, reply⟩, answered, isPut⟩ := found
  cases isPut
  exact ⟨earlier, before, number, entity, reply, answered⟩

theorem BroughtBefore.isStored (brought : traffic.BroughtBefore time target) :
    Stored (traffic.history.take time) target := by
  obtain ⟨earlier, before, number, entity, reply, puts, _⟩ := brought
  refine ⟨entity, List.mem_of_getElem? (i := earlier) ?_⟩
  rw [List.getElem?_take_of_lt before]
  exact getElem?_history puts

/-- If no id-less creation has put anything at an address, then it is taken only if an
operation has brought an entity there. -/
theorem isStored_iff_broughtBefore (consistent : Consistent maxPageSize traffic)
    (noneGenerated : ∀ (earlier number : Nat) (entity : Entity) (reply : Except ApiError Unit),
      earlier < time → traffic.answered[earlier]? = some ⟨number, .put target entity, reply⟩ →
      ¬traffic.Generates number) :
    (after maxPageSize (traffic.history.take time)).isStored target ↔
      traffic.BroughtBefore time target := by
  rw [Store.isStored_after]
  constructor
  · intro isStored
    obtain ⟨earlier, before, number, entity, reply, puts⟩ := exists_put_of_stored isStored
    refine ⟨earlier, before, number, entity, reply, puts, ?_⟩
    rcases consistent.brings_or_generates puts with brings | generates
    · exact brings
    · exact absurd generates (noneGenerated earlier number entity reply before puts)
  · exact BroughtBefore.isStored

/-- Generated ids are not those of entities that are stored already. -/
structure FreshIds (maxPageSize : Nat) (traffic : Traffic) : Prop where
  /-- An id-less creation replaces nothing. -/
  puts : ∀ (time number : Nat) (target : EntityRef) (stored : Entity)
    (reply : Except ApiError Unit), traffic.Generates number →
    traffic.answered[time]? = some ⟨number, .put target stored, reply⟩ →
    ¬(after maxPageSize (traffic.history.take time)).isStored target
  reserves : ∀ (time number : Nat) (collection id : String),
    traffic.answered[time]? = some ⟨number, .nextId collection, .ok id⟩ →
    ¬(after maxPageSize (traffic.history.take time)).isStored ⟨collection, id⟩

/-- A person is created under an id of its own, and then another one without an id. -/
def chosen : List Move :=
  [.call (.create (.person ⟨"people-1", "Ada", "Lovelace", "ada@example.com"⟩)),
    .send 0, .answer,
    .call (.create (.person ⟨"", "Alan", "Turing", "alan@example.com"⟩)),
    .send 1, .answer, .send 1, .answer]

/-- The id that was chosen is generated again, and the first person is lost. -/
theorem not_freshIds_chosen : ¬FreshIds 100 (run 100 chosen) := by
  intro fresh
  have generates : (run 100 chosen).Generates 1 :=
    ⟨.person ⟨"", "Alan", "Turing", "alan@example.com"⟩, _, rfl, rfl⟩
  have puts : (run 100 chosen).answered[2]? =
      some ⟨1, .put ⟨"people", "people-1"⟩
        (.person ⟨"people-1", "Alan", "Turing", "alan@example.com"⟩), .ok ()⟩ := rfl
  exact fresh.puts 2 1 _ _ _ generates puts (by decide)

/-- A generated id is that of a stored entity exactly if an operation has brought it. -/
structure TakenIfBrought (maxPageSize : Nat) (traffic : Traffic) : Prop where
  puts : ∀ (time number : Nat) (target : EntityRef) (stored : Entity)
    (reply : Except ApiError Unit), traffic.Generates number →
    traffic.answered[time]? = some ⟨number, .put target stored, reply⟩ →
    ((after maxPageSize (traffic.history.take time)).isStored target ↔
      traffic.BroughtBefore time target)
  reserves : ∀ (time number : Nat) (collection id : String),
    traffic.answered[time]? = some ⟨number, .nextId collection, .ok id⟩ →
    ((after maxPageSize (traffic.history.take time)).isStored ⟨collection, id⟩ ↔
      traffic.BroughtBefore time ⟨collection, id⟩)

/--
However many operations are called and however their messages interleave, as long as fewer
than `2 ^ 64` ids are generated in each collection, an id-less creation replaces an entity
exactly if another operation has put one there that had the id from the start, and an id that
is generated is that of a stored entity exactly in this case.
-/
theorem takenIfBrought_run (maxPageSize : Nat) (moves : List Move)
    (bound : ∀ collection, generatedIn (run maxPageSize moves).history collection < 2 ^ 64) :
    TakenIfBrought maxPageSize (run maxPageSize moves) := by
  have consistent := consistent_run maxPageSize moves
  generalize run maxPageSize moves = traffic at bound consistent ⊢
  constructor
  case puts =>
    intro time number target stored reply generates puts
    apply isStored_iff_broughtBefore consistent
    intro earlier other entity another before putsEarlier otherGenerates
    have same := puts_apart consistent (bound target.collection) otherGenerates generates
      putsEarlier puts
    exact absurd same (Nat.ne_of_lt before)
  case reserves =>
    intro time number collection id reserves
    apply isStored_iff_broughtBefore consistent
    intro earlier other entity another before putsEarlier otherGenerates
    -- What a creation has put was reserved earlier still, so its id differs from this one.
    obtain ⟨reserved, beforeThat, reservesEarlier⟩ :=
      reserved_of_puts consistent otherGenerates putsEarlier
    exact absurd rfl (reserved_ne consistent (bound collection) reservesEarlier reserves
      (by omega))

theorem takenIfBrought_run_chosen :
    (∀ collection, generatedIn (run 100 chosen).history collection < 2 ^ 64) ∧
      (run 100 chosen).store.entities.get? ⟨"people", "people-1"⟩ =
        some (.person ⟨"people-1", "Alan", "Turing", "alan@example.com"⟩) ∧
      TakenIfBrought 100 (run 100 chosen) := by
  have bound : ∀ collection, generatedIn (run 100 chosen).history collection < 2 ^ 64 :=
    fun _ => Nat.lt_of_le_of_lt List.countP_le_length (by decide)
  exact ⟨bound, rfl, takenIfBrought_run 100 chosen bound⟩

end Traffic

end ContentApi
