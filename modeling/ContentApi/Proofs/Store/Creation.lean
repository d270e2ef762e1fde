import ContentApi.Proofs.Store.GeneratedIds
import ContentApi.Proofs.Store.Traffic

/-!
# Entities that are created without an id

To create an entity that has no id takes two requests, one that reserves an id and one that
puts the entity under it (`Creation`), and other clients are answered between them.  As the
reserved ids differ, such entities never replace each other, and each is stored as it was but
for its id (`createsApart_run`).
-/

namespace ContentApi

open Store (AnyRequest after generatedId generatedIn)

/-! ## One creation -/

/-- An entity was given an id, and nothing else of it was changed. -/
inductive GivenId (id : String) : Entity → Entity → Prop where
  | person (value : Person) : GivenId id (.person value) (.person { value with id })
  | document (value : Document) :
      GivenId id (.document value) (.document { value with id := some id })

variable {entity stored : Entity} {id : String} {number : Nat}

theorem GivenId.address (given : GivenId id entity stored) (nonempty : id.isEmpty = false) :
    stored.address? = some ⟨entity.collection, id⟩ := by
  cases given with
  | person value => simp [Entity.address?, Entity.id, Entity.collection, nonempty]
  | document value => rfl

/-- An entity without an id is given one, unless it is a record. -/
theorem GivenId.of_assignId (noId : entity.id = none) (id : String) :
    GivenId id entity (entity.assignId id) ∨ ∃ value, entity = .record value := by
  cases entity with
  | person value => exact .inl (.person value)
  | document value => exact .inl (.document value)
  | site value => cases noId
  | record value => exact .inr ⟨value, rfl⟩

namespace Creation

/-- Gives the id under which an entity was stored. -/
def finish (id : String) : Except ApiError Unit → Program (Except ApiError String)
  | .error error => .done (.error error)
  | .ok () => .done (.ok id)

/-- Stores an entity under the id that was reserved for it. -/
def store (entity : Entity) : Except ApiError String → Program (Except ApiError String)
  | .error error => .done (.error error)
  | .ok id => (Program.connection.put (entity.assignId id)).run.bind (finish id)

end Creation

/-- How far the creation of an entity without an id is, as the exchanges of its task have it. -/
inductive Creation (entity : Entity) (number : Nat) :
    List Exchange → Program (Except ApiError String) → Prop where
  | reserving :
      Creation entity number [] (.ask (.nextId entity.collection) (Creation.store entity))
  | storing {id : String} {stored : Entity} : GivenId id entity stored →
      Creation entity number [⟨number, .nextId entity.collection, .ok id⟩]
        (.ask (.put ⟨entity.collection, id⟩ stored) (Creation.finish id))
  | finished {id : String} {stored : Entity} : GivenId id entity stored →
      Creation entity number
        [⟨number, .nextId entity.collection, .ok id⟩,
          ⟨number, .put ⟨entity.collection, id⟩ stored, .ok ()⟩]
        (.done (.ok id))
  /-- Nothing was put. -/
  | failed {exchanges : List Exchange} {error : ApiError} :
      (∀ exchange ∈ exchanges, exchange.sent = ⟨_, .nextId entity.collection⟩) →
      (error = .storeClosed ∨ ∃ value, entity = .record value) →
      Creation entity number exchanges (.done (.error error))

theorem program_create (noId : entity.id = none) :
    (Operation.create entity).program =
      .ask (.nextId entity.collection) (Creation.store entity) := by
  show (Program.connection.create entity).run = _
  unfold Connection.create
  rw [noId]
  show Program.ask _ _ = Program.ask _ _
  congr 1
  funext reply
  cases reply with
  | error error => rfl
  | ok id =>
      have finishes : ExceptT.bindCont (m := Program) (fun _ => pure id) = Creation.finish id := by
        funext reply
        cases reply <;> rfl
      exact congrArg (Program.bind _) finishes

theorem put_of_address {target : EntityRef} (address : stored.address? = some target) :
    (Program.connection.put stored).run = .ask (.put target stored) .done := by
  obtain ⟨id, isId, rfl⟩ := Option.map_eq_some_iff.mp address
  unfold Connection.put
  rw [isId]
  rfl

theorem put_of_noId (noId : entity.id = none) :
    (Program.connection.put entity).run =
      .done (.error (.invalidArgument (.missingId entity.collection))) := by
  unfold Connection.put
  rw [noId]
  rfl

theorem creation_of_leads (noId : entity.id = none) {exchanges : List Exchange}
    {rest : Program (Except ApiError String)}
    (leads : (Operation.create entity).program.Leads number exchanges rest) :
    Creation entity number exchanges rest := by
  -- The phase so far tells for which request the creation waits, and its reply the next phase.
  induction leads with
  | start =>
      rw [program_create noId]
      exact .reserving
  | answered before _ ih =>
      cases ih with
      | reserving =>
          let id := generatedId entity.collection (before.counter entity.collection + 1)
          show Creation entity number [⟨number, .nextId entity.collection, .ok id⟩]
            ((Program.connection.put (entity.assignId id)).run.bind (Creation.finish id))
          rcases GivenId.of_assignId noId id with given | ⟨value, rfl⟩
          · rw [put_of_address (given.address (Store.generatedId_ne_empty _ _))]
            exact .storing given
          · have kept : Entity.assignId (.record value) id = .record value := rfl
            rw [kept, put_of_noId noId]
            exact .failed (by simp [Exchange.sent]) (.inr ⟨value, rfl⟩)
      | storing given => exact .finished given
  | refused _ ih =>
      cases ih with
      | reserving => exact .failed (by simp) (.inl rfl)
      | storing given => exact .failed (by simp [Exchange.sent]) (.inl rfl)

theorem put_ne_nextId {other : Nat} {target : EntityRef} {collection : String}
    {reply : Except ApiError Unit} {another : Except ApiError String} :
    (⟨number, .put target stored, reply⟩ : Exchange) ≠
      ⟨other, .nextId collection, another⟩ :=
  fun same => absurd (congrArg Exchange.sent same) (AnyRequest.ne_of_kind nofun)

/-- A creation that has put an entity has had just the two exchanges. -/
theorem Creation.of_puts {exchanges : List Exchange} {rest : Program (Except ApiError String)}
    {target : EntityRef} {reply : Except ApiError Unit}
    (creation : Creation entity number exchanges rest)
    (member : ⟨number, .put target stored, reply⟩ ∈ exchanges) :
    ∃ id, target = ⟨entity.collection, id⟩ ∧ GivenId id entity stored ∧
      exchanges = [⟨number, .nextId entity.collection, .ok id⟩,
        ⟨number, .put target stored, .ok ()⟩] := by
  cases creation with
  | reserving => cases member
  | storing given => exact absurd (List.mem_singleton.mp member) put_ne_nextId
  | finished given =>
      rcases List.mem_cons.mp member with isFirst | member
      · exact absurd isFirst put_ne_nextId
      · cases List.mem_singleton.mp member
        exact ⟨_, rfl, given, rfl⟩
  | failed reserves => exact absurd (reserves _ member) (AnyRequest.ne_of_kind nofun)

theorem Creation.of_ok {exchanges : List Exchange}
    (creation : Creation entity number exchanges (.done (.ok id))) :
    ∃ stored, GivenId id entity stored ∧
      ⟨number, .put ⟨entity.collection, id⟩ stored, .ok ()⟩ ∈ exchanges := by
  cases creation with
  | finished given => exact ⟨_, given, List.mem_cons_of_mem _ List.mem_cons_self⟩

theorem Creation.of_error {exchanges : List Exchange} {error : ApiError}
    (creation : Creation entity number exchanges (.done (.error error))) :
    error = .storeClosed ∨ ∃ value, entity = .record value := by
  cases creation with
  | failed _ reason => exact reason

/-! ## Creations among others -/

/-- Two entries of a row that are all that is kept of it stand in the same order. -/
theorem eq_of_filter_eq_pair {α : Type*} {row : List α} {keeps : α → Bool}
    {first second entry later : α} (kept : row.filter keeps = [first, second])
    {time behind : Nat} (isEntry : row[time]? = some entry) (keepsEntry : keeps entry)
    (isLater : row[behind]? = some later) (keepsLater : keeps later) (before : time < behind) :
    entry = first ∧ later = second := by
  have inFront : entry ∈ row.take behind :=
    List.mem_of_getElem? ((List.getElem?_take_of_lt before).trans isEntry)
  have within : later ∈ row.drop behind := by
    apply List.mem_of_getElem? (i := 0)
    rw [List.getElem?_drop]
    exact isLater
  have both : [entry, later].Sublist row := by
    rw [← List.take_append_drop behind row]
    exact (List.singleton_sublist.mpr inFront).append (List.singleton_sublist.mpr within)
  have pair := both.filter keeps
  rw [kept, List.filter_cons_of_pos keepsEntry, List.filter_cons_of_pos keepsLater,
    List.filter_nil] at pair
  have same := pair.eq_of_length rfl
  exact ⟨(List.cons.inj same).1, (List.cons.inj (List.cons.inj same).2).1⟩

namespace Traffic

variable {traffic : Traffic} {maxPageSize : Nat} {target : EntityRef} {time : Nat}

/-- A task creates an entity that has no id. -/
def Generates (traffic : Traffic) (number : Nat) : Prop :=
  ∃ entity rest, traffic.tasks[number]? = some ⟨.create entity, rest⟩ ∧ entity.id = none

theorem getElem?_history {exchange : Exchange}
    (found : traffic.answered[time]? = some exchange) :
    traffic.history[time]? = some exchange.sent := by
  rw [history, List.getElem?_map, found]
  rfl

theorem exchangesOf_of_puts (consistent : Consistent maxPageSize traffic)
    {reply : Except ApiError Unit} (generates : traffic.Generates number)
    (puts : traffic.answered[time]? = some ⟨number, .put target stored, reply⟩) :
    traffic.exchangesOf number = [⟨number, .nextId target.collection, .ok target.id⟩,
      ⟨number, .put target stored, .ok ()⟩] := by
  obtain ⟨entity, rest, found, noId⟩ := generates
  have creation := creation_of_leads noId (consistent.tasks number _ found)
  have isIts : ⟨number, .put target stored, reply⟩ ∈ traffic.exchangesOf number :=
    List.mem_filter.mpr ⟨List.mem_of_getElem? puts, by simp⟩
  obtain ⟨id, rfl, _, exchanges⟩ := creation.of_puts isIts
  exact exchanges

/-- The id under which an id-less creation puts an entity was reserved for it before. -/
theorem reserved_of_puts (consistent : Consistent maxPageSize traffic)
    {reply : Except ApiError Unit} (generates : traffic.Generates number)
    (puts : traffic.answered[time]? = some ⟨number, .put target stored, reply⟩) :
    ∃ earlier < time, traffic.answered[earlier]? =
      some ⟨number, .nextId target.collection, .ok target.id⟩ := by
  have exchanges := exchangesOf_of_puts consistent generates puts
  have isFirst : ⟨number, .nextId target.collection, .ok target.id⟩ ∈
      traffic.exchangesOf number := by
    rw [exchanges]
    exact List.mem_cons_self
  obtain ⟨earlier, reserves⟩ := List.mem_iff_getElem?.mp (List.mem_filter.mp isFirst).1
  refine ⟨earlier, ?_, reserves⟩
  rcases Nat.lt_trichotomy earlier time with less | rfl | greater
  · exact less
  · exact absurd (Option.some.inj (puts.symm.trans reserves)) put_ne_nextId
  · exact absurd (eq_of_filter_eq_pair exchanges puts (by simp) reserves (by simp) greater).1
      put_ne_nextId

theorem not_lt_of_puts (consistent : Consistent maxPageSize traffic) {another : EntityRef}
    {entity : Entity} {reply other : Except ApiError Unit} {later : Nat}
    (generates : traffic.Generates number)
    (puts : traffic.answered[time]? = some ⟨number, .put target stored, reply⟩)
    (putsLater : traffic.answered[later]? = some ⟨number, .put another entity, other⟩) :
    ¬time < later := by
  intro before
  have exchanges := exchangesOf_of_puts consistent generates puts
  exact put_ne_nextId (eq_of_filter_eq_pair exchanges puts (by simp) putsLater (by simp) before).1

theorem reserved_ne (consistent : Consistent maxPageSize traffic) {collection : String}
    (bound : generatedIn traffic.history collection < 2 ^ 64) {other later : Nat}
    {reply another : Except ApiError String}
    (first : traffic.answered[time]? = some ⟨number, .nextId collection, reply⟩)
    (second : traffic.answered[later]? = some ⟨other, .nextId collection, another⟩)
    (different : time ≠ later) : reply ≠ another := by
  have isReply : reply = _ := consistent.replies _ _ first
  have isAnother : another = _ := consistent.replies _ _ second
  rw [isReply, isAnother]
  rcases Nat.lt_or_gt_of_ne different with less | greater
  · exact Store.reply_nextId_ne bound (getElem?_history first) (getElem?_history second) less
  · exact (Store.reply_nextId_ne bound (getElem?_history second) (getElem?_history first)
      greater).symm

theorem puts_apart (consistent : Consistent maxPageSize traffic)
    (bound : generatedIn traffic.history target.collection < 2 ^ 64) {other later : Nat}
    {entity : Entity} {reply another : Except ApiError Unit}
    (generates : traffic.Generates number) (otherGenerates : traffic.Generates other)
    (puts : traffic.answered[time]? = some ⟨number, .put target stored, reply⟩)
    (putsLater : traffic.answered[later]? = some ⟨other, .put target entity, another⟩) :
    time = later := by
  by_cases sameTask : number = other
  · subst sameTask
    have notBefore := not_lt_of_puts consistent generates puts putsLater
    have notBehind := not_lt_of_puts consistent generates putsLater puts
    omega
  · -- Both ids were reserved in this collection, and two tasks reserve at different times.
    obtain ⟨reserved, _, first⟩ := reserved_of_puts consistent generates puts
    obtain ⟨reservedLater, _, second⟩ := reserved_of_puts consistent otherGenerates putsLater
    have different : reserved ≠ reservedLater := by
      rintro rfl
      have same := Option.some.inj (first.symm.trans second)
      exact sameTask (congrArg Exchange.task same)
    exact absurd rfl (reserved_ne consistent bound first second different)

/-- At some time an entity was put at an address, and no id-less creation puts another one
there behind it. -/
structure Stores (maxPageSize : Nat) (traffic : Traffic) (number : Nat) (target : EntityRef)
    (stored : Entity) (time : Nat) : Prop where
  puts : traffic.answered[time]? = some ⟨number, .put target stored, .ok ()⟩
  held : (after maxPageSize (traffic.history.take (time + 1))).entities.get? target =
    some stored
  kept : ∀ (later other : Nat) (entity : Entity) (reply : Except ApiError Unit),
    time < later → traffic.answered[later]? = some ⟨other, .put target entity, reply⟩ →
    ¬traffic.Generates other

theorem stores_of_puts (consistent : Consistent maxPageSize traffic)
    (bound : generatedIn traffic.history target.collection < 2 ^ 64)
    (generates : traffic.Generates number)
    (puts : traffic.answered[time]? = some ⟨number, .put target stored, .ok ()⟩) :
    Stores maxPageSize traffic number target stored time where
  puts := puts
  held := by
    rw [List.take_add_one, getElem?_history puts]
    exact Store.get?_entities_after.mpr (Store.latestPut_concat.mpr (.inl rfl))
  kept := by
    intro later other entity reply before putsLater otherGenerates
    have same := puts_apart consistent bound generates otherGenerates puts putsLater
    exact absurd same (Nat.ne_of_lt before)

/-- Entities that are created without an id do not collide. -/
structure CreatesApart (maxPageSize : Nat) (traffic : Traffic) : Prop where
  /-- Every request for an id is answered, and the ids of one collection differ. -/
  reserved : ∀ (time number : Nat) (collection : String) (reply : Except ApiError String),
    traffic.answered[time]? = some ⟨number, .nextId collection, reply⟩ →
    (∃ id, reply = .ok id) ∧
      ∀ (later other : Nat) (another : Except ApiError String), time ≠ later →
        traffic.answered[later]? = some ⟨other, .nextId collection, another⟩ → reply ≠ another
  /-- No two of the creations, nor one of them twice, put something at one address. -/
  apart : ∀ (time later number other : Nat) (target : EntityRef) (stored entity : Entity)
    (reply another : Except ApiError Unit),
    traffic.Generates number → traffic.Generates other →
    traffic.answered[time]? = some ⟨number, .put target stored, reply⟩ →
    traffic.answered[later]? = some ⟨other, .put target entity, another⟩ → time = later
  /-- A creation that gives an id has stored its own entity there, as it was but for the id. -/
  created : ∀ (number : Nat) (entity : Entity) (id : String),
    traffic.tasks[number]? = some ⟨.create entity, .done (.ok id)⟩ → entity.id = none →
    ∃ time stored, GivenId id entity stored ∧
      stored.address? = some ⟨entity.collection, id⟩ ∧
      Stores maxPageSize traffic number ⟨entity.collection, id⟩ stored time
  /-- A creation fails only if the store has gone or the entity cannot be given an id. -/
  failed : ∀ (number : Nat) (entity : Entity) (error : ApiError),
    traffic.tasks[number]? = some ⟨.create entity, .done (.error error)⟩ → entity.id = none →
    error = .storeClosed ∨ ∃ value, entity = .record value

/--
Entities that are created without an id do not collide.  However many operations are called
and however their messages interleave, as long as fewer than `2 ^ 64` ids are generated in
each collection, the generated ids of a collection differ, and no two id-less creations put
anything at one address; each that gives an id has stored its own entity there, given that id
and otherwise unchanged.
-/
theorem createsApart_run (maxPageSize : Nat) (moves : List Move)
    (bound : ∀ collection, generatedIn (run maxPageSize moves).history collection < 2 ^ 64) :
    CreatesApart maxPageSize (run maxPageSize moves) := by
  have consistent := consistent_run maxPageSize moves
  generalize run maxPageSize moves = traffic at bound consistent ⊢
  constructor
  case reserved =>
    intro time number collection reply reserves
    refine ⟨⟨_, (consistent.replies _ _ reserves).trans (Store.reply_nextId _ _ _)⟩, ?_⟩
    intro later other another different reservesLater
    exact reserved_ne consistent (bound collection) reserves reservesLater different
  case apart =>
    intro time later number other target stored entity reply another
    exact puts_apart consistent (bound target.collection)
  case created =>
    intro number entity id found noId
    have creation := creation_of_leads noId (consistent.tasks number _ found)
    obtain ⟨stored, given, isIts⟩ := creation.of_ok
    have member := (List.mem_filter.mp isIts).1
    obtain ⟨_, _, mayPut⟩ := consistent.puts member
    obtain ⟨time, puts⟩ := List.mem_iff_getElem?.mp member
    exact ⟨time, stored, given, mayPut.address,
      stores_of_puts consistent (bound entity.collection) ⟨entity, _, found, noId⟩ puts⟩
  case failed =>
    intro number entity error found noId
    exact (creation_of_leads noId (consistent.tasks number _ found)).of_error

/-- Two people are created, and the one that was called later reserves its id first. -/
def interleaved : List Move :=
  [.call (.create (.person ⟨"", "Ada", "Lovelace", "ada@example.com"⟩)),
    .call (.create (.person ⟨"", "Alan", "Turing", "alan@example.com"⟩)),
    .send 1, .send 0, .answer, .answer, .send 0, .send 1, .answer, .answer]

theorem createsApart_run_interleaved :
    (∀ collection, generatedIn (run 100 interleaved).history collection < 2 ^ 64) ∧
      (run 100 interleaved).tasks =
        [⟨.create (.person ⟨"", "Ada", "Lovelace", "ada@example.com"⟩), .done (.ok "people-2")⟩,
          ⟨.create (.person ⟨"", "Alan", "Turing", "alan@example.com"⟩),
            .done (.ok "people-1")⟩] ∧
      CreatesApart 100 (run 100 interleaved) := by
  have bound : ∀ collection,
      generatedIn (run 100 interleaved).history collection < 2 ^ 64 :=
    fun _ => Nat.lt_of_le_of_lt List.countP_le_length (by decide)
  exact ⟨bound, rfl, createsApart_run 100 interleaved bound⟩

end Traffic

end ContentApi
