import ContentApi.Proofs.Store.Links
import ContentApi.Proofs.Store.Traffic

/-!
# The parts of a store agree

What is stored stands at its own address, and only stored entities are linked, to parents that
are stored themselves (`Intact`).  No request breaks this as long as entities are put at their
own addresses, as clients do it (`Intact.step`): nothing that was stored is ever missing again,
and a link is only added between entities that are there.  So whatever a store shows can be
read again at the address that it reports, and a listing counts all links but the hidden ones
(`integrity_run`).
-/

namespace ContentApi

theorem Entity.address?_eq_some_iff {entity : Entity} {target : EntityRef} :
    entity.address? = some target ↔
      entity.collection = target.collection ∧ entity.id = some target.id := by
  rcases target with ⟨collection, id⟩
  simp [address?, Option.map_eq_some_iff, and_comm]

namespace Store

variable {store : Store} {maxPageSize : Nat} {history : List AnyRequest}
variable {request : AnyRequest} {key : LinkKey} {target : EntityRef}

/-! ## What is stored remains -/

theorem isStored_step (stored : store.isStored target) (request : AnyRequest) :
    (store.step request).isStored target := by
  by_cases isPut : request.kind = .put
  · rcases request with ⟨ρ, request⟩
    cases request with
    | put address entity =>
        show ((store.entities.set address entity).get? target).isSome
        rw [Table.get?_set]
        split
        · rfl
        · exact stored
    | _ => cases isPut
  · rw [isStored, (store.frame_step request).entities isPut]
    exact stored

/-! ## Intact stores -/

/-- The entities and the links of a store agree. -/
structure Intact (store : Store) : Prop where
  /-- An entity is stored at the address that it reports. -/
  inPlace : ∀ target entity, store.entities.get? target = some entity →
    entity.collection = target.collection ∧ entity.id = some target.id
  parents : ∀ key, store.linked key ≠ [] → store.isStored key.parent
  targets : ∀ key, ∀ target ∈ store.linked key, store.isStored target

theorem intact_initial (maxPageSize : Nat) : Intact (initial maxPageSize) where
  inPlace _ _ found := nomatch found
  parents _ linked := absurd rfl linked
  targets _ _ member := nomatch member

namespace Intact

theorem inPlace_step (intact : Intact store)
    (puts : ∀ target entity, request = ⟨_, .put target entity⟩ → entity.address? = some target)
    {entity : Entity} (found : (store.step request).entities.get? target = some entity) :
    entity.collection = target.collection ∧ entity.id = some target.id := by
  by_cases isPut : request.kind = .put
  · rcases request with ⟨ρ, request⟩
    cases request with
    | put address value =>
        -- Only here it matters that clients put entities at their own addresses.
        have found : (store.entities.set address value).get? target = some entity := found
        rw [Table.get?_set] at found
        by_cases sameAddress : target = address
        · subst sameAddress
          rw [if_pos rfl] at found
          cases found
          exact Entity.address?_eq_some_iff.mp (puts target entity rfl)
        · rw [if_neg sameAddress] at found
          exact intact.inPlace target entity found
    | _ => cases isPut
  · rw [(store.frame_step request).entities isPut] at found
    exact intact.inPlace target entity found

/-- What is linked behind a request was linked before, or is stored like its parent. -/
theorem stored_of_linked (intact : Intact store)
    (member : target ∈ (store.step request).linked key) :
    store.isStored key.parent ∧ store.isStored target := by
  have before : target ∈ store.linked key →
      store.isStored key.parent ∧ store.isStored target := fun linked =>
    ⟨intact.parents key (List.ne_nil_of_mem linked), intact.targets key target linked⟩
  have changed := store.linkStep key request
  generalize (store.step request).linked key = targets at changed member
  cases changed with
  | added _ parentStored targetStored _ =>
      rcases List.mem_append.mp member with member | isAdded
      · exact before member
      · rw [List.mem_singleton.mp isAdded]
        exact ⟨parentStored, targetStored⟩
  | removed => exact before (List.mem_of_mem_filter member)
  | kept => exact before member

theorem step (intact : Intact store)
    (puts : ∀ target entity, request = ⟨_, .put target entity⟩ → entity.address? = some target) :
    Intact (store.step request) where
  inPlace _ _ := intact.inPlace_step puts
  parents := by
    intro key linked
    obtain ⟨target, member⟩ := List.exists_mem_of_ne_nil _ linked
    exact isStored_step (intact.stored_of_linked member).1 request
  targets := by
    intro key target member
    exact isStored_step (intact.stored_of_linked member).2 request

theorem after (maxPageSize : Nat) (inPlace : PutInPlace history) :
    Intact (after maxPageSize history) := by
  induction history using List.reverseRecOn with
  | nil => exact intact_initial maxPageSize
  | append_singleton history request ih =>
      rw [after_concat]
      have earlier : PutInPlace history := fun target entity member =>
        inPlace target entity (List.mem_append_left _ member)
      refine (ih earlier).step ?_
      rintro target entity rfl
      exact inPlace target entity (List.mem_append_right _ (List.mem_singleton_self _))

/-! ## What readers can rely on -/

theorem read_of_shown (intact : Intact store) {answer : Answer} (gives : Gives store answer)
    {entity : Entity} (member : entity ∈ shown answer) :
    ∃ target : EntityRef, entity.collection = target.collection ∧ entity.id = some target.id ∧
      store.handle (.get target) = (.ok entity, store) := by
  obtain ⟨addresses, made⟩ := gives.exists_madeUp
  obtain ⟨target, _, readable⟩ := made.exists_of_shown member
  obtain ⟨sameCollection, sameId⟩ :=
    intact.inPlace target entity (readable?_eq_some_iff.mp readable).1
  exact ⟨target, sameCollection, sameId, by rw [handle, read_of_readable readable]⟩

/-- Where all links are to stored entities, readers miss only the hidden ones. -/
theorem length_readableLinks (intact : Intact store) (key : LinkKey) :
    (store.readableLinks key).length + (store.linked key).countP (· ∈ store.denied) =
      (store.linked key).length := by
  have readable : ∀ target ∈ store.linked key,
      (store.readable? target).isSome = !decide (target ∈ store.denied) := by
    intro target member
    obtain ⟨entity, found⟩ := Option.isSome_iff_exists.mp (intact.targets key target member)
    rw [Bool.eq_iff_iff, Option.isSome_iff_exists]
    simp [readable?_eq_some_iff, found]
  rw [readableLinks, List.filter_congr readable, ← List.countP_eq_length_filter, Nat.add_comm]
  simpa using (List.length_eq_countP_add_countP (l := store.linked key)
    (fun target => decide (target ∈ store.denied))).symm

end Intact

/-- What readers can rely on in a store. -/
structure Integrity (store : Store) : Prop extends Intact store where
  /-- Whatever an answer shows is read again at the address that it reports. -/
  reported : ∀ answer, Gives store answer → ∀ entity ∈ shown answer,
    ∃ target : EntityRef, entity.collection = target.collection ∧ entity.id = some target.id ∧
      store.handle (.get target) = (.ok entity, store)
  /-- A listing counts all links but the hidden ones. -/
  counted : ∀ key window, (store.readable? key.parent).isSome →
    ∃ listing total, store.handle (.list key window) = (.ok listing, store) ∧
      listing.info.total = some total ∧
      total + (store.linked key).countP (· ∈ store.denied) = (store.linked key).length

theorem Intact.integrity (intact : Intact store) : Integrity store where
  toIntact := intact
  reported _ gives _ member := intact.read_of_shown gives member
  counted := by
    intro key window readable
    refine ⟨_, _, handle_list_of_readable window readable, rfl, ?_⟩
    rw [length_visibleLinks]
    exact intact.length_readableLinks key

end Store

namespace Traffic

theorem Consistent.intact {maxPageSize : Nat} {traffic : Traffic}
    (consistent : Consistent maxPageSize traffic) : traffic.store.Intact := by
  rw [consistent.store]
  exact .after maxPageSize consistent.putInPlace

/--
The parts of a store always agree.  Whatever operations clients call and however their
messages interleave, every entity is stored at the address that it reports, and every link is
between stored entities; so what a reading or a listing shows can be read again at its own
address, and a listing under a readable parent counts its links without the hidden ones.
-/
theorem integrity_run (maxPageSize : Nat) (moves : List Move) :
    (run maxPageSize moves).store.Integrity :=
  (consistent_run maxPageSize moves).intact.integrity

end Traffic

end ContentApi
