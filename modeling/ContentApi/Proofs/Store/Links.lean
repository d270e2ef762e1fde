import ContentApi.Proofs.Store.History
import ContentApi.Proofs.Store.Listings

/-!
# How lists of links follow their history

An entity is linked to a parent by a link that is effective, because both are stored at that
time, and it stays linked until the link is removed.  So a list holds an entity exactly if an
effective link of it is later than every removal (`IsLinked`), and it is in the order of the
times since which its entities are linked (`LinkedSince`); no other request changes it
(`linkStep`).  The main statement tells all replies about a list from the history of its store
(`linksFollow_after`).
-/

namespace ContentApi.Store

variable {store : Store} {maxPageSize : Nat} {history : List AnyRequest}
variable {request : AnyRequest} {key : LinkKey} {target : EntityRef} {time : Nat}

/-! ## Links in a history -/

/-- At a time an entity is linked to a parent, and both were stored before. -/
structure EffectiveLink (history : List AnyRequest) (key : LinkKey) (target : EntityRef)
    (time : Nat) : Prop where
  links : history[time]? = some ⟨_, .link key target⟩
  parentStored : Stored (history.take time) key.parent
  targetStored : Stored (history.take time) target

/-- At a time a link is removed. -/
def UnlinkedAt (history : List AnyRequest) (key : LinkKey) (target : EntityRef)
    (time : Nat) : Prop :=
  history[time]? = some ⟨_, .unlink key target⟩

/-- Of the effective links of an entity and the removals the latest is a link. -/
def IsLinked (history : List AnyRequest) (key : LinkKey) (target : EntityRef) : Prop :=
  ∃ time, EffectiveLink history key target time ∧
    ∀ later, time < later → ¬UnlinkedAt history key target later

/-- The time since which an entity is linked: that of the first effective link behind the
last removal. -/
structure LinkedSince (history : List AnyRequest) (key : LinkKey) (target : EntityRef)
    (time : Nat) : Prop where
  link : EffectiveLink history key target time
  kept : ∀ later, time < later → ¬UnlinkedAt history key target later
  first : ∀ earlier, earlier < time → EffectiveLink history key target earlier →
    ∃ between, earlier < between ∧ between < time ∧ UnlinkedAt history key target between

/-- One entity is linked since an earlier time than another one. -/
def LinkedEarlier (history : List AnyRequest) (key : LinkKey) (first second : EntityRef) :
    Prop :=
  ∃ time later, LinkedSince history key first time ∧
    LinkedSince history key second later ∧ time < later

theorem EffectiveLink.lt_length (link : EffectiveLink history key target time) :
    time < history.length :=
  (List.getElem?_eq_some_iff.mp link.links).1

theorem effectiveLink_concat :
    EffectiveLink (history ++ [request]) key target time ↔
      EffectiveLink history key target time ∨
        time = history.length ∧ request = ⟨_, .link key target⟩ ∧
          Stored history key.parent ∧ Stored history target := by
  constructor
  · rintro ⟨links, parentStored, targetStored⟩
    rcases getElem?_concat_eq_some_iff.mp links with links | ⟨rfl, isLink⟩
    · have within : time ≤ history.length :=
        Nat.le_of_lt (List.getElem?_eq_some_iff.mp links).1
      rw [List.take_append_of_le_length within] at parentStored targetStored
      exact .inl ⟨links, parentStored, targetStored⟩
    · rw [List.take_left] at parentStored targetStored
      exact .inr ⟨rfl, isLink, parentStored, targetStored⟩
  · rintro (link | ⟨rfl, isLink, parentStored, targetStored⟩)
    · have within : time ≤ history.length := Nat.le_of_lt link.lt_length
      have same : (history ++ [request]).take time = history.take time :=
        List.take_append_of_le_length within
      refine ⟨getElem?_concat_eq_some_iff.mpr (.inl link.links), ?_, ?_⟩
      · rw [same]
        exact link.parentStored
      · rw [same]
        exact link.targetStored
    · refine ⟨getElem?_concat_eq_some_iff.mpr (.inr ⟨rfl, isLink⟩), ?_, ?_⟩
      · rw [List.take_left]
        exact parentStored
      · rw [List.take_left]
        exact targetStored

theorem unlinkedAt_concat :
    UnlinkedAt (history ++ [request]) key target time ↔
      UnlinkedAt history key target time ∨
        time = history.length ∧ request = ⟨_, .unlink key target⟩ :=
  getElem?_concat_eq_some_iff

theorem UnlinkedAt.lt_length (unlinked : UnlinkedAt history key target time) :
    time < history.length :=
  (List.getElem?_eq_some_iff.mp unlinked).1

/-- After one more request an entity is linked if that has linked it or has not removed it. -/
theorem isLinked_concat :
    IsLinked (history ++ [request]) key target ↔
      (request = ⟨_, .link key target⟩ ∧ Stored history key.parent ∧ Stored history target) ∨
        IsLinked history key target ∧ request ≠ ⟨_, .unlink key target⟩ := by
  constructor
  · rintro ⟨time, link, kept⟩
    rcases effectiveLink_concat.mp link with link | ⟨rfl, effective⟩
    · refine .inr ⟨⟨time, link, ?_⟩, ?_⟩
      · intro later after unlinked
        exact kept later after (unlinkedAt_concat.mpr (.inl unlinked))
      · intro isUnlink
        exact kept _ link.lt_length (unlinkedAt_concat.mpr (.inr ⟨rfl, isUnlink⟩))
    · exact .inl effective
  · rintro (effective | ⟨⟨time, link, kept⟩, notUnlink⟩)
    · refine ⟨history.length, effectiveLink_concat.mpr (.inr ⟨rfl, effective⟩), ?_⟩
      intro later after unlinked
      have within := unlinked.lt_length
      rw [List.length_append, List.length_singleton] at within
      omega
    · refine ⟨time, effectiveLink_concat.mpr (.inl link), ?_⟩
      intro later after unlinked
      rcases unlinkedAt_concat.mp unlinked with unlinked | ⟨_, isUnlink⟩
      · exact kept later after unlinked
      · exact notUnlink isUnlink

namespace LinkedSince

/-- Nothing is linked since two different times. -/
theorem unique {other : Nat} (since : LinkedSince history key target time)
    (also : LinkedSince history key target other) : time = other := by
  rcases Nat.lt_trichotomy time other with less | same | greater
  · obtain ⟨between, after, _, unlinked⟩ := also.first time less since.link
    exact absurd unlinked (since.kept between after)
  · exact same
  · obtain ⟨between, after, _, unlinked⟩ := since.first other greater also.link
    exact absurd unlinked (also.kept between after)

/-- What is linked since some time is linked since then until it is removed. -/
theorem concat (since : LinkedSince history key target time)
    (notUnlink : request ≠ ⟨_, .unlink key target⟩) :
    LinkedSince (history ++ [request]) key target time where
  link := effectiveLink_concat.mpr (.inl since.link)
  kept := by
    intro later after unlinked
    rcases unlinkedAt_concat.mp unlinked with unlinked | ⟨_, isUnlink⟩
    · exact since.kept later after unlinked
    · exact notUnlink isUnlink
  first := by
    intro earlier before link
    rcases effectiveLink_concat.mp link with link | ⟨rfl, _⟩
    · obtain ⟨between, after, within, unlinked⟩ := since.first earlier before link
      exact ⟨between, after, within, unlinkedAt_concat.mpr (.inl unlinked)⟩
    · exact absurd since.link.lt_length (Nat.not_lt_of_gt before)

/-- What is linked anew is linked since now. -/
theorem now (isNew : ¬IsLinked history key target)
    (isLink : request = ⟨_, .link key target⟩) (parentStored : Stored history key.parent)
    (targetStored : Stored history target) :
    LinkedSince (history ++ [request]) key target history.length where
  link := effectiveLink_concat.mpr (.inr ⟨rfl, isLink, parentStored, targetStored⟩)
  kept := by
    intro later after unlinked
    have within := unlinked.lt_length
    rw [List.length_append, List.length_singleton] at within
    omega
  first := by
    intro earlier before link
    rcases effectiveLink_concat.mp link with link | ⟨rfl, _⟩
    · -- If nothing had removed it behind the earlier link, it would be linked still.
      have removed : ∃ later, earlier < later ∧ UnlinkedAt history key target later := by
        by_contra never
        exact isNew ⟨earlier, link, fun later after unlinked => never ⟨later, after, unlinked⟩⟩
      obtain ⟨between, after, unlinked⟩ := removed
      exact ⟨between, after, unlinked.lt_length, unlinkedAt_concat.mpr (.inl unlinked)⟩
    · exact absurd before (Nat.lt_irrefl _)

end LinkedSince

theorem IsLinked.exists_since (isLinked : IsLinked history key target) :
    ∃ time, LinkedSince history key target time := by
  induction history using List.reverseRecOn with
  | nil =>
      obtain ⟨time, link, _⟩ := isLinked
      cases link.links
  | append_singleton history request ih =>
      by_cases before : IsLinked history key target
      · have notUnlink : request ≠ ⟨_, .unlink key target⟩ := by
          rcases isLinked_concat.mp isLinked with ⟨isLink, _⟩ | ⟨_, notUnlink⟩
          · rw [isLink]
            exact AnyRequest.ne_of_kind nofun
          · exact notUnlink
        obtain ⟨time, since⟩ := ih before
        exact ⟨time, since.concat notUnlink⟩
      · rcases isLinked_concat.mp isLinked with ⟨isLink, parentStored, targetStored⟩ | ⟨again, _⟩
        · exact ⟨history.length, .now before isLink parentStored targetStored⟩
        · exact absurd again before

/-- The order in which entities were linked stays as long as neither is removed. -/
theorem LinkedEarlier.concat {first second : EntityRef}
    (earlier : LinkedEarlier history key first second)
    (firstKept : request ≠ ⟨_, .unlink key first⟩)
    (secondKept : request ≠ ⟨_, .unlink key second⟩) :
    LinkedEarlier (history ++ [request]) key first second := by
  obtain ⟨time, later, since, sinceLater, before⟩ := earlier
  exact ⟨time, later, since.concat firstKept, sinceLater.concat secondKept, before⟩

/-! ## Lists of links -/

/-- What one request does to a list of links. -/
inductive LinkStep (store : Store) (key : LinkKey) (request : AnyRequest) :
    List EntityRef → Prop where
  | added {target : EntityRef} :
      request = ⟨_, .link key target⟩ → store.isStored key.parent → store.isStored target →
      target ∉ store.linked key → LinkStep store key request (store.linked key ++ [target])
  | removed {target : EntityRef} :
      request = ⟨_, .unlink key target⟩ →
      LinkStep store key request ((store.linked key).filter (· ≠ target))
  | kept :
      (∀ target, request = ⟨_, .link key target⟩ → store.isStored key.parent →
        store.isStored target → target ∈ store.linked key) →
      (∀ target, request ≠ ⟨_, .unlink key target⟩) →
      LinkStep store key request (store.linked key)

@[simp]
theorem linked_set (changed : LinkKey) (targets : List EntityRef) :
    ({ store with links := store.links.set changed targets } : Store).linked key =
      if key = changed then targets else store.linked key := by
  rw [linked, Table.get?_set]
  split <;> rfl

theorem linkStep_link (store : Store) (key changed : LinkKey) (target : EntityRef) :
    LinkStep store key ⟨_, .link changed target⟩
      ((store.step ⟨_, .link changed target⟩).linked key) := by
  rw [step_link]
  by_cases isNew : key = changed ∧ store.isStored key.parent ∧ store.isStored target ∧
      target ∉ store.linked key
  · obtain ⟨rfl, parentStored, targetStored, isNew⟩ := isNew
    rw [if_pos ⟨parentStored, targetStored⟩, addLink, if_neg (by simpa using isNew),
      linked_set, if_pos rfl]
    exact .added rfl parentStored targetStored isNew
  · have same :
        (if store.isStored changed.parent ∧ store.isStored target then
          store.addLink changed target else store).linked key = store.linked key := by
      split
      · unfold addLink
        split
        · rfl
        · rw [linked_set]
          split
          · rename_i stored absent sameKey
            subst sameKey
            exact absurd ⟨rfl, stored.1, stored.2, by simpa using absent⟩ isNew
          · rfl
      · rfl
    rw [same]
    refine .kept ?_ (fun _ => AnyRequest.ne_of_kind nofun)
    intro other link parentStored targetStored
    cases link
    by_contra absent
    exact isNew ⟨rfl, parentStored, targetStored, absent⟩

theorem linkStep_unlink (store : Store) (key changed : LinkKey) (target : EntityRef) :
    LinkStep store key ⟨_, .unlink changed target⟩
      ((store.step ⟨_, .unlink changed target⟩).linked key) := by
  rw [step_unlink]
  by_cases sameKey : key = changed
  · subst sameKey
    have same :
        (if target ∈ store.linked key then store.removeLink key target else store).linked key =
          (store.linked key).filter (· ≠ target) := by
      split
      · rw [removeLink, linked_set, if_pos rfl]
      · rename_i absent
        refine (List.filter_eq_self.mpr ?_).symm
        intro other member
        simpa using ne_of_mem_of_not_mem member absent
    rw [same]
    exact .removed rfl
  · have same :
        (if target ∈ store.linked changed then store.removeLink changed target
          else store).linked key = store.linked key := by
      split
      · rw [removeLink, linked_set, if_neg sameKey]
      · rfl
    rw [same]
    refine .kept (fun _ link => absurd link (AnyRequest.ne_of_kind nofun)) ?_
    intro other unlink
    cases unlink
    exact sameKey rfl

theorem linkStep (store : Store) (key : LinkKey) (request : AnyRequest) :
    LinkStep store key request ((store.step request).linked key) := by
  by_cases isLink : request.kind = .link
  · rcases request with ⟨ρ, request⟩
    cases request with
    | link changed target => exact linkStep_link store key changed target
    | _ => cases isLink
  · by_cases isUnlink : request.kind = .unlink
    · rcases request with ⟨ρ, request⟩
      cases request with
      | unlink changed target => exact linkStep_unlink store key changed target
      | _ => cases isUnlink
    · rw [linked, (store.frame_step request).links isLink isUnlink]
      exact .kept (fun _ link => absurd link (AnyRequest.ne_of_kind isLink))
        (fun _ => AnyRequest.ne_of_kind isUnlink)

theorem mem_linked_after :
    target ∈ (after maxPageSize history).linked key ↔ IsLinked history key target := by
  induction history using List.reverseRecOn with
  | nil =>
      constructor
      · intro member
        cases member
      · rintro ⟨time, link, _⟩
        cases link.links
  | append_singleton history request ih =>
      rw [after_concat, isLinked_concat, ← ih]
      have changed := (after maxPageSize history).linkStep key request
      generalize ((after maxPageSize history).step request).linked key = targets at changed ⊢
      cases changed with
      | @added added isLink parentStored targetStored isNew =>
          subst isLink
          rw [isStored_after] at parentStored targetStored
          have notUnlink : (⟨_, .link key added⟩ : AnyRequest) ≠ ⟨_, .unlink key target⟩ :=
            AnyRequest.ne_of_kind nofun
          rw [List.mem_append, List.mem_singleton]
          constructor
          · rintro (member | rfl)
            · exact .inr ⟨member, notUnlink⟩
            · exact .inl ⟨rfl, parentStored, targetStored⟩
          · rintro (⟨sameLink, _⟩ | ⟨member, _⟩)
            · cases sameLink
              exact .inr rfl
            · exact .inl member
      | @removed removed isUnlink =>
          subst isUnlink
          have notLink : (⟨_, .unlink key removed⟩ : AnyRequest) ≠ ⟨_, .link key target⟩ :=
            AnyRequest.ne_of_kind nofun
          have sameUnlink : (⟨_, .unlink key removed⟩ : AnyRequest) = ⟨_, .unlink key target⟩ ↔
              target = removed := by
            constructor
            · rintro ⟨⟩
              rfl
            · rintro rfl
              rfl
          simp only [List.mem_filter, ne_eq, decide_not, Bool.not_eq_true', decide_eq_false_iff_not,
            notLink, sameUnlink, false_and, false_or]
      | kept already notUnlink =>
          constructor
          · intro member
            exact .inr ⟨member, notUnlink target⟩
          · rintro (⟨isLink, parentStored, targetStored⟩ | ⟨member, _⟩)
            · exact already target isLink (isStored_after.mpr parentStored)
                (isStored_after.mpr targetStored)
            · exact member

theorem pairwise_linked_after :
    ((after maxPageSize history).linked key).Pairwise (LinkedEarlier history key) := by
  induction history using List.reverseRecOn with
  | nil => exact .nil
  | append_singleton history request ih =>
      rw [after_concat]
      have changed := (after maxPageSize history).linkStep key request
      generalize ((after maxPageSize history).step request).linked key = targets at changed ⊢
      cases changed with
      | @added added isLink parentStored targetStored isNew =>
          rw [isStored_after] at parentStored targetStored
          have notUnlink : ∀ other, request ≠ ⟨_, .unlink key other⟩ := by
            rw [isLink]
            exact fun _ => AnyRequest.ne_of_kind nofun
          rw [List.pairwise_append]
          refine ⟨?_, List.pairwise_singleton _ _, ?_⟩
          · exact ih.imp fun earlier => earlier.concat (notUnlink _) (notUnlink _)
          · -- What was in the list is linked since an earlier time, the new entity since now.
            intro first member second isAdded
            obtain ⟨time, since⟩ := (mem_linked_after.mp member).exists_since
            rw [List.mem_singleton.mp isAdded]
            rw [mem_linked_after] at isNew
            exact ⟨time, history.length, since.concat (notUnlink _),
              .now isNew isLink parentStored targetStored, since.link.lt_length⟩
      | @removed removed isUnlink =>
          refine (ih.filter _).imp_of_mem ?_
          intro first second firstMember secondMember earlier
          have kept : ∀ other,
              other ∈ ((after maxPageSize history).linked key).filter (· ≠ removed) →
                request ≠ ⟨_, .unlink key other⟩ := by
            intro other member same
            rw [isUnlink] at same
            cases same
            simp at member
          exact earlier.concat (kept first firstMember) (kept second secondMember)
      | kept already notUnlink =>
          exact ih.imp fun earlier => earlier.concat (notUnlink _) (notUnlink _)

theorem nodup_linked_after : ((after maxPageSize history).linked key).Nodup := by
  refine pairwise_linked_after.imp ?_
  rintro first second ⟨time, later, since, sinceLater, before⟩ rfl
  exact absurd (since.unique sinceLater) (Nat.ne_of_lt before)

/-- A link to which an entity or the parent is missing is refused, and nothing changes. -/
theorem handle_link (store : Store) (key : LinkKey) (target : EntityRef) :
    (¬store.isStored key.parent →
        store.handle (.link key target) = (.error (.notFound key.parent.path), store)) ∧
      (store.isStored key.parent → ¬store.isStored target →
        store.handle (.link key target) = (.error (.notFound target.path), store)) ∧
      (store.isStored key.parent → store.isStored target →
        (store.handle (.link key target)).1 = .ok ()) := by
  refine ⟨?_, ?_, ?_⟩
  · intro parentMissing
    simp [handle, parentMissing]
  · intro parentStored targetMissing
    simp [handle, parentStored, targetMissing]
  · intro parentStored targetStored
    simp [handle, parentStored, targetStored]

theorem reply_unlink (store : Store) (key : LinkKey) (target : EntityRef) :
    (store.handle (.unlink key target)).1 = .ok (decide (target ∈ store.linked key)) := by
  by_cases isLinked : target ∈ store.linked key
  · simp [handle, isLinked]
  · simp [handle, isLinked]

theorem mem_readableLinks_after :
    target ∈ (after maxPageSize history).readableLinks key ↔
      target ∈ (after maxPageSize history).linked key ∧ Stored history target ∧
        ¬Denied history target := by
  rw [readableLinks, List.mem_filter, Option.isSome_iff_exists, ← exists_latestPut_iff]
  simp only [readable?_after, exists_and_right]

/-- A list of links, and the replies about it, as the history of the store has it. -/
structure LinksFollow (store : Store) (history : List AnyRequest) (key : LinkKey) : Prop where
  /-- Exactly those are in the list of whom an effective link is later than every removal. -/
  mem : ∀ target, target ∈ store.linked key ↔ IsLinked history key target
  nodup : (store.linked key).Nodup
  ordered : (store.linked key).Pairwise (LinkedEarlier history key)
  /-- Removing a link tells whether there was one. -/
  removed : ∀ target,
    (store.handle (.unlink key target)).1 = .ok (decide (target ∈ store.linked key))
  /-- An effective link succeeds. -/
  linked : ∀ target, Stored history key.parent → Stored history target →
    (store.handle (.link key target)).1 = .ok ()
  /-- A link is refused for a missing parent first, and then nothing changes. -/
  parentMissing : ∀ target, ¬Stored history key.parent →
    store.handle (.link key target) =
      (.error (.notFound (key.parent.collection ++ "/" ++ key.parent.id)), store)
  targetMissing : ∀ target, Stored history key.parent → ¬Stored history target →
    store.handle (.link key target) =
      (.error (.notFound (target.collection ++ "/" ++ target.id)), store)
  /-- No request changes the list but one that links to it or removes from it. -/
  untouched : ∀ request : AnyRequest, (∀ target, request ≠ ⟨_, .link key target⟩) →
    (∀ target, request ≠ ⟨_, .unlink key target⟩) →
    (store.step request).linked key = store.linked key
  /-- Readers see the list without the entities that are missing or hidden. -/
  visible : (store.readableLinks key).Sublist (store.linked key) ∧
    ∀ target, target ∈ store.readableLinks key ↔
      target ∈ store.linked key ∧ Stored history target ∧ ¬Denied history target
  /-- Under a readable parent a window shows the visible list, as it was put last. -/
  listed : ∀ window, Stored history key.parent → ¬Denied history key.parent →
    ∃ listing, store.handle (.list key window) = (.ok listing, store) ∧
      listing.info.window = window ∧
      listing.info.total = some (store.readableLinks key).length ∧
      List.Forall₂ (LatestPut history)
        ((store.readableLinks key).extract window.skip
          (window.skip + min window.limit store.maxPageSize)) listing.items

/--
Lists of links follow their history.  Whatever requests a store has answered, each of its
lists holds exactly the entities of which an effective link is later than every removal, each
once, in the order of the first effective links behind the last removals; the replies to
requests that link, remove and list are those that the history demands; and nothing else
changes the list.
-/
theorem linksFollow_after (maxPageSize : Nat) (history : List AnyRequest) (key : LinkKey) :
    LinksFollow (after maxPageSize history) history key where
  mem _ := mem_linked_after
  nodup := nodup_linked_after
  ordered := pairwise_linked_after
  removed := reply_unlink _ key
  linked := by
    intro target parentStored targetStored
    exact (handle_link _ key target).2.2 (isStored_after.mpr parentStored)
      (isStored_after.mpr targetStored)
  parentMissing := by
    intro target missing
    exact (handle_link _ key target).1 (mt isStored_after.mp missing)
  targetMissing := by
    intro target parentStored missing
    exact (handle_link _ key target).2.1 (isStored_after.mpr parentStored)
      (mt isStored_after.mp missing)
  untouched := by
    intro request notLink notUnlink
    have changed := (after maxPageSize history).linkStep key request
    generalize ((after maxPageSize history).step request).linked key = targets at changed ⊢
    cases changed with
    | added isLink => exact absurd isLink (notLink _)
    | removed isUnlink => exact absurd isUnlink (notUnlink _)
    | kept => rfl
  visible := ⟨List.filter_sublist, fun _ => mem_readableLinks_after⟩
  listed := by
    intro window stored notDenied
    obtain ⟨parent, isLatest⟩ := exists_latestPut_iff.mpr stored
    have readable : ((after maxPageSize history).readable? key.parent).isSome := by
      rw [readable?_after.mpr ⟨isLatest, notDenied⟩]
      rfl
    refine ⟨_, handle_list_of_readable window readable, rfl, ?_, ?_⟩
    · exact congrArg some (length_visibleLinks _ key)
    · rw [← Window.cut_eq_extract]
      refine (forall₂_listing_items _ key window).imp ?_
      intro target entity shown
      exact (readable?_after.mp shown).1

end ContentApi.Store
