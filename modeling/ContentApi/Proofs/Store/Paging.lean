import ContentApi.Proofs.Store.Integrity
import Mathlib.Data.List.Nodup

/-!
# Paging through a list

A reader who asks for the windows of a list one behind the other, each behind the items of the
one before and until no more are announced, gets some `Pages`.  The items of a page and what
is left of the list behind it are what was left in front of it (`items_append_drop`), so the
pages of a reader who starts at the front make up the whole list.  A page that announces more
items shows at least one, so there is an end (`exists_pages`).
-/

namespace ContentApi.Store

variable {store : Store} {key : LinkKey} {skip limit : Nat} {pages : List Listing}

/-! ## One window -/

/-- The entities are what readers get at the addresses, in the same order. -/
def Shows (store : Store) : List EntityRef → List Entity → Prop :=
  List.Forall₂ fun target entity =>
    entity.address? = some target ∧ store.handle (.get target) = (.ok entity, store)

/-- What a reader gets who asks for a window of a list. -/
structure ShowsWindow (store : Store) (key : LinkKey) (window : Window) (listing : Listing) :
    Prop where
  listed : store.handle (.list key window) = (.ok listing, store)
  asked : listing.info.window = window
  items : store.Shows
    ((store.readableLinks key).extract window.skip
      (window.skip + min window.limit store.maxPageSize)) listing.items
  hasMore : listing.info.hasMore = true ↔
    ∃ position target, window.skip + listing.items.length ≤ position ∧
      (store.readableLinks key)[position]? = some target
  total : listing.info.total = some (store.readableLinks key).length
  /-- The end of the items is no greater than the numbers from which it is computed. -/
  ends : window.skip + listing.items.length ≤ max window.skip (store.readableLinks key).length

theorem Intact.shows (intact : Intact store) {targets : List EntityRef} {entities : List Entity}
    (readable : List.Forall₂ (fun target entity => store.readable? target = some entity)
      targets entities) : store.Shows targets entities := by
  refine readable.imp ?_
  intro target entity readable
  constructor
  · exact Entity.address?_eq_some_iff.mpr
      (intact.inPlace target entity (readable?_eq_some_iff.mp readable).1)
  · rw [handle, read_of_readable readable]

theorem Shows.nodup {targets : List EntityRef} {entities : List Entity}
    (shows : store.Shows targets entities) (nodup : targets.Nodup) : entities.Nodup := by
  have addresses : entities.map Entity.address? = targets.map some := by
    induction shows with
    | nil => rfl
    | cons shown _ ih => rw [List.map_cons, List.map_cons, shown.1, ih nodup.of_cons]
  apply List.Nodup.of_map Entity.address?
  rw [addresses]
  exact nodup.map fun _ _ => Option.some.inj

theorem length_items (store : Store) (key : LinkKey) (window : Window) :
    (store.listing key window).items.length =
      min (min window.limit store.maxPageSize)
        ((store.visibleLinks key).length - window.skip) := by
  simp [listing, Window.cut]

theorem hasMore_iff (store : Store) (key : LinkKey) (window : Window) :
    (store.listing key window).info.hasMore = true ↔
      window.skip + (store.listing key window).items.length < (store.visibleLinks key).length :=
  decide_eq_true_iff

theorem Intact.showsWindow (intact : Intact store)
    (readable : (store.readable? key.parent).isSome) (window : Window) :
    store.ShowsWindow key window (store.listing key window) where
  listed := handle_list_of_readable window readable
  asked := rfl
  items := by
    rw [← Window.cut_eq_extract]
    exact intact.shows (store.forall₂_listing_items key window)
  hasMore := by
    rw [hasMore_iff, length_visibleLinks]
    constructor
    · intro less
      exact ⟨_, _, Nat.le_refl _, List.getElem?_eq_getElem less⟩
    · rintro ⟨position, target, behind, found⟩
      exact Nat.lt_of_le_of_lt behind (List.getElem?_eq_some_iff.mp found).1
  total := congrArg some (store.length_visibleLinks key)
  ends := by
    rw [length_items, length_visibleLinks]
    omega

/-! ## All windows -/

/--
The pages of a reader who skips some items of a list first, and then with every page those of
the pages before, until a page announces no more.
-/
inductive Pages (store : Store) (key : LinkKey) (limit : Nat) : Nat → List Listing → Prop where
  | last {skip : Nat} {page : Listing} :
      store.handle (.list key ⟨skip, limit⟩) = (.ok page, store) →
      page.info.hasMore = false → Pages store key limit skip [page]
  | next {skip : Nat} {page : Listing} {later : List Listing} :
      store.handle (.list key ⟨skip, limit⟩) = (.ok page, store) →
      page.info.hasMore = true → Pages store key limit (skip + page.items.length) later →
      Pages store key limit skip (page :: later)

namespace Pages

theorem unique (first : Pages store key limit skip pages) {others : List Listing}
    (second : Pages store key limit skip others) : others = pages := by
  induction first generalizing others with
  | last listed noMore =>
      cases second with
      | last sameListed _ =>
          rw [listed] at sameListed
          cases sameListed
          rfl
      | next sameListed more _ =>
          rw [listed] at sameListed
          cases sameListed
          rw [noMore] at more
          cases more
  | next listed more _ ih =>
      cases second with
      | last sameListed noMore =>
          rw [listed] at sameListed
          cases sameListed
          rw [more] at noMore
          cases noMore
      | next sameListed _ later =>
          rw [listed] at sameListed
          cases sameListed
          rw [ih later]

theorem eq_listing (paged : Pages store key limit skip pages) {page : Listing}
    (member : page ∈ pages) : ∃ skipped, page = store.listing key ⟨skipped, limit⟩ := by
  induction paged with
  | @last skip only listed _ =>
      rw [List.mem_singleton.mp member]
      exact ⟨skip, (readable_of_handle_list _ (congrArg Prod.fst listed)).2⟩
  | @next skip first _ listed _ _ ih =>
      rcases List.mem_cons.mp member with rfl | member
      · exact ⟨skip, (readable_of_handle_list _ (congrArg Prod.fst listed)).2⟩
      · exact ih member

end Pages

/-- Behind the items of a window the list goes on. -/
theorem items_append_drop (store : Store) (key : LinkKey) (window : Window) :
    (store.listing key window).items ++
        (store.visibleLinks key).drop (window.skip + (store.listing key window).items.length) =
      (store.visibleLinks key).drop window.skip := by
  have isPrefix : (store.listing key window).items <+:
      (store.visibleLinks key).drop window.skip := List.take_prefix _ _
  rw [← List.drop_drop]
  exact List.prefix_iff_eq_append.mp isPrefix

/-- The items of all pages are what is left of the list behind those that were skipped. -/
theorem Pages.flatMap_items (paged : Pages store key limit skip pages) :
    pages.flatMap Listing.items = (store.visibleLinks key).drop skip := by
  induction paged with
  | @last skip page listed noMore =>
      obtain ⟨_, rfl⟩ := readable_of_handle_list _ (congrArg Prod.fst listed)
      -- The last page shows all that is left.
      have ended : ¬skip + (store.listing key ⟨skip, limit⟩).items.length <
          (store.visibleLinks key).length := by
        rw [← hasMore_iff store key ⟨skip, limit⟩, noMore]
        exact Bool.false_ne_true
      rw [← items_append_drop store key ⟨skip, limit⟩,
        List.drop_eq_nil_of_le (Nat.le_of_not_lt ended), List.flatMap_singleton, List.append_nil]
  | @next skip page later listed _ _ ih =>
      obtain ⟨_, rfl⟩ := readable_of_handle_list _ (congrArg Prod.fst listed)
      rw [List.flatMap_cons, ih]
      exact items_append_drop store key ⟨skip, limit⟩

/-- From any place on a reader comes to an end. -/
theorem exists_pages (readable : (store.readable? key.parent).isSome)
    (pageSize : 0 < store.maxPageSize) (positive : 0 < limit) (skip : Nat) :
    ∃ pages, Pages store key limit skip pages := by
  have listed := handle_list_of_readable ⟨skip, limit⟩ readable
  cases more : (store.listing key ⟨skip, limit⟩).info.hasMore with
  | false => exact ⟨_, .last listed more⟩
  | true =>
      -- As some items are left and some may be shown, the page is not empty.
      have length := length_items store key ⟨skip, limit⟩
      have less := (hasMore_iff store key ⟨skip, limit⟩).mp more
      dsimp only at length less
      have shorter : (store.visibleLinks key).length -
            (skip + (store.listing key ⟨skip, limit⟩).items.length) <
          (store.visibleLinks key).length - skip := by
        omega
      obtain ⟨later, paged⟩ := exists_pages readable pageSize positive
        (skip + (store.listing key ⟨skip, limit⟩).items.length)
      exact ⟨_, .next listed more paged⟩
termination_by (store.visibleLinks key).length - skip

/-! ## Paging -/

/-- Pages that show a whole list, every item of it once. -/
structure Tiles (store : Store) (key : LinkKey) (limit : Nat) (pages : List Listing) : Prop where
  items : store.Shows (store.readableLinks key) (pages.flatMap Listing.items)
  nodup : (pages.flatMap Listing.items).Nodup
  length_le : ∀ page ∈ pages, page.items.length ≤ min limit store.maxPageSize
  total : ∀ page ∈ pages, page.info.total = some (store.readableLinks key).length

/-- Readers can page through a list. -/
structure Paging (store : Store) (key : LinkKey) : Prop where
  windows : ∀ window, ∃ listing, store.ShowsWindow key window listing
  /-- From the front a reader gets one row of pages, which show the whole list. -/
  pages : 0 < store.maxPageSize → ∀ limit, 0 < limit →
    ∃ pages, Pages store key limit 0 pages ∧
      (∀ others, Pages store key limit 0 others → others = pages) ∧
      store.Tiles key limit pages

theorem Pages.tiles (paged : Pages store key limit 0 pages) (intact : Intact store)
    (nodup : (store.linked key).Nodup) : store.Tiles key limit pages := by
  have all : store.Shows (store.readableLinks key) (pages.flatMap Listing.items) := by
    rw [paged.flatMap_items, List.drop_zero]
    exact intact.shows (store.forall₂_visibleLinks key)
  constructor
  case items => exact all
  case nodup => exact all.nodup (nodup.filter _)
  case length_le =>
    intro page member
    obtain ⟨skipped, rfl⟩ := paged.eq_listing member
    rw [length_items]
    exact Nat.min_le_left _ _
  case total =>
    intro page member
    obtain ⟨skipped, rfl⟩ := paged.eq_listing member
    exact congrArg some (store.length_visibleLinks key)

theorem Intact.paging (intact : Intact store) (nodup : (store.linked key).Nodup)
    (readable : (store.readable? key.parent).isSome) : store.Paging key where
  windows window := ⟨_, intact.showsWindow readable window⟩
  pages := by
    intro pageSize limit positive
    obtain ⟨pages, paged⟩ := exists_pages readable pageSize positive 0
    exact ⟨pages, paged, fun others => paged.unique, paged.tiles intact nodup⟩

end ContentApi.Store

namespace ContentApi.Traffic

open Store

/--
Whatever operations clients have called, readers can page through the links of every parent
that they can read.  A window of any size and at any place shows the readable links there,
tells whether more follow and counts them all.  And with pages of at least one item a reader
who goes on behind each page comes to an end and has then seen every readable link once, in
the order of the links.
-/
theorem paging_run (maxPageSize : Nat) (moves : List Move) {key : LinkKey}
    (readable : ((run maxPageSize moves).store.readable? key.parent).isSome) :
    (run maxPageSize moves).store.Paging key := by
  have consistent := consistent_run maxPageSize moves
  refine consistent.intact.paging ?_ readable
  rw [consistent.store]
  exact nodup_linked_after

/-- Three people become members of a site, and one of them is hidden. -/
def team : List Move :=
  [.call (.put (.site ⟨"team", "Team", .everyone, none⟩)),
    .call (.put (.person ⟨"ada", "Ada", "Lovelace", "ada@example.com"⟩)),
    .call (.put (.person ⟨"bob", "Bob", "Bemer", "bob@example.com"⟩)),
    .call (.put (.person ⟨"eve", "Eve", "Evans", "eve@example.com"⟩)),
    .call (.link ⟨"sites/members", ⟨"sites", "team"⟩⟩ ⟨"people", "ada"⟩),
    .call (.link ⟨"sites/members", ⟨"sites", "team"⟩⟩ ⟨"people", "eve"⟩),
    .call (.link ⟨"sites/members", ⟨"sites", "team"⟩⟩ ⟨"people", "bob"⟩),
    .call (.deny ⟨"people", "eve"⟩)] ++
  (List.range 8).flatMap fun task => [.send task, .answer]

theorem paging_run_team :
    ((run 1 team).store.readable? ⟨"sites", "team"⟩).isSome ∧
      (run 1 team).store.readableLinks ⟨"sites/members", ⟨"sites", "team"⟩⟩ =
        [⟨"people", "ada"⟩, ⟨"people", "bob"⟩] ∧
      (run 1 team).store.Paging ⟨"sites/members", ⟨"sites", "team"⟩⟩ :=
  ⟨rfl, rfl, paging_run 1 team rfl⟩

end ContentApi.Traffic
