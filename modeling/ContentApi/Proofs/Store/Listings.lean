import ContentApi.Proofs.Store.Readable
import Mathlib.Data.List.Forall2

/-!
# What listings show

A listing under a readable parent shows a window of the readable links in their order, each
as the entity that readers see there, and it counts the readable links and no others.  Under
any other parent there is no listing.
-/

namespace ContentApi

/-- A window shows what stands between its ends. -/
theorem Window.cut_eq_extract {α : Type} (window : Window) (maximum : Nat) (items : List α) :
    window.cut maximum items =
      items.extract window.skip (window.skip + min window.limit maximum) := by
  rw [cut, List.extract_eq_take_drop, Nat.add_sub_cancel_left]

namespace Store

variable (store : Store) (key : LinkKey) (window : Window)

/-- The visible entities of a list are those at its readable links, one for each. -/
theorem forall₂_visibleLinks :
    List.Forall₂ (fun target entity => store.readable? target = some entity)
      (store.readableLinks key) (store.visibleLinks key) := by
  unfold readableLinks visibleLinks
  induction store.linked key with
  | nil => exact .nil
  | cons target rest ih =>
      cases readable : store.readable? target with
      | none =>
          rw [List.filterMap_cons_none readable, List.filter_cons_of_neg (by simp [readable])]
          exact ih
      | some entity =>
          rw [List.filterMap_cons_some readable, List.filter_cons_of_pos (by simp [readable])]
          exact .cons readable ih

theorem length_visibleLinks :
    (store.visibleLinks key).length = (store.readableLinks key).length :=
  (store.forall₂_visibleLinks key).length_eq.symm

/-- The items of a listing are the entities in a window of the readable links. -/
theorem forall₂_listing_items :
    List.Forall₂ (fun target entity => store.readable? target = some entity)
      (window.cut store.maxPageSize (store.readableLinks key)) (store.listing key window).items :=
  List.forall₂_take _ (List.forall₂_drop _ (store.forall₂_visibleLinks key))

variable {store key}

/-- Under a readable parent there is a listing. -/
theorem handle_list_of_readable (readable : (store.readable? key.parent).isSome) :
    store.handle (.list key window) = (.ok (store.listing key window), store) := by
  obtain ⟨parent, found⟩ := Option.isSome_iff_exists.mp readable
  simp only [handle, read_of_readable found]

theorem readable_of_handle_list {listing : Listing}
    (listed : (store.handle (.list key window)).1 = .ok listing) :
    (store.readable? key.parent).isSome ∧ listing = store.listing key window := by
  cases found : store.readable? key.parent with
  | some parent =>
      have readable : (store.readable? key.parent).isSome := by
        rw [found]
        rfl
      rw [handle_list_of_readable window readable] at listed
      exact ⟨rfl, (Except.ok.inj listed).symm⟩
  | none =>
      rcases read_of_unreadable found with refused | refused <;>
        simp [handle, refused] at listed

end Store

end ContentApi
