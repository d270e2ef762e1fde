import ContentApi.Store.Basic

/-!
# Rows of requests

A store is run by a row of requests, whoever sends them and in whatever order they arrive.
What every request keeps is kept by every row of requests (`run_induction`).
-/

namespace ContentApi.Store

/-- A request with whatever type of reply it has. -/
abbrev AnyRequest := Σ ρ : Type, Request ρ

/-- The store behind one request. -/
def step (store : Store) (request : AnyRequest) : Store :=
  (store.handle request.2).2

/-- The store behind a row of requests. -/
def run (store : Store) (requests : List AnyRequest) : Store :=
  requests.foldl step store

/-- What holds at first and is kept by every request holds behind every row of requests. -/
theorem run_induction {holds : Store → Prop} {store : Store} (start : holds store)
    (kept : ∀ before request, holds before → holds (before.step request))
    (requests : List AnyRequest) : holds (store.run requests) := by
  induction requests generalizing store with
  | nil => exact start
  | cons request rest ih => exact ih (kept store request start)

theorem maxPageSize_addLink (store : Store) (key : LinkKey) (target : EntityRef) :
    (store.addLink key target).maxPageSize = store.maxPageSize := by
  unfold addLink
  split <;> rfl

/-- No request changes how many items a listing shows. -/
theorem maxPageSize_step (store : Store) (request : AnyRequest) :
    (store.step request).maxPageSize = store.maxPageSize := by
  rcases request with ⟨ρ, request⟩
  unfold step
  cases request with
  | nextId collection => rfl
  | put target entity => rfl
  | get target => rfl
  | link key target =>
      simp only [handle]
      split
      · rfl
      · split
        · rfl
        · exact store.maxPageSize_addLink key target
  | unlink key target =>
      simp only [handle]
      split <;> rfl
  | deny target => rfl
  | list key window =>
      simp only [handle]
      split <;> rfl

theorem maxPageSize_run (store : Store) (requests : List AnyRequest) :
    (store.run requests).maxPageSize = store.maxPageSize := by
  apply @run_induction (fun behind => behind.maxPageSize = store.maxPageSize) store rfl
  intro before request same
  rw [maxPageSize_step, same]

end ContentApi.Store
