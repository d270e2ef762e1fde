import ContentApi.Content.Entity
import ContentApi.Request.Window

/-!
# Answers

Executing a resource gives an answer: an entity, a page of a list of answers, a plain
sequence of answers, or a single value.
-/

namespace ContentApi

/-- What is known about a page beside its items. -/
structure PageInfo where
  /-- The window that was asked for. -/
  window : Window
  /-- Whether the list goes on behind the page. -/
  hasMore : Bool
  /-- The length of the whole list, if known. -/
  total : Option Nat
  /-- The entity that the list hangs off, if known. -/
  source : Option Entity

/-- The raw result of executing a resource. -/
inductive Answer where
  | scalar (value : Json)
  | sequence (items : List Answer)
  | page (info : PageInfo) (items : List Answer)
  | entity (value : Entity)

instance : Inhabited Answer := ⟨.scalar .null⟩

end ContentApi
