import ContentApi.Error
import ContentApi.Text.Numeral

/-!
# Windows

A request for a list shows a window of it: `skipCount` items are passed over and at most
`maxItems` are shown.
-/

namespace ContentApi

/-- A window over a list. -/
structure Window where
  /-- How many items are passed over. -/
  skip : Nat := 0
  /-- How many items are shown at most. -/
  limit : Nat := 100
deriving DecidableEq, Inhabited, Repr

namespace Window

/-- The items of a list that a window shows if it is at most `maximum` items long. -/
def cut {α : Type} (window : Window) (maximum : Nat) (items : List α) : List α :=
  (items.drop window.skip).take (min window.limit maximum)

/-- A paging value, or the default for an absent one; nothing if it is no numeral. -/
def bound? (default : Nat) : Option String → Option Int
  | none => some default
  | some text => Text.integer32? text.toList

/-- The window of two paging values. -/
def ofValues (skip limit : Option String) : Except ApiError Window :=
  match bound? 0 skip, bound? 100 limit with
  | some skipped, some limited =>
      if skipped < 0 ∨ limited < 0 then .error (.invalidArgument .negativePaging)
      else .ok ⟨skipped.toNat, limited.toNat⟩
  | _, _ => .error (.invalidArgument (.unreadablePaging skip limit))

end Window

end ContentApi
