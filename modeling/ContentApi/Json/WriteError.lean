import ContentApi.Text.Numeral
import ContentApi.Text.Occurrence

/-!
# Errors in writing JSON

What keeps a value from being written as JSON is told by a text.  A text that ends by
naming a place, as in `unexpected tag at line 2 column 7`, is taken apart into the reason
and the place; lines are counted from one, so that a line zero is no place at all.
-/

namespace ContentApi.Json

/-- A place in a text that was read or written before. -/
structure Place where
  line : Nat
  column : Nat
deriving DecidableEq, Repr

/-- Why a value cannot be written as JSON. -/
structure WriteError where
  reason : String
  place : Option Place
deriving DecidableEq, Repr

namespace Place

/-- What introduces the line of a place. -/
def lineMark : String := " at line "

/-- What introduces the column of a place. -/
def columnMark : String := " column "

/-- The end of a message that names a place. -/
def message (place : Place) : String :=
  lineMark ++ toString place.line ++ columnMark ++ toString place.column

/-- The place that the characters behind a line mark name, if they name nothing else. -/
def ofNumerals? (text : List Char) : Option Place := do
  let line ← Text.natural64? (text.takeWhile Char.isDigit)
  let rest ← Text.cutPrefix? columnMark.toList (text.dropWhile Char.isDigit)
  let column ← Text.natural64? rest
  return ⟨line, column⟩

end Place

namespace WriteError

/-- The error that a text tells of. -/
def ofText (text : String) : WriteError :=
  let parts := do
    let (reason, numerals) ← Text.cutLast? Place.lineMark.toList text.toList
    let place ← Place.ofNumerals? numerals
    return (reason, place)
  match parts with
  | none => ⟨text, none⟩
  | some (reason, place) =>
      ⟨String.ofList reason, if place.line = 0 then none else some place⟩

/-- The wording of an error. -/
def message (error : WriteError) : String :=
  match error.place with
  | none => error.reason
  | some place => error.reason ++ place.message

end WriteError

end ContentApi.Json
