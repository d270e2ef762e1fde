import ContentApi.Text.Blank

/-!
# Sort keys

The `orderBy` parameter lists columns, each with an optional direction.  Their order is
their priority.
-/

namespace ContentApi

/-- A column to sort by. -/
structure SortKey where
  column : String
  ascending : Bool
deriving DecidableEq, Repr

namespace SortKey

/-- Whether a word asks for descending order, in any case. -/
def isDescending (word : List Char) : Bool :=
  word.map Char.toUpper == ['D', 'E', 'S', 'C']

/-- One entry: a column and possibly a direction; other entries count for nothing. -/
def ofPiece? (entry : List Char) : Option SortKey :=
  match Text.words entry with
  | [column] => some ⟨String.ofList column, true⟩
  | [column, direction] => some ⟨String.ofList column, !isDescending direction⟩
  | _ => none

/-- The entries of a text, which are separated by commas. -/
def ofText (text : List Char) : List SortKey :=
  (text.splitOn ',').filterMap ofPiece?

/-- The sort keys of an `orderBy` value. -/
def ofOrderBy : Option String → List SortKey
  | none => []
  | some text => ofText text.toList

end SortKey

end ContentApi
