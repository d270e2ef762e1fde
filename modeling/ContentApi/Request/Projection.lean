import ContentApi.Json.Basic
import ContentApi.Path
import ContentApi.Text.Blank
import ContentApi.Text.Parenthesized

/-!
# Projections

A projection says which properties of an entity are shown.  The `fields` parameter gives
one for the addressed entities, and the `relations` parameter one for each relation that
is to be followed.
-/

namespace ContentApi

/-- Which properties of an entity are shown. -/
inductive Projection where
  | everything
  | only (names : NameSet)
deriving DecidableEq, Inhabited

namespace Projection

/-- Whether a property is shown. -/
def allows (projection : Projection) (property : String) : Bool :=
  match projection with
  | .everything => true
  | .only names => names.contains property

/-- Drops the fields of an object that are not shown; other values are kept. -/
def apply (projection : Projection) : Json → Json
  | .object fields => .object (fields.filter fun field => projection.allows field.1)
  | other => other

/-- The trimmed names between the commas of a text, without empty ones. -/
def listedNames (text : List Char) : NameSet :=
  .ofList ((Text.tokens text).map String.ofList)

/--
The projection of a `fields` value.  Without a name it shows everything; else it shows the
names and, of every selected path, the first name.
-/
def ofFields (fields : Option String) (selected : List String) : Projection :=
  match fields with
  | none => .everything
  | some text =>
      let names := listedNames text.toList
      if names.isEmpty then .everything
      else
        let top := (selected.map Path.topName).filter (!·.isEmpty)
        .only (top.foldl NameSet.add names)

/-- One entry of a `relations` value: a name, or a name with properties in parentheses. -/
def ofRelation? (entry : List Char) : Option (String × Projection) :=
  let entry := Text.trim entry
  if entry.isEmpty then none
  else if entry.contains '(' then
    let inner := (entry.dropWhile (· != '(')).tail
    let inner := if inner.getLast? = some ')' then inner.dropLast else inner
    some (String.ofList (Text.trim (entry.takeWhile (· != '('))), .only (listedNames inner))
  else some (String.ofList entry, .everything)

/-- The projections of a `relations` value by relation; of equal names the last counts. -/
def ofRelations : Option String → Dictionary Projection
  | none => .empty
  | some text =>
      .ofList ((Text.splitOutsideParentheses text.toList).filterMap ofRelation?)

end Projection

end ContentApi
