import ContentApi.Dictionary
import ContentApi.Json.Double

/-!
# JSON values

Numbers are kept apart as they were written: a whole number without fraction and
exponent is an integer, everything else a double.  The fields of an object stand in
a list; an object that this library builds has its names in ascending order, and
`Json.normal` brings any value into that form.
-/

namespace ContentApi

namespace Json

/-- A number as it is distinguished by its written form. -/
inductive Number where
  | integer (value : Int)
  | double (value : Double)
deriving DecidableEq, Repr

end Json

/-- A JSON value. -/
inductive Json where
  | null
  | boolean (value : Bool)
  | number (value : Json.Number)
  | string (value : String)
  | array (items : List Json)
  | object (fields : List (String × Json))
deriving Inhabited, Repr

namespace Json

/-- A whole number. -/
def integer (value : Int) : Json := .number (.integer value)

/-- A natural number. -/
def natural (value : Nat) : Json := .integer value

/-- An optional value, `null` if there is none. -/
def ofOption : Option Json → Json
  | none => .null
  | some value => value

/-- The object with the given entries; of equal names the last one counts. -/
def ofEntries (entries : List (String × Json)) : Json :=
  .object (Fields.insertAll entries [])

/-- The value of a field, if this is an object with a field of that name. -/
def field? (name : String) : Json → Option Json
  | .object fields => Fields.get? name fields
  | _ => none

mutual

/-- Orders the fields of all objects by name; of equal names the last one counts. -/
def normal : Json → Json
  | .array items => .array (normalItems items)
  | .object fields => ofEntries (normalFields fields)
  | other => other

/-- `normal` on every item. -/
def normalItems : List Json → List Json
  | [] => []
  | item :: rest => normal item :: normalItems rest

/-- `normal` on the value of every field. -/
def normalFields : List (String × Json) → List (String × Json)
  | [] => []
  | (name, value) :: rest => (name, normal value) :: normalFields rest

end

end Json

end ContentApi
