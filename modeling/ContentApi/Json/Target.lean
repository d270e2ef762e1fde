import ContentApi.Json.Literal

/-!
# Typed contents of a text

A `Target` says how a value of a Lean type is taken from what was written.  It does so in
two ways: directly, which meets the faults in the order of the text, and from a complete
value that was taken before.  The targets of records take a record also from an array of
its fields, skip fields that they do not know, and refuse a field that is given twice.
-/

namespace ContentApi.Json

/-- How many arrays and objects may stand inside one another. -/
def nestingLimit : Nat := 127

/-- The fault by which a list of entries ends, if it does not end well. -/
def Ending.check : Ending → Except Fault Unit
  | .closed => .ok ()
  | .inside => .error .malformed
  | .stopped _ fault => .error fault

/-- The fault of a list from which no more entries are wanted. -/
def Ending.checkExhausted : Ending → Except Fault Unit
  | .stopped true _ => .error .malformed
  | ending => ending.check

namespace Written

/-- The fault of a value that is not of the wanted form. -/
def misfit : Written → Fault
  | .broken fault => fault
  | .number numeral =>
      match numeral.number with
      | .ok _ => .mismatch
      | .error fault => fault
  | .string literal =>
      match literal.text with
      | .ok _ => .mismatch
      | .error fault => fault
  | _ => .mismatch

mutual

/--
The complete value, with the fields of objects as they are written.  The first argument
says how many arrays and objects may still be entered.
-/
def contents : Nat → Written → Except Fault Json
  | _, .null => .ok .null
  | _, .boolean value => .ok (.boolean value)
  | _, .number numeral => numeral.number.map .number
  | _, .string literal => literal.text.map .string
  | 0, .array _ _ => .error .malformed
  | depth + 1, .array items ending => do
      let items ← itemContents depth items
      ending.check
      return .array items
  | 0, .object _ _ => .error .malformed
  | depth + 1, .object fields ending => do
      let fields ← fieldContents depth fields
      ending.check
      return .object fields
  | _, .broken fault => .error fault

/-- The complete values of the items of an array. -/
def itemContents : Nat → List Written → Except Fault (List Json)
  | _, [] => .ok []
  | depth, item :: rest => do
      let item ← contents depth item
      let rest ← itemContents depth rest
      return item :: rest

/-- The names and the complete values of the fields of an object. -/
def fieldContents :
    Nat → List (Literal × Written) → Except Fault (List (String × Json))
  | _, [] => .ok []
  | depth, (name, value) :: rest => do
      let name ← name.text
      let value ← contents depth value
      let rest ← fieldContents depth rest
      return (name, value) :: rest

end

/-- The fault of a literal that is skipped: its code units and bytes do not matter. -/
def skipLiteral (literal : Literal) : Except Fault Unit :=
  match literal.stop with
  | none => .ok ()
  | some fault => .error fault

/-- The fault of a numeral that is skipped: a missing digit breaks the notation. -/
def skipNumeral (numeral : Numeral) : Except Fault Unit :=
  match numeral.stop with
  | none => .ok ()
  | some .truncated => .error .malformed
  | some fault => .error fault

mutual

/-- Checks a value that nobody wants, by the notation alone. -/
def skip : Written → Except Fault Unit
  | .number numeral => skipNumeral numeral
  | .string literal => skipLiteral literal
  | .array items ending => do
      skipItems items
      ending.check
  | .object fields ending => do
      skipFields fields
      ending.check
  | .broken fault => .error fault
  | _ => .ok ()

/-- Checks the items of an array that nobody wants. -/
def skipItems : List Written → Except Fault Unit
  | [] => .ok ()
  | item :: rest => do
      skip item
      skipItems rest

/-- Checks the fields of an object that nobody wants. -/
def skipFields : List (Literal × Written) → Except Fault Unit
  | [] => .ok ()
  | (name, value) :: rest => do
      skipLiteral name
      skip value
      skipFields rest

end

end Written

/-- Two ways to take a value of a type from what was written. -/
structure Target (α : Type) where
  /-- From what was written, given how many arrays and objects may still be entered. -/
  direct : Nat → Written → Except Fault α
  /-- From a complete value with the fields of objects as they were written. -/
  buffered : Json → Option α

namespace Target

variable {α β : Type}

/-- Any value, with the fields of all objects in order. -/
def json : Target Json where
  direct depth written := (written.contents depth).map Json.normal
  buffered value := some value.normal

/-- A truth value. -/
def boolean : Target Bool where
  direct
    | _, .boolean value => .ok value
    | _, other => .error other.misfit
  buffered
    | .boolean value => some value
    | _ => none

/-- A text. -/
def text : Target String where
  direct
    | _, .string literal => literal.text
    | _, other => .error other.misfit
  buffered
    | .string value => some value
    | _ => none

/-- An integer that passes a test. -/
def integerWhere (allowed : Int → Bool) : Target Int where
  direct
    | _, .number numeral => do
        match ← numeral.number with
        | .integer value => if allowed value then .ok value else .error .mismatch
        | .double _ => .error .mismatch
    | _, other => .error other.misfit
  buffered
    | .number (.integer value) => if allowed value then some value else none
    | _ => none

/-- An integer of 64 bits with a sign. -/
def integer64 : Target Int :=
  integerWhere fun value => -0x8000000000000000 ≤ value && value < 0x8000000000000000

/-- An integer of eight bits without a sign. -/
def octet : Target Int :=
  integerWhere fun value => 0 ≤ value && value < 0x100

/-- The same target seen through a function. -/
def map (f : α → β) (target : Target α) : Target β where
  direct depth written := (target.direct depth written).map f
  buffered value := (target.buffered value).map f

/-- A natural number below 2^64. -/
def natural : Target Nat :=
  (integerWhere fun value => 0 ≤ value && value < 0x10000000000000000).map Int.toNat

/-- A value, or nothing for `null`. -/
def optional (target : Target α) : Target (Option α) where
  direct
    | _, .null => .ok none
    | depth, other => (target.direct depth other).map some
  buffered
    | .null => some none
    | other => (target.buffered other).map some

/-- The values of all items of an array. -/
def list (target : Target α) : Target (List α) where
  direct
    | 0, .array _ _ => .error .malformed
    | depth + 1, .array items ending => do
        let values ← items.mapM (target.direct depth)
        ending.check
        return values
    | _, other => .error other.misfit
  buffered
    | .array items => items.mapM target.buffered
    | _ => none

/-- Takes a named value from a field. -/
def fieldDirect (target : Target α) (depth : Nat) (field : Literal × Written) :
    Except Fault (String × α) := do
  let name ← field.1.text
  let value ← target.direct depth field.2
  return (name, value)

/-- Takes a named value from a complete field. -/
def fieldBuffered (target : Target α) (field : String × Json) : Option (String × α) :=
  (target.buffered field.2).map (field.1, ·)

/-- The values of all fields of an object by name; of equal names the last one counts. -/
def dictionary (target : Target α) : Target (Dictionary α) where
  direct
    | 0, .object _ _ => .error .malformed
    | depth + 1, .object fields ending => do
        let entries ← fields.mapM (target.fieldDirect depth)
        ending.check
        return .ofList entries
    | _, other => .error other.misfit
  buffered
    | .object fields =>
        (fields.mapM target.fieldBuffered).map Dictionary.ofList
    | _ => none

/-- The value of a name in a list of named values. -/
def slot (name : String) (filled : List (String × α)) : Option α :=
  Fields.get? name filled

/-- Fills the named slots of a record from the fields of an object. -/
def fillDirect (target : Target α) (names : List String) (depth : Nat) :
    List (String × α) → List (Literal × Written) → Except Fault (List (String × α))
  | filled, [] => .ok filled
  | filled, (literal, written) :: rest => do
      let name ← literal.text
      if names.contains name then
        if (slot name filled).isSome then .error .mismatch
        else
          let value ← target.direct depth written
          fillDirect target names depth ((name, value) :: filled) rest
      else
        written.skip
        fillDirect target names depth filled rest

/-- Fills the named slots of a record from the fields of a complete object. -/
def fillBuffered (target : Target α) (names : List String) :
    List (String × α) → List (String × Json) → Option (List (String × α))
  | filled, [] => some filled
  | filled, (name, value) :: rest =>
      if names.contains name then
        if (slot name filled).isSome then none
        else do
          let value ← target.buffered value
          fillBuffered target names ((name, value) :: filled) rest
      else fillBuffered target names filled rest

/--
A record whose fields are all of one form.  It is built from the values that were found
for the names, and building fails if one is missing that has no default.
-/
def record (names : List String) (field : Target α)
    (build : (String → Option α) → Option β) : Target β where
  direct
    | 0, .array _ _ => .error .malformed
    | 0, .object _ _ => .error .malformed
    | depth + 1, .array items ending => do
        let values ← (items.take names.length).mapM (field.direct depth)
        if values.length < names.length then ending.check
        match build fun name => slot name (names.zip values) with
        | none => .error .mismatch
        | some result =>
            if names.length < items.length then .error .malformed
            else
              ending.checkExhausted
              return result
    | depth + 1, .object fields ending => do
        let filled ← fillDirect field names depth [] fields
        ending.check
        match build fun name => slot name filled with
        | none => .error .mismatch
        | some result => .ok result
    | _, other => .error other.misfit
  buffered
    | .array items => do
        let values ← (items.take names.length).mapM field.buffered
        let result ← build fun name => slot name (names.zip values)
        if names.length < items.length then none else return result
    | .object fields => do
        let filled ← fillBuffered field names [] fields
        build fun name => slot name filled
    | _ => none

/-- The items of an array, or a single value in place of an array with one item. -/
def oneOrMany (target : Target α) (value : Json) : Option (List α) :=
  (target.list.buffered value).orElse fun _ => (target.buffered value).map ([·])

/-- The value of a text that holds one value and nothing else. -/
def read (target : Target α) (source : Source) : Except Fault α := do
  let (written, rest) := source.written
  let value ← target.direct nestingLimit written
  match source.endFault? rest with
  | some fault => .error fault
  | none => return value

/-- The values of a text that holds an array of them, or a single one. -/
def readList (target : Target α) (source : Source) : Except Fault (List α) := do
  let (written, rest) := source.written
  let value ← written.contents nestingLimit
  match target.oneOrMany value with
  | none => .error .mismatch
  | some values =>
      match source.endFault? rest with
      | some fault => .error fault
      | none => return values

end Target

/-- A text whose bytes are all there. -/
def Source.ofString (text : String) : Source :=
  ⟨text.toUTF8.toList, false⟩

end ContentApi.Json
