import ContentApi.Condition.Basic

/-!
# Printing conditions

A condition is printed in the notation in which it is read, without the parentheses
around the whole clause.  All values stand between single quotes.
-/

namespace ContentApi

namespace Condition

/-- One character between single quotes. -/
def escapeCharacter (character : Char) : List Char :=
  if character = '\\' ∨ character = '\x27' then ['\\', character] else [character]

/-- A value between single quotes. -/
def printValue (value : String) : String :=
  String.ofList (['\x27'] ++ value.toList.flatMap escapeCharacter ++ ['\x27'])

/-- Values with commas between them. -/
def printValues (values : List String) : String :=
  ",".intercalate (values.map printValue)

end Condition

open Condition in
/-- A test in the notation of the clause. -/
def PropertyTest.print : PropertyTest → String
  | .compare property comparator value =>
      property ++ comparator.sign ++ printValue value
  | .present property => "EXISTS(" ++ property ++ ")"
  | .between property low high =>
      property ++ " BETWEEN (" ++ printValue low ++ "," ++ printValue high ++ ")"
  | .oneOf property values => property ++ " IN (" ++ printValues values ++ ")"
  | .like property pattern => property ++ " MATCHES (" ++ printValue pattern ++ ")"

namespace Condition

mutual

/-- A condition in the notation of the clause. -/
def print : Condition → String
  | .test leaf => leaf.print
  | .negation inner => "NOT " ++ print inner
  | .all parts => " AND ".intercalate (printParts parts)
  | .any parts => " OR ".intercalate (printParts parts)

/-- The texts of several conditions. -/
def printParts : List Condition → List String
  | [] => []
  | part :: rest => print part :: printParts rest

end

end Condition

end ContentApi
