import ContentApi.Condition.Basic
import ContentApi.Path

/-!
# Reading conditions

The notation of a `where` clause is

```text
where      := "(" predicate ")"
predicate  := simple (AND simple)* | simple (OR simple)*
simple     := [NOT] test
test       := EXISTS "(" path ")" | path BETWEEN "(" value "," value ")"
            | path IN "(" value ("," value)* ")" | path MATCHES "(" value ")"
            | path ("=" | "<" | ">" | "<=" | ">=") value
```

with keywords in any case.  `AND` and `OR` cannot be mixed.  The alternatives of a test
are tried in this order, and a clause that is rejected is reported where the last
alternative stopped.
-/

namespace ContentApi.Condition

open Scanner

/-- A character of a value without quotes. -/
def isBareCharacter (character : Char) : Bool :=
  Path.isNameCharacter character || character == '/' || character == '+' ||
    character == '@'

/-- A character that may follow a backslash between quotes. -/
def isEscapable (character : Char) : Bool :=
  character == '\\' || character == '\x27' || character == '\x22'

/-- The text up to a closing quote, and what follows it. -/
def scanQuoted (quote : Char) : List Char → Option (List Char × List Char)
  | [] => none
  | character :: rest =>
      if character = quote then some ([], rest)
      else if character = '\\' then
        match rest with
        | [] => none
        | escaped :: rest =>
            if isEscapable escaped then
              (scanQuoted quote rest).map fun (text, rest) => (escaped :: text, rest)
            else none
      else (scanQuoted quote rest).map fun (text, rest) => (character :: text, rest)

/-- A run of bare characters. -/
def scanBare : Scanner String := fun text =>
  if text.head?.any isBareCharacter then
    .ok (String.ofList (text.takeWhile isBareCharacter), text.dropWhile isBareCharacter)
  else .error text

/-- A value: a text between quotes of either kind, or a run of bare characters. -/
def scanValue : Scanner String
  | [] => .error []
  | first :: rest =>
      if first = '\x27' ∨ first = '\x22' then
        match scanQuoted first rest with
        | some (value, rest) => .ok (String.ofList value, rest)
        | none => .error (first :: rest)
      else scanBare (first :: rest)

/-- The sign of a comparison. -/
def scanComparator : Scanner Comparator
  | '<' :: '=' :: rest => .ok (.lessOrEqual, rest)
  | '>' :: '=' :: rest => .ok (.greaterOrEqual, rest)
  | '=' :: rest => .ok (.equal, rest)
  | '<' :: rest => .ok (.less, rest)
  | '>' :: rest => .ok (.greater, rest)
  | text => .error text

/-- A path, and behind it a keyword between blanks, of which those in front are due. -/
def scanOperator (word : List Char) : Scanner String := do
  let property ← Path.scan
  spaces
  keyword word
  skipSpaces
  return property

/-- `EXISTS (path)`. -/
def scanPresent : Scanner PropertyTest := do
  keyword ['e', 'x', 'i', 's', 't', 's']
  skipSpaces
  let property ← parenthesized Path.scan
  return .present property

/-- Two values with a comma between them. -/
def scanRange : Scanner (String × String) := do
  let low ← scanValue
  let high ← commaThen scanValue
  return (low, high)

/-- `path BETWEEN (value, value)`. -/
def scanBetween : Scanner PropertyTest := do
  let property ← scanOperator ['b', 'e', 't', 'w', 'e', 'e', 'n']
  let (low, high) ← parenthesized scanRange
  return .between property low high

/-- `path IN (value, ..., value)`. -/
def scanOneOf : Scanner PropertyTest := do
  let property ← scanOperator ['i', 'n']
  let values ← parenthesized (commaSeparated scanValue)
  return .oneOf property values

/-- `path MATCHES (value)`. -/
def scanLike : Scanner PropertyTest := do
  let property ← scanOperator ['m', 'a', 't', 'c', 'h', 'e', 's']
  let pattern ← parenthesized scanValue
  return .like property pattern

/-- `path = value`, or with another sign. -/
def scanComparison : Scanner PropertyTest := do
  let property ← Path.scan
  skipSpaces
  let comparator ← scanComparator
  skipSpaces
  let value ← scanValue
  return .compare property comparator value

/-- A test of one property. -/
def scanTest : Scanner PropertyTest :=
  either scanPresent <| either scanBetween <| either scanOneOf <|
    either scanLike scanComparison

/-- `NOT test`. -/
def scanNegation : Scanner Condition := do
  keyword ['n', 'o', 't']
  spaces
  let inner ← scanTest
  return .negation (.test inner)

/-- A test or a negated test. -/
def scanSimple : Scanner Condition :=
  either scanNegation (.test <$> scanTest)

/-- A connective with blanks on both sides, and what it connects to. -/
def connected (word : List Char) : Scanner Condition := do
  spaces
  keyword word
  spaces
  scanSimple

/-- Simple conditions with one kind of connective between them. -/
def scanPredicate : Scanner Condition := do
  let first ← scanSimple
  match ← repeated (connected ['a', 'n', 'd']) with
  | [] =>
      match ← repeated (connected ['o', 'r']) with
      | [] => return first
      | others => return .any (first :: others)
  | others => return .all (first :: others)

/-- A whole `where` clause. -/
def scanClause : Scanner Condition := do
  skipSpaces
  symbol '('
  skipSpaces
  let condition ← scanPredicate
  skipSpaces
  symbol ')'
  skipSpaces
  finished
  return condition

/-- The condition of a `where` clause. -/
def compile (clause : String) : Except Rejection Condition :=
  scanClause.compile clause

end ContentApi.Condition
