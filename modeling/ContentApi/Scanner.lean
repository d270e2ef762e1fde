/-!
# Scanning clauses

The clauses of a request are read by scanners.  A scanner takes the characters that are
left and gives either a value with the characters behind it, or the characters in front
of which it had to stop.  `Scanner.compile` applies a scanner to a whole clause, and
`Rejection.before` says where a clause was rejected: by the column, counted in bytes, and by
the text from there on.
-/

namespace ContentApi

/-- Where a clause stopped being acceptable. -/
structure Rejection where
  /-- One more than the number of UTF-8 bytes in front of the rejected character. -/
  column : Nat
  /-- The first few characters from there on. -/
  near : String
deriving DecidableEq, Repr

namespace Rejection

/-- How many characters of the text a rejection shows. -/
def nearLength : Nat := 12

/-- The number of bytes of a text in UTF-8. -/
def byteLength : List Char → Nat
  | [] => 0
  | character :: rest => character.utf8Size + byteLength rest

/-- The rejection of a text in front of a rest of it. -/
def before (text rest : List Char) : Rejection where
  column := byteLength text - byteLength rest + 1
  near := String.ofList (rest.take nearLength)

/-- The wording of a rejection. -/
def message (rejection : Rejection) : String :=
  "no viable alternative at column " ++ toString rejection.column ++ " near '" ++
    rejection.near ++ "'"

end Rejection

/--
A scanner takes the characters that are left, and gives a value with the characters behind
it, or else the characters in front of which it stopped.
-/
abbrev Scanner := StateT (List Char) (Except (List Char))

namespace Scanner

variable {α : Type}

/-- A blank between the parts of a clause: space, tab, carriage return or line feed. -/
def isSpace (character : Char) : Bool :=
  character == ' ' || character == '\t' || character == '\r' || character == '\n'

/-- Passes over any number of blanks. -/
def skipSpaces : Scanner Unit := fun text =>
  .ok ((), text.dropWhile isSpace)

/-- Passes over a character that has to be there. -/
def character (allowed : Char → Bool) : Scanner Unit
  | [] => .error []
  | first :: rest => if allowed first then .ok ((), rest) else .error (first :: rest)

/-- Passes over one given character. -/
def symbol (wanted : Char) : Scanner Unit :=
  character (· == wanted)

/-- Passes over blanks, of which there has to be one. -/
def spaces : Scanner Unit := do
  character isSpace
  skipSpaces

/-- The characters behind a word in lower case, whatever the case of the text. -/
def afterWord? : List Char → List Char → Option (List Char)
  | [], text => some text
  | _ :: _, [] => none
  | letter :: word, first :: text =>
      if first.toLower = letter then afterWord? word text else none

/-- Passes over a keyword, given in lower case. -/
def keyword (word : List Char) : Scanner Unit := fun text =>
  match afterWord? word text with
  | some rest => .ok ((), rest)
  | none => .error text

/-- What the first scanner gives, or if it stops, what the second one gives. -/
def either (first second : Scanner α) : Scanner α := fun text =>
  match first text with
  | .ok success => .ok success
  | .error _ => second text

/-- At most so many successes of a scanner in a row. -/
def repeatedAtMost (step : Scanner α) : Nat → List Char → List α × List Char
  | 0, text => ([], text)
  | bound + 1, text =>
      match step text with
      | .error _ => ([], text)
      | .ok (value, rest) =>
          let (values, rest) := repeatedAtMost step bound rest
          (value :: values, rest)

/--
All successes of a scanner in a row.  The scanner has to use up a character each time, so
the length of the text bounds the repetitions.
-/
def repeated (step : Scanner α) : Scanner (List α) := fun text =>
  .ok (repeatedAtMost step text.length text)

/-- A comma with any blanks around it, and a value behind it. -/
def commaThen (item : Scanner α) : Scanner α := do
  skipSpaces
  symbol ','
  skipSpaces
  item

/-- One or more values with commas and any blanks between them. -/
def commaSeparated (item : Scanner α) : Scanner (List α) := do
  let first ← item
  let others ← repeated (commaThen item)
  return first :: others

/-- A value between parentheses, with any blanks inside them. -/
def parenthesized (inner : Scanner α) : Scanner α := do
  symbol '('
  skipSpaces
  let value ← inner
  skipSpaces
  symbol ')'
  return value

/-- Checks that the clause is used up. -/
def finished : Scanner Unit
  | [] => .ok ((), [])
  | rest => .error rest

/-- What a scanner makes of a whole clause, with the place where it stopped reported. -/
def compile (scanner : Scanner α) (clause : String) : Except Rejection α :=
  match scanner clause.toList with
  | .ok (value, _) => .ok value
  | .error rest => .error (.before clause.toList rest)

end Scanner

end ContentApi
