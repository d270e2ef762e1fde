import ContentApi.Json.Basic

/-!
# Printing JSON

Two layouts of one text: `compact` without blanks, and `pretty` with every item and
field on a line of its own, two spaces deeper than its container.  Only the quote, the
backslash and the control characters are escaped.  A double always shows a fraction or
an exponent, so that it is read back as a double.
-/

namespace ContentApi.Json

/-- One character inside a string literal. -/
def escapeCharacter (character : Char) : List Char :=
  match character with
  | '\x22' => ['\\', '\x22']
  | '\\' => ['\\', '\\']
  | '\x08' => ['\\', 'b']
  | '\x0c' => ['\\', 'f']
  | '\n' => ['\\', 'n']
  | '\r' => ['\\', 'r']
  | '\t' => ['\\', 't']
  | other =>
      if other.toNat < 0x20 then
        ['\\', 'u', '0', '0'] ++
          [Nat.digitChar (other.toNat / 16), Nat.digitChar (other.toNat % 16)]
      else [other]

/-- A string literal. -/
def printString (text : String) : String :=
  String.ofList (['\x22'] ++ text.toList.flatMap escapeCharacter ++ ['\x22'])

/--
The digits of a positive decimal.  The point is written positionally if it falls
within sixteen digits after the first one or at most four zeros before it; else the
first digit is followed by the fraction and an exponent.
-/
def printDecimal (decimal : Double.Decimal) : String :=
  let digits := Nat.toDigits 10 decimal.digits
  let point : Int := digits.length + decimal.exponent
  if 0 ≤ decimal.exponent ∧ point ≤ 16 then
    String.ofList (digits ++ List.replicate decimal.exponent.natAbs '0' ++ ['.', '0'])
  else if 0 < point ∧ point ≤ 16 then
    String.ofList (digits.take point.natAbs ++ ['.'] ++ digits.drop point.natAbs)
  else if -5 < point ∧ point ≤ 0 then
    String.ofList (['0', '.'] ++ List.replicate point.natAbs '0' ++ digits)
  else
    let fraction := if digits.length = 1 then [] else '.' :: digits.tail
    String.ofList (digits.take 1 ++ fraction ++ ['e']) ++ toString (point - 1)

/-- A finite double; zero keeps its sign. -/
def printDouble (double : Double) : String :=
  let sign := if double.isNegative then "-" else ""
  if double.significand = 0 then sign ++ "0.0"
  else sign ++ printDecimal double.shortest

/-- A number. -/
def printNumber : Number → String
  | .integer value => toString value
  | .double value => printDouble value

/-- The text of a value that holds no other values. -/
def printLeaf : Json → String
  | .null => "null"
  | .boolean true => "true"
  | .boolean false => "false"
  | .number value => printNumber value
  | .string value => printString value
  | .array _ => "[]"
  | .object _ => "\x7b\x7d"

mutual

/-- A value in one line without blanks. -/
def compact : Json → String
  | .array items => "[" ++ ",".intercalate (compactItems items) ++ "]"
  | .object fields => "\x7b" ++ ",".intercalate (compactFields fields) ++ "\x7d"
  | leaf => printLeaf leaf

/-- The texts of the items. -/
def compactItems : List Json → List String
  | [] => []
  | item :: rest => compact item :: compactItems rest

/-- The texts of the fields. -/
def compactFields : List (String × Json) → List String
  | [] => []
  | (name, value) :: rest =>
      (printString name ++ ":" ++ compact value) :: compactFields rest

end

/-- The line break in front of an entry at a given depth. -/
def lineBreak (depth : Nat) : String :=
  "\n" ++ String.ofList (List.replicate (2 * depth) ' ')

/-- Entries between brackets, one on a line, at a given depth of the container. -/
def enclose (opening closing : String) (depth : Nat) (entries : List String) : String :=
  if entries.isEmpty then opening ++ closing
  else
    opening ++ ",".intercalate (entries.map (lineBreak (depth + 1) ++ ·)) ++
      lineBreak depth ++ closing

mutual

/-- A value over several lines, at a given depth. -/
def prettyAt (depth : Nat) : Json → String
  | .array items => enclose "[" "]" depth (prettyItems (depth + 1) items)
  | .object fields => enclose "\x7b" "\x7d" depth (prettyFields (depth + 1) fields)
  | leaf => printLeaf leaf

/-- The texts of the items at a given depth. -/
def prettyItems (depth : Nat) : List Json → List String
  | [] => []
  | item :: rest => prettyAt depth item :: prettyItems depth rest

/-- The texts of the fields at a given depth. -/
def prettyFields (depth : Nat) : List (String × Json) → List String
  | [] => []
  | (name, value) :: rest =>
      (printString name ++ ": " ++ prettyAt depth value) :: prettyFields depth rest

end

/-- A value over several lines, without a final line break. -/
def pretty (value : Json) : String :=
  prettyAt 0 value

end ContentApi.Json
