import ContentApi.Text.Visible

/-!
# Texts quoted for a message

Messages quote a text between double quotes.  The quote and the backslash are
escaped, four control characters have a short escape, and every other character that
does not show by itself is written by its code point.
-/

namespace ContentApi.Text

/-- The lower-case hexadecimal digits of a code point. -/
def hexadecimal (code : Nat) : List Char :=
  Nat.toDigits 16 code

/-- One character of a quoted text. -/
def quoteCharacter (character : Char) : List Char :=
  match character with
  | '\x00' => ['\\', '0']
  | '\t' => ['\\', 't']
  | '\r' => ['\\', 'r']
  | '\n' => ['\\', 'n']
  | '\\' => ['\\', '\\']
  | '\x22' => ['\\', '\x22']
  | other =>
      if isVisible other then [other]
      else ['\\', 'u', '\x7b'] ++ hexadecimal other.toNat ++ ['\x7d']

/-- A text between double quotes, with the characters that need it escaped. -/
def quoted (text : String) : String :=
  String.ofList (['\x22'] ++ text.toList.flatMap quoteCharacter ++ ['\x22'])

/-- An optional text in a message: `None`, or `Some` with the quoted text. -/
def quotedOption : Option String → String
  | none => "None"
  | some text => "Some(" ++ quoted text ++ ")"

end ContentApi.Text
