/-!
# Commas outside parentheses

A list such as `members(id,role),owner` is cut at its commas, except that a comma
inside parentheses belongs to its entry.  A closing parenthesis without an opening
one is ignored.
-/

namespace ContentApi.Text

/-- The nesting depth after one more character; it never drops below zero. -/
def depthAfter (depth : Nat) : Char → Nat
  | '(' => depth + 1
  | ')' => depth - 1
  | _ => depth

/-- The nesting depth at the end of a text that starts at nesting depth `depth`. -/
def depthAtEnd (depth : Nat) (text : List Char) : Nat :=
  text.foldl depthAfter depth

/-- The pieces of a text that starts at nesting depth `depth`, cut at depth zero. -/
def splitAtDepth (depth : Nat) : List Char → List (List Char)
  | [] => [[]]
  | character :: rest =>
      if character = ',' ∧ depth = 0 then
        [] :: splitAtDepth 0 rest
      else
        (splitAtDepth (depthAfter depth character) rest).modifyHead (character :: ·)

/-- Cuts a text at the commas that stand outside all parentheses. -/
def splitOutsideParentheses (text : List Char) : List (List Char) :=
  splitAtDepth 0 text

end ContentApi.Text
