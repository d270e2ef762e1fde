import ContentApi.Scanner
import ContentApi.Text.Alphanumeric

/-!
# Property paths

A property is addressed by a path of names with slashes between them and possibly one in
front, as in `owner/name` or `/owner/name`.  The `select` and `include` clauses are lists
of paths.
-/

namespace ContentApi.Path

open Scanner

/-- A character of a name in a path. -/
def isNameCharacter (character : Char) : Bool :=
  Text.isAlphanumeric character || character == '_' || character == '-' ||
    character == ':' || character == '.'

/--
The rest of a path behind one of its characters, and the text behind it.  A slash belongs
to the path only if a name follows.
-/
def continuation : List Char → List Char × List Char
  | [] => ([], [])
  | character :: rest =>
      if isNameCharacter character ||
          (character == '/' && (rest.head?.any isNameCharacter)) then
        let (path, rest) := continuation rest
        (character :: path, rest)
      else ([], character :: rest)

/-- A path whose leading slash, if it has one, has been read already. -/
def scanNames : Scanner (List Char)
  | [] => .error []
  | character :: rest =>
      if isNameCharacter character then .ok (continuation (character :: rest))
      else .error (character :: rest)

/-- The longest path at the start of a text. -/
def scan : Scanner String
  | '/' :: rest => scanNames.map (fun names => String.ofList ('/' :: names)) rest
  | text => scanNames.map String.ofList text

/-- A list of paths with commas between them, as a whole clause. -/
def scanClause : Scanner (List String) := do
  skipSpaces
  let paths ← commaSeparated scan
  skipSpaces
  finished
  return paths

/-- The paths of a `select` or `include` clause. -/
def compile (clause : String) : Except Rejection (List String) :=
  scanClause.compile clause

/-- The first name of a path: what stands before its first slash, leading ones aside. -/
def topName (path : String) : String :=
  String.ofList ((path.toList.dropWhile (· == '/')).takeWhile (· != '/'))

end ContentApi.Path
