/-!
# Blank characters

Request parameters are trimmed and cut into words at blanks, and a blank is any
character with the Unicode property `White_Space`.  The `where` grammar knows a
narrower set, see `ContentApi.Scanner`.
-/

namespace ContentApi.Text

/-- The characters with the Unicode property `White_Space`. -/
def isBlank (character : Char) : Bool :=
  let code := character.toNat
  (9 ≤ code && code ≤ 13) || code == 0x20 || code == 0x85 || code == 0xa0 ||
    code == 0x1680 || (0x2000 ≤ code && code ≤ 0x200a) || code == 0x2028 ||
    code == 0x2029 || code == 0x202f || code == 0x205f || code == 0x3000

/-- Removes the blanks at both ends. -/
def trim (text : List Char) : List Char :=
  ((text.dropWhile isBlank).reverse.dropWhile isBlank).reverse

/-- The maximal runs of characters that are not blank, in order. -/
def words (text : List Char) : List (List Char) :=
  (text.splitOnP isBlank).filter (!·.isEmpty)

/-- The trimmed pieces between commas that are not empty, in order. -/
def tokens (text : List Char) : List (List Char) :=
  ((text.splitOn ',').map trim).filter (!·.isEmpty)

end ContentApi.Text
