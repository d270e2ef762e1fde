/-!
# Ranges of code points

Character classes of the Unicode standard are listed as inclusive ranges of code
points in ascending order.
-/

namespace ContentApi.Text

/-- Whether a character lies in one of the inclusive ranges. -/
def inRanges (ranges : List (Nat × Nat)) (character : Char) : Bool :=
  ranges.any fun (first, last) =>
    first ≤ character.toNat && character.toNat ≤ last

end ContentApi.Text
