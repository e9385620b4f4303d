/-!
# Ranges of characters

A character class that is given by data is a list of ranges of code points, ends included.
-/

namespace SceneScript.Text

/-- The character's code point lies in one of the ranges. -/
def inRanges (ranges : List (Nat × Nat)) (c : Char) : Bool :=
  ranges.any fun range => range.1 ≤ c.toNat && c.toNat ≤ range.2

end SceneScript.Text
