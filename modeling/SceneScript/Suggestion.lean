import SceneScript.EditDistance
import SceneScript.Text.Bytes
import SceneScript.Text.Case

/-!
# Suggestions

The keyword that a misspelled word was perhaps meant to be.  Keywords are in lower case, so the
word is compared in lower case, and `Draw` suggests `draw`.
-/

namespace SceneScript

/-- The largest distance at which a word of so many bytes passes for a misspelling. -/
def tolerance (length : Nat) : Nat := if 4 ≤ length then 2 else 1

/-- The keyword is of about the length of the word. -/
def isNear (word keyword : String) : Bool :=
  let length := Text.byteLength word.toList
  let other := Text.byteLength keyword.toList
  length ≤ other + 2 && other ≤ length + 2

/-- How far a keyword is from a word in lower case. -/
def spellingDistance (word keyword : String) : Nat :=
  editDistance (Text.lower word.toList) keyword.toList

/-- The keyword nearest to a word, from the best one so far, with its distance, and the keywords that
are left.  The search ends without one where it meets the word itself. -/
def suggestFrom (word : String) (best : Option (String × Nat)) : List String → Option String
  | [] => best.map (·.1)
  | keyword :: keywords =>
    if !isNear word keyword then suggestFrom word best keywords
    else if word = keyword then none
    else
      let distance := spellingDistance word keyword
      if distance ≤ tolerance (Text.byteLength word.toList) && best.all (distance < ·.2) then
        suggestFrom word (some (keyword, distance)) keywords
      else suggestFrom word best keywords

/-- The keyword nearest to a word.  There is none for a keyword, nor for a word of up to two
bytes, which is meant to be short. -/
def suggest (word : String) (keywords : List String) : Option String :=
  if Text.byteLength word.toList ≤ 2 then none else suggestFrom word none keywords

end SceneScript
