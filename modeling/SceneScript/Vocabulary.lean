/-!
# Vocabulary

The words and characters with a meaning of their own.  A reserved word is never a name.  The other
scene keywords are known by where they stand, so `end`, `light` or `rgb` may also be names.
-/

namespace SceneScript

/-- Words that cannot name a variable, a function or a parameter. -/
def reservedWords : List String := [
  "local", "function",
  "scale", "rotate", "translate",
  "draw", "display", "append",
  "sphere", "plane", "csg", "cube"]

/-- Every word with a fixed meaning somewhere in a scene. -/
def keywords : List String := [
  -- blocks and control flow
  "local", "function", "end", "if", "then", "while", "do", "call",
  -- commands
  "draw", "display", "append", "light", "set", "camera",
  -- transformations
  "scale", "rotate", "translate",
  -- objects
  "sphere", "plane", "csg", "cube",
  -- value constructors
  "rgb", "texture",
  -- colors
  "red", "orange", "yellow", "green", "blue", "purple", "black", "white"]

/-- The characters that are operator tokens. -/
def operatorChars : List Char := ['+', '-', '*', '/', '%', '<', '>', '=']

/-- The characters that are punctuation tokens. -/
def punctuationChars : List Char := ['(', ')', ',']

/-- The word cannot be a name. -/
def isReserved (word : String) : Bool := reservedWords.contains word

/-- The word is a keyword, reserved or not. -/
def isKeyword (word : String) : Bool := keywords.contains word

/-- The character can start a word: an ASCII letter or an underscore. -/
def isWordStart (c : Char) : Bool := c.isAlpha || c == '_'

/-- The character can stand in a word: an ASCII letter or digit or an underscore. -/
def isWordChar (c : Char) : Bool := c.isAlphanum || c == '_'

/-! ## Small facts -/

theorem isWordChar_of_isWordStart {c : Char} (h : isWordStart c = true) : isWordChar c = true := by
  simp only [isWordStart, isWordChar, Char.isAlphanum, Bool.or_eq_true] at h ⊢
  exact h.imp_left .inl

end SceneScript
