import SceneScript.Text.Bytes
import SceneScript.Trivia
import SceneScript.Vocabulary

/-!
# Cursors

A cursor stands between two characters of a source.  It knows the text that follows and how many
bytes precede it.  All movement is `advance`, over a count of characters, so a cursor never stands
inside a character and never past the end.

This module has the movements over trivia, symbols and words.  A movement that does not apply
answers `none`, and the cursor one had is still there.
-/

namespace SceneScript

/-- A place in a source. -/
structure Cursor where
  /-- The text from here to the end of the source. -/
  rest : List Char
  /-- The number of bytes from the start of the source to here. -/
  pos : Nat
  deriving DecidableEq

namespace Cursor

/-- The start of a source. -/
def start (source : String) : Cursor := ⟨source.toList, 0⟩

/-- The place at a byte offset, which is between two characters. -/
def seek (source : String) (offset : Nat) : Cursor :=
  ⟨Text.dropBytes offset source.toList, offset⟩

/-- The place at a byte offset, or the end of the source if that is before it. -/
def atOffset (source : String) (offset : Nat) : Cursor :=
  seek source (min offset (Text.byteLength source.toList))

/-- The place so many characters on. -/
def advance (c : Cursor) (count : Nat) : Cursor :=
  ⟨c.rest.drop count, c.pos + Text.byteLength (c.rest.take count)⟩

/-- The text from here to a later place. -/
def textTo (c later : Cursor) : List Char := c.rest.take (c.rest.length - later.rest.length)

/-- Nothing is left to read. -/
def isEnd (c : Cursor) : Bool := c.rest.isEmpty

/-- The character that stands next. -/
def char? (c : Cursor) : Option Char := c.rest.head?

/-! ## Trivia, symbols and words -/

/-- The place after blanks and comments. -/
def afterTrivia (c : Cursor) : Cursor := c.advance (triviaLength c.rest)

/-- The place after a symbol, if it stands here. -/
def afterSymbol? (symbol : String) (c : Cursor) : Option Cursor :=
  if symbol.toList.isPrefixOf c.rest then some (c.advance symbol.toList.length) else none

/-- The place after a keyword, if it stands here as a whole word. -/
def afterKeyword? (keyword : String) (c : Cursor) : Option Cursor :=
  let length := keyword.toList.length
  if keyword.toList.isPrefixOf c.rest && !(c.rest.drop length).head?.any isWordChar then
    some (c.advance length)
  else none

/-- The word that stands here, reserved or not. -/
def word? (c : Cursor) : Option String :=
  if c.rest.head?.any isWordStart then some (String.ofList (c.rest.takeWhile isWordChar)) else none

/-- The place after a word that was seen here. -/
def afterWord (word : String) (c : Cursor) : Cursor := c.advance word.toList.length

/-- The name that stands here and the place after it.  A reserved word is no name. -/
def name? (c : Cursor) : Option (String × Cursor) :=
  match c.word? with
  | some word => if isReserved word then none else some (word, c.afterWord word)
  | none => none

/-! ## Small facts -/

@[simp] theorem rest_advance (c : Cursor) (count : Nat) :
    (c.advance count).rest = c.rest.drop count := rfl

@[simp] theorem pos_advance (c : Cursor) (count : Nat) :
    (c.advance count).pos = c.pos + Text.byteLength (c.rest.take count) := rfl

@[simp] theorem advance_zero (c : Cursor) : c.advance 0 = c := by
  simp [advance]

/-- Two movements are one. -/
theorem advance_advance (c : Cursor) (m n : Nat) :
    (c.advance m).advance n = c.advance (m + n) := by
  simp [advance, List.take_add, Nat.add_assoc]

/-- After trivia there is no trivia. -/
@[simp] theorem afterTrivia_afterTrivia (c : Cursor) : c.afterTrivia.afterTrivia = c.afterTrivia := by
  have h : triviaLength c.afterTrivia.rest = 0 := triviaLength_drop_triviaFrom false c.rest
  rw [afterTrivia, h, advance_zero]

/-- A movement never makes the rest longer. -/
theorem length_rest_advance_le (c : Cursor) (count : Nat) :
    (c.advance count).rest.length ≤ c.rest.length := by
  simp

end Cursor

end SceneScript
