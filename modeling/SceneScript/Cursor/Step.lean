import SceneScript.Cursor.Token

/-!
# Steps of a cursor

Everything that can be done with a cursor, as data, so that a run of a cursor over a source is a
list of steps.  A step answers and says where the cursor is left; an error does not end the run.
-/

namespace SceneScript

/-- What can be asked of a cursor from outside, a step at a time. -/
inductive CursorStep where
  | seek (offset : Nat)
  | char
  | isEnd
  | trivia
  | symbol (spelling : String)
  | keyword (spelling : String)
  | word
  | name
  | number
  | text
  | lexeme
  | lexemes

/-- What a step answers. -/
inductive CursorAnswer where
  | done
  | flag (value : Bool)
  | char (value : Option Char)
  | text (value : Option String)
  | number (value : Option Binary64)
  | lexeme (value : Option Lexeme)
  | lexemes (value : List Lexeme)
  | failed (error : LexicalError)

namespace CursorStep

/-- The answer of a movement that either applies or leaves the cursor where it is. -/
def moved (c : Cursor) : Option Cursor → CursorAnswer × Cursor
  | some after => (.flag true, after)
  | none => (.flag false, c)

/-- The answer of reading something that is perhaps not there. -/
def scanned {α : Type} (c : Cursor) (answer : Option α → CursorAnswer) :
    Except LexicalError (Option (α × Cursor)) → CursorAnswer × Cursor
  | .ok (some (value, after)) => (answer (some value), after)
  | .ok none => (answer none, c)
  | .error e => (.failed e, c)

/-- Takes a step in a source. -/
def run (source : String) (c : Cursor) : CursorStep → CursorAnswer × Cursor
  | .seek offset => (.done, Cursor.seek source offset)
  | .char => (.char c.char?, c)
  | .isEnd => (.flag c.isEnd, c)
  | .trivia => (.done, c.afterTrivia)
  | .symbol spelling => moved c (c.afterSymbol? spelling)
  | .keyword spelling => moved c (c.afterKeyword? spelling)
  | .word => (.text c.word?, c)
  | .name => scanned c .text (.ok c.name?)
  | .number => scanned c .number c.number?
  | .text => scanned c .text c.text?
  | .lexeme =>
    match c.nextLexeme with
    | (.ok found, after) => (.lexeme found, after)
    | (.error e, after) => (.failed e, after)
  | .lexemes =>
    match c.lexemes with
    | (.ok found, after) => (.lexemes found, after)
    | (.error e, after) => (.failed e, after)

/-- Takes steps one after the other.  Each answer comes with the place where the cursor is left. -/
def runAll (source : String) : Cursor → List CursorStep → List (CursorAnswer × Cursor)
  | _, [] => []
  | c, step :: steps =>
    let (answer, after) := step.run source c
    (answer, after) :: runAll source after steps

end CursorStep

end SceneScript
