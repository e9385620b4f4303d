import SceneScript.Cursor.Literal

/-!
# Reading tokens

`nextLexeme` skips trivia and reads one token; `lexemes` reads all of them.  A cursor that meets an
error stays where the offending token starts.
-/

namespace SceneScript.Cursor

/-- The token that stands right here and the place after it; none at the end of the source. -/
def token? (c : Cursor) : Except LexicalError (Option (Token × Cursor)) :=
  match c.text? with
  | .error e => .error e
  | .ok (some (text, after)) => .ok (some (.text text, after))
  | .ok none =>
    match c.number? with
    | .error e => .error e
    | .ok (some (value, after)) => .ok (some (.number value, after))
    | .ok none =>
      match c.word?, c.char? with
      | some word, _ => .ok (some (Token.ofWord word, c.afterWord word))
      | none, none => .ok none
      | none, some char =>
        match Token.ofChar? char with
        | some token => .ok (some (token, c.advance 1))
        | none => .error (.unrecognizedCharacter c.pos char)

/-- The next token, if any is left, and where the cursor is left. -/
def nextLexeme (c : Cursor) : Except LexicalError (Option Lexeme) × Cursor :=
  let start := c.afterTrivia
  match start.token? with
  | .ok none => (.ok none, start)
  | .ok (some (token, after)) => (.ok (some ⟨token, start.pos, after.pos⟩), after)
  | .error e => (.error e, start)

/-- All tokens up to the end of the source, and where the cursor is left.  A token is never empty;
the test for that ends the loop. -/
def lexemes (c : Cursor) : Except LexicalError (List Lexeme) × Cursor :=
  match c.nextLexeme with
  | (.ok none, after) => (.ok [], after)
  | (.error e, after) => (.error e, after)
  | (.ok (some lexeme), after) =>
    if after.rest.length < c.rest.length then
      match after.lexemes with
      | (.ok more, stop) => (.ok (lexeme :: more), stop)
      | (.error e, stop) => (.error e, stop)
    else (.ok [lexeme], after)
termination_by c.rest.length

/-- The longest piece of source that a description quotes. -/
def describedWidth : Nat := 24

/-- Whatever comes next in a few words, for messages. -/
def describe (c : Cursor) : String :=
  let start := c.afterTrivia
  match start.token? with
  | .ok none => "end of input"
  | .ok (some (_, after)) =>
    let text := start.textTo after
    if describedWidth < text.length then
      "`" ++ String.ofList (text.take describedWidth) ++ "...`"
    else "`" ++ String.ofList text ++ "`"
  | .error (.unterminatedString _) => "an unterminated string"
  | .error (.malformedNumber _ text) => "`" ++ text ++ "`"
  | .error (.unrecognizedCharacter _ char) => "`" ++ char.toString ++ "`"

end SceneScript.Cursor

namespace SceneScript

/-- The tokens of a source. -/
def tokenize (source : String) : Except LexicalError (List Lexeme) :=
  (Cursor.start source).lexemes.1

end SceneScript
