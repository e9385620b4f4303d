import SceneScript.Number.Layout
import SceneScript.Vocabulary

/-!
# Tokens

What the source of a scene consists of, and the three ways in which it fails to consist of tokens.
-/

namespace SceneScript

/-- A token.  A word is a keyword wherever it stands if it is one of the scene keywords; which
keywords are names is for the grammar to say. -/
inductive Token where
  | identifier (name : String)
  | keyword (word : String)
  | number (value : Binary64)
  | text (value : String)
  | operator (symbol : Char)
  | punctuation (symbol : Char)
  deriving DecidableEq

/-- A token and the byte offsets between which it stands. -/
structure Lexeme where
  token : Token
  start : Nat
  stop : Nat
  deriving DecidableEq

/-- Why a source is not a sequence of tokens. -/
inductive LexicalError where
  | unterminatedString (start : Nat)
  /-- The number runs into a letter, or is past the largest one. -/
  | malformedNumber (start : Nat) (text : String)
  | unrecognizedCharacter (offset : Nat) (char : Char)
  deriving DecidableEq

namespace LexicalError

/-- Where the offending token starts. -/
def offset : LexicalError → Nat
  | .unterminatedString start => start
  | .malformedNumber start _ => start
  | .unrecognizedCharacter offset _ => offset

/-- The error in words. -/
def message : LexicalError → String
  | .unterminatedString _ => "unterminated string literal"
  | .malformedNumber _ text => "malformed number literal `" ++ text ++ "`"
  | .unrecognizedCharacter _ char => "unrecognized character `" ++ char.toString ++ "`"

end LexicalError

/-- The token of a word. -/
def Token.ofWord (word : String) : Token :=
  if isKeyword word then .keyword word else .identifier word

/-- The token of a single character, if it is one. -/
def Token.ofChar? (c : Char) : Option Token :=
  if operatorChars.contains c then some (.operator c)
  else if punctuationChars.contains c then some (.punctuation c)
  else none

end SceneScript
