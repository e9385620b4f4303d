import SceneScript.Cursor
import SceneScript.Token

/-!
# The farthest failure

While alternatives are tried and given up, the parser keeps the place farthest into the source at
which one of them failed, and what could have stood there.  If no alternative is left, that place
is where the source goes wrong.
-/

namespace SceneScript.Parser

/-- Something that could have stood somewhere. -/
inductive Expectation where
  /-- A keyword or a symbol, by its own text. -/
  | literal (text : String)
  | statement
  | value
  | identifier
  | functionName
  | parameterName
  deriving DecidableEq

/-- How an expectation is worded. -/
def Expectation.text : Expectation → String
  | .literal text => "`" ++ text ++ "`"
  | .statement => "statement"
  | .value =>
    "a value (number, color name, `rgb(...)`, `<x, y, z>`, `texture(...)`, `(...)`, object, "
      ++ "string or identifier)"
  | .identifier => "identifier"
  | .functionName => "function name"
  | .parameterName => "parameter name"

/-- What is known about a failure beyond that nothing fits. -/
inductive Reason where
  | lexical (error : LexicalError)
  /-- A block that was opened at a place lacks its `end`. -/
  | unclosed (keyword : String) (opened : Cursor)
  deriving DecidableEq

/-- The farthest place of failure so far. -/
structure Farthest where
  place : Cursor
  /-- What could have stood there, each once, the latest first. -/
  expected : List Expectation
  /-- The first reason that was found there. -/
  reason : Option Reason
  deriving DecidableEq

namespace Farthest

/-- No failure yet, so it is at the start of the source. -/
def start (c : Cursor) : Farthest := ⟨c, [], none⟩

/-- A failure at a place makes the earlier ones void that are not as far. -/
def reach (f : Farthest) (place : Cursor) : Farthest :=
  if f.place.pos < place.pos then ⟨place, [], none⟩ else f

/-- Something could have stood at a place. -/
def expect (f : Farthest) (place : Cursor) (e : Expectation) : Farthest :=
  let f := f.reach place
  if f.place.pos = place.pos ∧ e ∉ f.expected then { f with expected := e :: f.expected } else f

/-- There is a reason for a failure at a place. -/
def blame (f : Farthest) (place : Cursor) (reason : Reason) : Farthest :=
  let f := f.reach place
  if f.place.pos = place.pos ∧ f.reason = none then { f with reason := some reason } else f

/-- What could have stood there, in words, in the order of their characters. -/
def texts (f : Farthest) : List String :=
  (f.expected.map Expectation.text).mergeSort fun a b => decide (a ≤ b)

end Farthest

end SceneScript.Parser
