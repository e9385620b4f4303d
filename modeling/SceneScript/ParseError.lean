import SceneScript.Position
import SceneScript.Token

/-!
# Parse errors

Why a source is no scene: the kind of error, where it is, what stands there, what could have stood
there, and a keyword that was perhaps meant.
-/

namespace SceneScript

/-- What is wrong. -/
inductive Problem where
  | lexical (error : LexicalError)
  /-- Nothing that is allowed here stands here. -/
  | unexpected
  /-- A block without its `end`. -/
  | unclosedBlock (keyword : String) (line : Nat)
  | nestingTooDeep (limit : Nat)
  | reservedWord (word : String)
  /-- A complete scene is followed by something that starts no statement. -/
  | trailingInput
  deriving DecidableEq

namespace Problem

/-- The problem in words. -/
def message : Problem → String
  | .lexical error => error.message
  | .unexpected => "syntax error"
  | .unclosedBlock keyword line =>
    "unclosed `" ++ keyword ++ "` block opened on line " ++ toString line
  | .nestingTooDeep limit => "nesting too deep (more than " ++ toString limit ++ " levels)"
  | .reservedWord word => "reserved word `" ++ word ++ "` used as identifier"
  | .trailingInput => "unexpected trailing input"

/-- The error is about how the scene is put together. -/
def isStructural : Problem → Bool
  | .unexpected | .unclosedBlock .. | .nestingTooDeep _ => true
  | .lexical _ | .reservedWord _ | .trailingInput => false

end Problem

/-- What could have stood at the place of an error. -/
structure Alternatives where
  items : List String
  deriving DecidableEq

namespace Alternatives

/-- Nothing is expected. -/
def none : Alternatives := ⟨[]⟩

/-- There is nothing that could have stood there. -/
def isEmpty (e : Alternatives) : Bool := e.items.isEmpty

/-- The item is among those that could have stood there. -/
def contains (e : Alternatives) (item : String) : Bool := e.items.contains item

/-- The items as a phrase, empty if there are none. -/
def text (e : Alternatives) : String :=
  match e.items.dropLast, e.items.getLast? with
  | _, .none => ""
  | [], some only => "expected " ++ only
  | others, some last => "expected one of " ++ ", ".intercalate others ++ " or " ++ last

end Alternatives

/-- Why a source is not a scene, and where that shows. -/
structure ParseError where
  kind : Problem
  position : Position
  expected : Alternatives
  /-- What stands at the position. -/
  found : String
  suggestion : Option String
  deriving DecidableEq

/-- The error on one line. -/
def ParseError.message (e : ParseError) : String :=
  e.kind.message ++ " at " ++ e.position.text ++ ", found " ++ e.found

end SceneScript
