import SceneScript.Cursor.Token
import SceneScript.ParseError
import SceneScript.Parser.Nesting
import SceneScript.Suggestion

/-!
# Parsing scenes

`parse` reads a program from a source, or says where and why the source is no program.  The parser
tries alternatives in order and remembers what it found at each place; `parseAfresh` has the same
rules and remembers nothing.
-/

namespace SceneScript

namespace Parser

/-! ## Errors -/

/-- An error at a place with a description of what stands there. -/
def errorAt (source : String) (kind : Problem) (place : Cursor) : ParseError where
  kind := kind
  position := Position.ofOffset source place.pos
  expected := Alternatives.none
  found := place.describe
  suggestion := none

/-- The error that ends a parse at once. -/
def Abort.error (source : String) : Abort → ParseError
  | .tooDeep place => errorAt source (.nestingTooDeep nestingLimit) place
  | .reservedWord place word =>
    { errorAt source (.reservedWord word) place with
      expected := ⟨[Expectation.identifier.text]⟩
      found := "`" ++ word ++ "`" }

/-- The keyword that a misspelled word at one of some places was perhaps meant to be. -/
def suggestionAt (places : List Cursor) : Option String :=
  places.findSome? fun place => place.word?.bind (suggest · keywords)

/-- A stray `end` stands here, which is no assignment to a variable of that name. -/
def isStrayEnd (place : Cursor) : Bool :=
  match place.afterKeyword? "end" with
  | some after => (after.afterTrivia.afterSymbol? "=").isNone
  | none => false

/-- What kind of error a failure is. -/
def Farthest.kind (source : String) (f : Farthest) : Problem :=
  match f.reason with
  | some (.lexical e) => .lexical e
  | some (.unclosed keyword opened) =>
    .unclosedBlock keyword (Position.ofOffset source opened.pos).line
  | none => .unexpected

/-- What kind of error it is that a place starts no statement, if nothing failed behind it. -/
def trailingKind (place : Cursor) : Problem :=
  match place.nextLexeme.1 with
  | .error e => .lexical e
  | .ok _ => .trailingInput

/-- The error of a program that ends at a place before the end of the source. -/
def leftoverError (source : String) (f : Farthest) (place : Cursor) : ParseError :=
  if isStrayEnd place then { errorAt source .trailingInput place with found := "`end`" }
  else if place.pos < f.place.pos || f.reason.isSome then
    { errorAt source (f.kind source) f.place with
      expected := ⟨f.texts⟩
      suggestion := suggestionAt [f.place, place] }
  else
    { errorAt source (trailingKind place) place with suggestion := suggestionAt [place] }

/-! ## Programs -/

/-- The program that a source is. -/
def parseWith (memory : Memory) (source : String) : Except ParseError Program :=
  match Rule.many (level memory nestingLimit).statement (State.start source) with
  | .matched statements s =>
    let place := s.cursor.afterTrivia
    if place.isEnd then .ok ⟨statements⟩ else .error (leftoverError source s.farthest place)
  | .unmatched s => .error (leftoverError source s.farthest s.cursor.afterTrivia)
  | .aborted a => .error (a.error source)

end Parser

/-- The program that a source is. -/
def parse (source : String) : Except ParseError Program := Parser.parseWith .tables source

/-- The program that a source is, found without remembering anything. -/
def parseAfresh (source : String) : Except ParseError Program := Parser.parseWith .nothing source

end SceneScript
