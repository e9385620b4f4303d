import SceneScript.ParseError
import SceneScript.Text.Blank

/-!
# Diagnostics

A parse error shown against the source line it is about, with a caret below the column, and in
colors if they are wanted.
-/

namespace SceneScript

/-- A source with the name it is shown by. -/
structure NamedSource where
  name : String
  content : String

/-- A place in a named source, with the line it is on. -/
structure Excerpt where
  file : String
  line : Nat
  column : Nat
  lineContent : String

namespace NamedSource

/-- A line by its number, counted from one. -/
def line? (file : NamedSource) (number : Nat) : Option String :=
  if number = 0 then none else (Text.lines file.content.toList)[number - 1]?.map String.ofList

/-- Where a position is.  A line that does not exist is shown empty. -/
def locate (file : NamedSource) (p : Position) : Excerpt where
  file := file.name
  line := p.line
  column := p.column
  lineContent := (file.line? p.line).getD ""

end NamedSource

/-- The terminal codes a diagnostic is painted with. -/
structure Palette where
  error : String
  frame : String
  note : String
  suggestion : String
  help : String
  title : String
  reset : String

namespace Palette

/-- No codes at all. -/
def plain : Palette := ⟨"", "", "", "", "", "", ""⟩

/-- The codes for red, blue, cyan, yellow, green and bold. -/
def colored : Palette where
  error := "\x1b[1;31m"
  frame := "\x1b[1;34m"
  note := "\x1b[1;36m"
  suggestion := "\x1b[1;33m"
  help := "\x1b[1;32m"
  title := "\x1b[1m"
  reset := "\x1b[0m"

/-- The codes that are used with color or without. -/
def ofColor (color : Bool) : Palette := if color then colored else plain

end Palette

/-- An error and where it is shown. -/
structure Diagnostic where
  error : ParseError
  location : Excerpt
  color : Bool

/-- An error in a source, with the line it is about. -/
def NamedSource.diagnostic (file : NamedSource) (error : ParseError) (color : Bool) : Diagnostic :=
  ⟨error, file.locate error.position, color⟩

namespace Diagnostic

/-- What stands before the caret: a tab below a tab and a space below anything else. -/
def pointer (location : Excerpt) : List Char :=
  (location.lineContent.toList.take (location.column - 1)).map fun c =>
    if c = '\t' then '\t' else ' '

/-- The lines of the diagnostic. -/
def lines (d : Diagnostic) : List String :=
  let p := Palette.ofColor d.color
  let place := d.location
  let gutter := String.ofList (List.replicate (toString place.line).length ' ')
  let bar := p.frame ++ "|" ++ p.reset
  let content := String.ofList (Text.trimEnd place.lineContent.toList)
  [p.error ++ "error" ++ p.reset ++ ": " ++ p.title ++ d.error.kind.message ++ ", found "
     ++ d.error.found ++ p.reset,
   "  " ++ p.frame ++ "-->" ++ p.reset ++ " " ++ place.file ++ ":" ++ toString place.line ++ ":"
     ++ toString place.column,
   "  " ++ gutter ++ " " ++ bar,
   "  " ++ p.frame ++ toString place.line ++ p.reset ++ " " ++ bar ++ " " ++ content,
   "  " ++ gutter ++ " " ++ bar ++ " " ++ String.ofList (pointer place) ++ p.error ++ "^--- here"
     ++ p.reset]
  ++ (if d.error.expected.isEmpty then []
      else ["  " ++ p.note ++ "note" ++ p.reset ++ ": " ++ d.error.expected.text])
  ++ (match d.error.suggestion with
      | none => []
      | some keyword =>
        ["  " ++ p.help ++ "help" ++ p.reset ++ ": did you mean `" ++ p.suggestion ++ keyword
           ++ p.reset ++ "`?"])

/-- The diagnostic as a text. -/
def render (d : Diagnostic) : String :=
  String.join (d.lines.map (· ++ "\n"))

end Diagnostic

end SceneScript
