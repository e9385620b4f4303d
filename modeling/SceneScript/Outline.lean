import SceneScript.Text.Quoted

/-!
# Outlines

A dump of a value for people: names with their parts, on one line or with every part on a line of
its own.  A part on a line of its own is four spaces further in and has a comma after it.
-/

namespace SceneScript

/-- The shape of a value as it is dumped. -/
inductive Outline where
  /-- A finished piece of text. -/
  | leaf (text : String)
  /-- A name with parts in parentheses. -/
  | call (name : String) (parts : List Outline)
  /-- A name with named parts in braces. -/
  | record (name : String) (fields : List (String × Outline))
  | list (items : List Outline)

namespace Outline

/-- A text, in quotes. -/
def text (value : String) : Outline := .leaf (Text.quoted value)

/-- A character, in quotes. -/
def char (value : Char) : Outline := .leaf (Text.quotedChar value)

/-- A truth value. -/
def bool (value : Bool) : Outline := .leaf (if value then "true" else "false")

mutual

/-- The outline on one line. -/
def line : Outline → String
  | .leaf text => text
  | .call name parts => name ++ "(" ++ ", ".intercalate (lineParts parts) ++ ")"
  | .record name fields => name ++ " \x7b " ++ ", ".intercalate (lineFields fields) ++ " \x7d"
  | .list items => "[" ++ ", ".intercalate (lineParts items) ++ "]"

/-- Some outlines, each on one line. -/
def lineParts : List Outline → List String
  | [] => []
  | part :: parts => part.line :: lineParts parts

/-- Some fields, each on one line. -/
def lineFields : List (String × Outline) → List String
  | [] => []
  | (name, value) :: fields => (name ++ ": " ++ value.line) :: lineFields fields

end

/-- Parts on lines of their own, so many levels deep. -/
def indented (depth : Nat) (parts : List String) : String :=
  let margin := String.ofList (List.replicate (4 * depth) ' ')
  String.join (parts.map fun part => margin ++ part ++ ",\n")

/-- Parts between brackets, each on a line of its own if there are any. -/
def bracketed (opening closing : String) (depth : Nat) (parts : List String) : String :=
  if parts.isEmpty then opening ++ closing
  else
    opening ++ "\n" ++ indented (depth + 1) parts
      ++ String.ofList (List.replicate (4 * depth) ' ') ++ closing

mutual

/-- The outline with every part on a line of its own, so many levels deep. -/
def blockAt (depth : Nat) : Outline → String
  | .leaf text => text
  | .call name parts => name ++ bracketed "(" ")" depth (blockParts (depth + 1) parts)
  | .record name fields =>
    name ++ bracketed " \x7b" "\x7d" depth (blockFields (depth + 1) fields)
  | .list items => bracketed "[" "]" depth (blockParts (depth + 1) items)

/-- Some outlines over several lines, so many levels deep. -/
def blockParts (depth : Nat) : List Outline → List String
  | [] => []
  | part :: parts => part.blockAt depth :: blockParts depth parts

/-- Some fields over several lines, so many levels deep. -/
def blockFields (depth : Nat) : List (String × Outline) → List String
  | [] => []
  | (name, value) :: fields => (name ++ ": " ++ value.blockAt depth) :: blockFields depth fields

end

/-- The outline with every part on a line of its own. -/
def block (o : Outline) : String := o.blockAt 0

end Outline

end SceneScript
