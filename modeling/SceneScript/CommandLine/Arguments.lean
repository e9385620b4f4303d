/-!
# Arguments of the command line

What a run is asked to do, once the words of the command line are understood: a command with what
belongs to it, and the flags that hold for the whole run.
-/

namespace SceneScript.CommandLine

/-- The forms in which a program is printed. -/
inductive DumpForm where
  | debug
  | json
  | source
  deriving DecidableEq

/-- What the program is asked to do. -/
inductive Request where
  | parse (file : Option String) (form : DumpForm)
  | check (files : List String)
  | tokens (file : Option String)
  deriving DecidableEq

/-- What a run is asked to do, and how. -/
structure Arguments where
  /-- The log has the lines for debugging too. -/
  verbose : Bool
  /-- Messages are not in color, whatever the settings say. -/
  noColor : Bool
  request : Request
  deriving DecidableEq

end SceneScript.CommandLine
