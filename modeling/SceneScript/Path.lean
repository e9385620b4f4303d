/-!
# Paths

A path is a text whose parts are separated by slashes.
-/

namespace SceneScript.Path

/-- The path starts at the root. -/
def isAbsolute (path : String) : Bool := path.toList.head? == some '/'

/-- A path as seen from a directory.  What is added keeps its spelling, so an empty path leaves the
directory with a slash behind it. -/
def join (directory path : String) : String :=
  if isAbsolute path then path
  else if directory.isEmpty || directory.toList.getLast? == some '/' then directory ++ path
  else directory ++ "/" ++ path

/-- The parts between the slashes.  A slash at the start or the end has an empty part beside it. -/
def parts (path : String) : List String := (path.toList.splitOn '/').map String.ofList

end SceneScript.Path
