import SceneScript.Disk
import SceneScript.Path

/-!
# File trees

A file system that is a value: files and directories by the parts of their paths from the root.
Every directory on the way to something exists.
-/

namespace SceneScript

/-- The files and the directories, told by the parts of their paths.  Only directories without files
in them have to be named. -/
structure FileTree where
  files : List (List String × ByteArray)
  directories : List (List String)

namespace FileTree

/-- The root alone. -/
def empty : FileTree := ⟨[], []⟩

/-- The tree with one file more, which hides one that was there. -/
def addFile (tree : FileTree) (path : List String) (bytes : ByteArray) : FileTree :=
  { tree with files := (path, bytes) :: tree.files }

/-- The tree with one directory more. -/
def addDirectory (tree : FileTree) (path : List String) : FileTree :=
  { tree with directories := path :: tree.directories }

/-- What is at a place. -/
def at? (tree : FileTree) (place : List String) : Entry :=
  match tree.files.lookup place with
  | some bytes => .file bytes
  | none =>
    if (tree.files.map (·.1) ++ tree.directories).any place.isPrefixOf || place.isEmpty then
      .directory
    else .missing

/-- The place one part on.  An empty part and a dot stay where they are. -/
def step (place : List String) (part : String) : List String :=
  if part = "" ∨ part = "." then place
  else if part = ".." then place.dropLast
  else place ++ [part]

/-- What is at the end of a path from a place.  All parts but the last lead through directories. -/
def walk (tree : FileTree) (place : List String) : List String → Entry
  | [] => tree.at? place
  | part :: parts =>
    match tree.at? place with
    | .directory => tree.walk (step place part) parts
    | .file _ => .throughFile
    | other => other

/-- The place that a path leads to from the root. -/
def placeOf (path : String) : List String := (Path.parts path).foldl step []

/-- The tree as a disk, with a working directory for the paths that are not absolute. -/
def disk (tree : FileTree) (workingDirectory : String) : Disk Id where
  entry path :=
    if path.isEmpty then .missing
    else if Path.isAbsolute path then tree.walk [] (Path.parts path)
    else tree.walk (placeOf workingDirectory) (Path.parts path)

end FileTree

end SceneScript
