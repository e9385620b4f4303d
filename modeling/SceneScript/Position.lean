import SceneScript.Text.Bytes
import SceneScript.Text.Line

/-!
# Positions

A position names a place in a source three ways: by its byte offset, by its line, and by its
column in that line.  Lines and columns are counted from one, and columns count characters.
-/

namespace SceneScript

/-- A place in a source: its offset in bytes, and its line and column, which are counted from one.
-/
structure Position where
  offset : Nat
  line : Nat
  column : Nat
  deriving DecidableEq

namespace Position

/-- The position after a text that stands at the start of a source. -/
def after (before : List Char) : Position where
  offset := Text.byteLength before
  line := Text.lineFeeds before + 1
  column := (Text.lastLine before).length + 1

/-- The position at a byte offset, or at the end of the source if that is before it. -/
def ofOffset (source : String) (offset : Nat) : Position :=
  after (Text.takeBytes offset source.toList)

/-- Line and column. -/
def text (p : Position) : String := toString p.line ++ ":" ++ toString p.column

end Position

end SceneScript
