import SceneScript.Program.Statement

/-!
# Programs

A scene is a program: statements in the order in which they are carried out.
-/

namespace SceneScript

/-- A scene: its statements in order. -/
structure Program where
  statements : List Statement
  deriving DecidableEq

namespace Program

/-- How many statements there are, not counting those inside others. -/
def length (p : Program) : Nat := p.statements.length

/-- The scene has no statements. -/
def isEmpty (p : Program) : Bool := p.statements.isEmpty

end Program

end SceneScript
