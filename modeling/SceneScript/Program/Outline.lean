import SceneScript.Number.Layout
import SceneScript.Outline
import SceneScript.Program

/-!
# Outlines of programs

The names of the nodes and of their parts in a dump.
-/

namespace SceneScript

/-- A number as dumps show it. -/
def Binary64.outline (x : Binary64) : Outline := .leaf (Layout.dump.number x)

namespace Color

/-- The color's name in dumps. -/
def dumpName : Color → String
  | red => "Red"
  | orange => "Orange"
  | yellow => "Yellow"
  | green => "Green"
  | blue => "Blue"
  | purple => "Purple"
  | black => "Black"
  | white => "White"

end Color

namespace Solid

/-- The kind's name in dumps. -/
def dumpName : Solid → String
  | sphere => "Sphere"
  | plane => "Plane"
  | csg => "Csg"
  | cube => "Cube"

end Solid

namespace Transform

/-- The kind's name in dumps. -/
def dumpName : Transform → String
  | scale => "Scale"
  | rotate => "Rotate"
  | translate => "Translate"

end Transform

namespace Command

/-- The command's name in dumps. -/
def dumpName : Command → String
  | draw => "Draw"
  | display => "Display"
  | append => "Append"

end Command

namespace Operator

/-- The operator's name in dumps. -/
def dumpName : Operator → String
  | add => "Add"
  | subtract => "Subtract"
  | multiply => "Multiply"
  | divide => "Divide"
  | modulo => "Modulo"
  | lessThan => "LessThan"
  | greaterThan => "GreaterThan"

end Operator

namespace Expr

mutual

/-- The outline of an expression. -/
def outline : Expr → Outline
  | .number value => .call "Number" [value.outline]
  | .color name => .call "Color" [.leaf name.dumpName]
  | .rgb r g b => .record "Rgb" [("r", r.outline), ("g", g.outline), ("b", b.outline)]
  | .vector x y z => .record "Vector" [("x", x.outline), ("y", y.outline), ("z", z.outline)]
  | .texture path => .record "Texture" [("path", path.outline)]
  | .solid kind args =>
    .record "Object" [("kind", .leaf kind.dumpName), ("args", .list (outlines args))]
  | .paren inner => .call "Paren" [inner.outline]
  | .text value => .call "StringLit" [.text value]
  | .identifier name => .call "Identifier" [.text name]
  | .negate operand => .call "Negate" [operand.outline]
  | .binary left op right =>
    .record "BinaryOp"
      [("left", left.outline), ("op", .leaf op.dumpName), ("right", right.outline)]

/-- The outlines of some expressions. -/
def outlines : List Expr → List Outline
  | [] => []
  | e :: es => e.outline :: outlines es

end

end Expr

namespace Statement

mutual

/-- The outline of a statement. -/
def outline : Statement → Outline
  | .assignment isLocal name value =>
    .record "Assignment"
      [("is_local", .bool isLocal), ("name", .text name), ("value", value.outline)]
  | .transformation kind x y z body =>
    .record "Transformation"
      [("kind", .leaf kind.dumpName), ("args", .list [x.outline, y.outline, z.outline]),
       ("body", body.outline)]
  | .definition name params body =>
    .record "FunctionDef"
      [("name", .text name), ("params", .list (params.map .text)),
       ("body", .list (outlines body))]
  | .call name args =>
    .record "FunctionCall" [("name", .text name), ("args", .list (Expr.outlines args))]
  | .conditional condition body =>
    .record "If" [("condition", condition.outline), ("body", .list (outlines body))]
  | .loop condition body =>
    .record "While" [("condition", condition.outline), ("body", .list (outlines body))]
  | .block body => .record "Do" [("body", .list (outlines body))]
  | .command name args =>
    .record "Command" [("name", .leaf name.dumpName), ("args", .list (Expr.outlines args))]
  | .light args => .record "AppendLight" [("args", .list (Expr.outlines args))]
  | .camera value => .record "SetCamera" [("value", value.outline)]

/-- The outlines of some statements. -/
def outlines : List Statement → List Outline
  | [] => []
  | s :: ss => s.outline :: outlines ss

end

end Statement

/-- The outline of a program. -/
def Program.outline (p : Program) : Outline :=
  .record "Program" [("statements", .list (Statement.outlines p.statements))]

end SceneScript
