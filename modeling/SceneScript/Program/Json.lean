import SceneScript.Json
import SceneScript.Program

/-!
# Programs as JSON

A node is an object with one field, whose name is the kind of node.  What the node holds is the
value of that field: an object of the parts, or the one part itself.
-/

namespace SceneScript

namespace Operator

/-- The operator's name in dumps. -/
def tag : Operator → String
  | add => "add"
  | subtract => "subtract"
  | multiply => "multiply"
  | divide => "divide"
  | modulo => "modulo"
  | lessThan => "less_than"
  | greaterThan => "greater_than"

end Operator

/-- A node of a kind. -/
def Json.tagged (kind : String) (content : Json) : Json := .object [(kind, content)]

namespace Expr

mutual

/-- The expression as it is dumped. -/
def toJson : Expr → Json
  | .number value => .tagged "number" (.number value)
  | .color name => .tagged "color" (.text name.text)
  | .rgb r g b => .tagged "rgb" (.object [("r", r.toJson), ("g", g.toJson), ("b", b.toJson)])
  | .vector x y z => .tagged "vector" (.object [("x", x.toJson), ("y", y.toJson), ("z", z.toJson)])
  | .texture path => .tagged "texture" (.object [("path", path.toJson)])
  | .solid kind args =>
    .tagged "object" (.object [("kind", .text kind.text), ("args", .list (toJsons args))])
  | .paren inner => .tagged "paren" inner.toJson
  | .text value => .tagged "string_lit" (.text value)
  | .identifier name => .tagged "identifier" (.text name)
  | .negate operand => .tagged "negate" operand.toJson
  | .binary left op right =>
    .tagged "binary_op"
      (.object [("left", left.toJson), ("op", .text op.tag), ("right", right.toJson)])

/-- Some expressions as they are dumped. -/
def toJsons : List Expr → List Json
  | [] => []
  | e :: es => e.toJson :: toJsons es

end

end Expr

namespace Statement

mutual

/-- The statement as it is dumped. -/
def toJson : Statement → Json
  | .assignment isLocal name value =>
    .tagged "assignment"
      (.object [("is_local", .bool isLocal), ("name", .text name), ("value", value.toJson)])
  | .transformation kind x y z body =>
    .tagged "transformation"
      (.object [("kind", .text kind.text), ("args", .list [x.toJson, y.toJson, z.toJson]),
        ("body", body.toJson)])
  | .definition name params body =>
    .tagged "function_def"
      (.object [("name", .text name), ("params", .list (params.map .text)),
        ("body", .list (toJsons body))])
  | .call name args =>
    .tagged "function_call" (.object [("name", .text name), ("args", .list (Expr.toJsons args))])
  | .conditional condition body =>
    .tagged "if" (.object [("condition", condition.toJson), ("body", .list (toJsons body))])
  | .loop condition body =>
    .tagged "while" (.object [("condition", condition.toJson), ("body", .list (toJsons body))])
  | .block body => .tagged "do" (.object [("body", .list (toJsons body))])
  | .command name args =>
    .tagged "command"
      (.object [("name", .text name.text), ("args", .list (Expr.toJsons args))])
  | .light args => .tagged "append_light" (.object [("args", .list (Expr.toJsons args))])
  | .camera value => .tagged "set_camera" (.object [("value", value.toJson)])

/-- Some statements as they are dumped. -/
def toJsons : List Statement → List Json
  | [] => []
  | s :: ss => s.toJson :: toJsons ss

end

end Statement

/-- The program as it is dumped: an object with its statements. -/
def Program.toJson (p : Program) : Json :=
  .object [("statements", .list (Statement.toJsons p.statements))]

end SceneScript
