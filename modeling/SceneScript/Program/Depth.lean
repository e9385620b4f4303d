import SceneScript.Program

/-!
# Depth and height

The depth of a program counts how far its statements and expressions are nested, as the limit on
nesting counts it: each statement and each expression is a level, while a minus and an operator
belong to the level of their operands.  The height counts every node on the way.
-/

namespace SceneScript

namespace Expr

/-! ## Depth -/

mutual

/-- The levels inside an expression, its own not counted.  An argument list is a level even if it
is empty. -/
def innerDepth : Expr → Nat
  | .number _ | .color _ | .text _ | .identifier _ => 0
  | .rgb r g b => 1 + max r.innerDepth (max g.innerDepth b.innerDepth)
  | .vector x y z => 1 + max x.innerDepth (max y.innerDepth z.innerDepth)
  | .texture path => 1 + path.innerDepth
  | .solid _ args => 1 + innerDepths args
  | .paren inner => 1 + inner.innerDepth
  | .negate operand => operand.innerDepth
  | .binary left _ right => max left.innerDepth right.innerDepth

/-- The most levels inside any of some expressions. -/
def innerDepths : List Expr → Nat
  | [] => 0
  | e :: es => max e.innerDepth (innerDepths es)

end

/-- The levels of an expression. -/
def depth (e : Expr) : Nat := 1 + e.innerDepth

/-- The levels of an argument list. -/
def argumentDepth (args : List Expr) : Nat := 1 + innerDepths args

/-- The levels of a condition.  The two sides of a comparison are expressions of their own. -/
def conditionDepth : Expr → Nat
  | .binary left op right =>
    if op.isComparison then max left.depth right.depth else (Expr.binary left op right).depth
  | e => e.depth

/-! ## Height -/

mutual

/-- The number of nodes on the longest way down. -/
def height : Expr → Nat
  | .number _ | .color _ | .text _ | .identifier _ => 1
  | .rgb r g b => 1 + max r.height (max g.height b.height)
  | .vector x y z => 1 + max x.height (max y.height z.height)
  | .texture path => 1 + path.height
  | .solid _ args => 1 + heights args
  | .paren inner => 1 + inner.height
  | .negate operand => 1 + operand.height
  | .binary left _ right => 1 + max left.height right.height

/-- The height of the highest of some expressions. -/
def heights : List Expr → Nat
  | [] => 0
  | e :: es => max e.height (heights es)

end

end Expr

namespace Statement

mutual

/-- The levels of a statement. -/
def depth : Statement → Nat
  | .assignment _ _ value => 1 + value.depth
  | .transformation _ x y z body =>
    1 + max (max x.depth (max y.depth z.depth)) body.depth
  | .definition _ _ body => 1 + bodyDepth body
  | .call _ args => 1 + Expr.argumentDepth args
  | .conditional condition body => 1 + max condition.conditionDepth (bodyDepth body)
  | .loop condition body => 1 + max condition.conditionDepth (bodyDepth body)
  | .block body => 1 + bodyDepth body
  | .command _ args => 1 + Expr.argumentDepth args
  | .light args => 1 + Expr.argumentDepth args
  | .camera value => 1 + value.depth

/-- The levels of a body, which is a level even if it is empty. -/
def bodyDepth : List Statement → Nat
  | [] => 1
  | s :: ss => max s.depth (bodyDepth ss)

end

mutual

/-- The number of nodes on the longest way down. -/
def height : Statement → Nat
  | .assignment _ _ value => 1 + value.height
  | .transformation _ x y z body =>
    1 + max (max x.height (max y.height z.height)) body.height
  | .definition _ _ body => 1 + heights body
  | .call _ args => 1 + Expr.heights args
  | .conditional condition body => 1 + max condition.height (heights body)
  | .loop condition body => 1 + max condition.height (heights body)
  | .block body => 1 + heights body
  | .command _ args => 1 + Expr.heights args
  | .light args => 1 + Expr.heights args
  | .camera value => 1 + value.height

/-- The height of the highest of some statements. -/
def heights : List Statement → Nat
  | [] => 0
  | s :: ss => max s.height (heights ss)

end

end Statement

/-- The levels of a program. -/
def Program.depth (p : Program) : Nat := Statement.bodyDepth p.statements

/-- The number of nodes on the longest way down. -/
def Program.height (p : Program) : Nat := 1 + Statement.heights p.statements

end SceneScript
