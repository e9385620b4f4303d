import SceneScript.Program

/-!
# Normal forms

Two programs that differ only in grouping parentheses, or in how a number below zero is put, mean
the same.  The normal form has no parentheses and puts such a number as a minus before a number.
-/

namespace SceneScript

/-- A number without a sign, or a minus before one. -/
def Binary64.normal (x : Binary64) : Expr :=
  if x.isNegative then .negate (.number x.negate) else .number x

namespace Expr

mutual

/-- The expression without parentheses and without signs in its numbers. -/
def normal : Expr → Expr
  | .number value => value.normal
  | .color name => .color name
  | .rgb r g b => .rgb r.normal g.normal b.normal
  | .vector x y z => .vector x.normal y.normal z.normal
  | .texture path => .texture path.normal
  | .solid kind args => .solid kind (normals args)
  | .paren inner => inner.normal
  | .text value => .text value
  | .identifier name => .identifier name
  | .negate operand => .negate operand.normal
  | .binary left op right => .binary left.normal op right.normal

/-- The normal forms of some expressions. -/
def normals : List Expr → List Expr
  | [] => []
  | e :: es => e.normal :: normals es

end

/-- The number that an expression is, if it is one: a number, perhaps with signs and parentheses
around it. -/
def signedNumber? : Expr → Option Binary64
  | .number value => some value
  | .paren inner => inner.signedNumber?
  | .negate operand => operand.signedNumber?.map Binary64.negate
  | _ => none

end Expr

namespace Statement

mutual

/-- The statement with its expressions in normal form. -/
def normal : Statement → Statement
  | .assignment isLocal name value => .assignment isLocal name value.normal
  | .transformation kind x y z body =>
    .transformation kind x.normal y.normal z.normal body.normal
  | .definition name params body => .definition name params (normals body)
  | .call name args => .call name (Expr.normals args)
  | .conditional condition body => .conditional condition.normal (normals body)
  | .loop condition body => .loop condition.normal (normals body)
  | .block body => .block (normals body)
  | .command name args => .command name (Expr.normals args)
  | .light args => .light (Expr.normals args)
  | .camera value => .camera value.normal

/-- The normal forms of some statements. -/
def normals : List Statement → List Statement
  | [] => []
  | s :: ss => s.normal :: normals ss

end

end Statement

/-- The program with its expressions in normal form. -/
def Program.normal (p : Program) : Program := ⟨Statement.normals p.statements⟩

end SceneScript
