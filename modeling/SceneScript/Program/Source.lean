import SceneScript.Number.Layout
import SceneScript.Program

/-!
# Canonical source

The form in which a program is written back: one statement to a line, the lines of a block four
spaces further in, and parentheses only where the tree has them or where the binding of operators
asks for them.
-/

namespace SceneScript

/-! ## Expressions -/

/-- A number that is written as it is.  One below zero, which no literal stands for, is written
as a negation. -/
def Binary64.isLiteral (x : Binary64) : Bool := !(x.isNegative && !x.isZero)

/-- A number as source. -/
def Binary64.source (x : Binary64) : String :=
  if x.isLiteral then Layout.source.number x else "(-" ++ Layout.source.number x.negate ++ ")"

namespace Expr

/-- The expression needs parentheses as an operand of an operator of the given precedence.  An
operator as strong as that one may stand on its left, unless both are comparisons, which do not
chain. -/
def needsParens (parent : Nat) (isRight : Bool) : Expr → Bool
  | .binary _ op _ =>
    op.precedence < parent || (op.precedence == parent && (isRight || op.isComparison))
  | _ => false

/-- The expression needs parentheses after a minus. -/
def needsParensNegated : Expr → Bool
  | .negate _ | .binary .. => true
  | .number value => !value.isLiteral
  | _ => false

/-- A text in parentheses, if they are wanted. -/
def parenthesized (wanted : Bool) (text : String) : String :=
  if wanted then "(" ++ text ++ ")" else text

mutual

/-- The expression as source. -/
def source : Expr → String
  | .number value => value.source
  | .color name => name.text
  | .rgb r g b => "rgb(" ++ ", ".intercalate [r.source, g.source, b.source] ++ ")"
  | .vector x y z => "<" ++ ", ".intercalate [x.source, y.source, z.source] ++ ">"
  | .texture path => "texture(" ++ path.source ++ ")"
  | .solid kind args => kind.text ++ "(" ++ ", ".intercalate (sources args) ++ ")"
  | .paren inner => "(" ++ inner.source ++ ")"
  | .text value => if value.toList.contains '\'' then "\"" ++ value ++ "\"" else "'" ++ value ++ "'"
  | .identifier name => name
  | .negate operand => "-" ++ parenthesized operand.needsParensNegated operand.source
  | .binary left op right =>
    parenthesized (left.needsParens op.precedence false) left.source ++ " " ++ op.symbol ++ " "
      ++ parenthesized (right.needsParens op.precedence true) right.source

/-- The sources of some expressions. -/
def sources : List Expr → List String
  | [] => []
  | e :: es => e.source :: sources es

end

/-- An argument list with its parentheses. -/
def argumentSource (args : List Expr) : String := "(" ++ ", ".intercalate (sources args) ++ ")"

end Expr

/-! ## Statements -/

namespace Statement

/-- The start of a line so many blocks deep. -/
def indent (depth : Nat) : String := String.ofList (List.replicate (4 * depth) ' ')

mutual

/-- The statement as source, without the indentation of its first line. -/
def sourceAt (depth : Nat) : Statement → String
  | .assignment isLocal name value =>
    (if isLocal then "local " else "") ++ name ++ " = " ++ value.source
  | .transformation kind x y z body =>
    kind.text ++ Expr.argumentSource [x, y, z] ++ " " ++ body.sourceAt depth
  | .definition name params body =>
    "function " ++ name ++ "(" ++ ", ".intercalate params ++ ")\n" ++ bodySource depth body
  | .call name args => "call " ++ name ++ Expr.argumentSource args
  | .conditional condition body => "if " ++ condition.source ++ " then\n" ++ bodySource depth body
  | .loop condition body => "while " ++ condition.source ++ " do\n" ++ bodySource depth body
  | .block body => "do\n" ++ bodySource depth body
  | .command name args => name.text ++ Expr.argumentSource args
  | .light args => "append light" ++ Expr.argumentSource args
  | .camera value => "set camera(" ++ value.source ++ ")"

/-- The lines of a block one level further in, and the `end` that closes it. -/
def bodySource (depth : Nat) : List Statement → String
  | [] => indent depth ++ "end"
  | s :: ss => indent (depth + 1) ++ s.sourceAt (depth + 1) ++ "\n" ++ bodySource depth ss

end

/-- The statement as source. -/
def source (s : Statement) : String := s.sourceAt 0

end Statement

/-- The program as source, each statement on lines of its own. -/
def Program.source (p : Program) : String :=
  String.join (p.statements.map fun s => s.source ++ "\n")

end SceneScript
