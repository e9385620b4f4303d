import SceneScript.Cursor.Literal
import SceneScript.Parser.Rule

/-!
# Rules for expressions

Each rule takes the rule for the expressions inside as an argument.  An expression is a sum of
products of values with perhaps a minus; a comparison stands only in a condition.
-/

namespace SceneScript.Parser

open Rule

/-! ## Lists of expressions -/

/-- An expression with perhaps a comma after it. -/
def argument (expression : Rule Expr) : Rule Expr := do
  let arg ← expression
  optionally (symbol ",")
  return arg

/-- Expressions in parentheses, with or without commas between them. -/
def arguments (expression : Rule Expr) : Rule (List Expr) := do
  dueSymbol "("
  let args ← many (argument expression)
  dueSymbol ")"
  return args

/-- Three expressions with commas between them, up to a closing symbol. -/
def triple (expression : Rule Expr) (close : String) : Rule (Expr × Expr × Expr) := do
  let first ← expression
  dueSymbol ","
  let second ← expression
  dueSymbol ","
  let third ← expression
  dueSymbol close
  return (first, second, third)

/-! ## Values -/

/-- A number. -/
def number : Rule Expr := do
  return .number (← literal Cursor.number?)

/-- The name of a color. -/
def color : Rule Expr := do
  return .color (← oneOf Color.all Color.text)

/-- Without its parenthesis the word is a name. -/
def rgb (expression : Rule Expr) : Rule Expr := do
  keyword "rgb"
  symbol "("
  let (r, g, b) ← triple expression ")"
  return .rgb r g b

/-- Three expressions between angle brackets. -/
def vector (expression : Rule Expr) : Rule Expr := do
  symbol "<"
  let (x, y, z) ← triple expression ">"
  return .vector x y z

/-- Without its parenthesis the word is a name. -/
def texture (expression : Rule Expr) : Rule Expr := do
  keyword "texture"
  symbol "("
  let path ← expression
  dueSymbol ")"
  return .texture path

/-- An expression in parentheses. -/
def paren (expression : Rule Expr) : Rule Expr := do
  symbol "("
  let inner ← expression
  dueSymbol ")"
  return .paren inner

/-- A solid with its arguments. -/
def solid (expression : Rule Expr) : Rule Expr := do
  let kind ← oneOf Solid.all Solid.text
  let args ← arguments expression
  return .solid kind args

/-- A text in quotes. -/
def text : Rule Expr := do
  return .text (← literal Cursor.text?)

/-- The name of a variable. -/
def identifier : Rule Expr := do
  return .identifier (← name)

/-- A value.  A name comes last, so that `red` is a color. -/
def value (expression : Rule Expr) : Rule Expr := do
  trivia
  firstOf
    [number, color, rgb expression, vector expression, texture expression, paren expression,
     solid expression, text, identifier, unmet .value]

/-! ## Operators -/

/-- A value with perhaps a minus before it. -/
def signed (expression : Rule Expr) : Rule Expr := do
  trivia
  attempt fun s =>
    match move (Cursor.afterSymbol? "-") s with
    | .matched _ s => (do return .negate (← value expression) : Rule Expr) s
    | .unmatched s => value expression s
    | .aborted a => .aborted a

/-- One of some operators. -/
def operator (operators : List Operator) : Rule Operator := do
  trivia
  firstOf (operators.map fun op => do move (Cursor.afterSymbol? op.symbol); return op)

/-- An operator and the operand behind it. -/
def operation (operators : List Operator) (operand : Rule Expr) : Rule (Operator × Expr) := do
  let op ← operator operators
  let right ← operand
  return (op, right)

/-- Operands with operators between them, grouped from the left.  An operator without an operand
behind it is not part of the chain. -/
def chain (operators : List Operator) (operand : Rule Expr) : Rule Expr := do
  let first ← operand
  let more ← many (attempt (operation operators operand))
  return more.foldl (fun left (op, right) => .binary left op right) first

/-- Values with `*`, `/` and `%` between them. -/
def product (expression : Rule Expr) : Rule Expr :=
  chain [.multiply, .divide, .modulo] (signed expression)

/-- Products with `+` and `-` between them. -/
def sum (expression : Rule Expr) : Rule Expr :=
  chain [.add, .subtract] (product expression)

/-- An expression, perhaps compared with another one. -/
def condition (expression : Rule Expr) : Rule Expr := do
  let left ← expression
  orElse
    (do
      let op ← operator [.lessThan, .greaterThan]
      let right ← expression
      return .binary left op right)
    (return left)

end SceneScript.Parser
