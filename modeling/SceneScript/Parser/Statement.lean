import SceneScript.Parser.Expression

/-!
# Rules for statements

Each rule takes the rules for the statements and expressions inside as arguments.
-/

namespace SceneScript.Parser

open Rule

/-! ## Statements that start with a keyword -/

/-- Where the camera is. -/
def camera (expression : Rule Expr) : Rule Statement := do
  keyword "set"
  dueKeyword "camera"
  dueSymbol "("
  let view ← expression
  dueSymbol ")"
  return .camera view

/-- A light is added. -/
def light (expression : Rule Expr) : Rule Statement := do
  keyword "append"
  dueKeyword "light"
  let args ← arguments expression
  return .light args

/-- Statements between `do` and `end`. -/
def block (statement : Rule Statement) : Rule Statement := do
  let opened ← opening "do"
  let body ← many statement
  closing "do" opened
  return .block body

/-- Statements that are carried out if a condition holds. -/
def conditional (statement : Rule Statement) (expression : Rule Expr) : Rule Statement := do
  let opened ← opening "if"
  let test ← condition expression
  dueKeyword "then"
  let body ← many statement
  closing "if" opened
  return .conditional test body

/-- Statements that are carried out as long as a condition holds. -/
def loop (statement : Rule Statement) (expression : Rule Expr) : Rule Statement := do
  let opened ← opening "while"
  let test ← condition expression
  dueKeyword "do"
  let body ← many statement
  closing "while" opened
  return .loop test body

/-- A function is called. -/
def call (expression : Rule Expr) : Rule Statement := do
  keyword "call"
  let name ← dueName .functionName
  let args ← arguments expression
  return .call name args

/-- A parameter with perhaps a comma after it. -/
def parameter : Rule String := do
  let name ← dueName .parameterName
  optionally (symbol ",")
  return name

/-- A function with its parameters and its statements. -/
def definition (statement : Rule Statement) : Rule Statement := do
  let opened ← opening "function"
  let name ← dueName .functionName
  dueSymbol "("
  let params ← many parameter
  dueSymbol ")"
  let body ← many statement
  closing "function" opened
  return .definition name params body

/-- A command with its arguments. -/
def command (expression : Rule Expr) : Rule Statement := do
  let name ← oneOf Command.all Command.text
  let args ← arguments expression
  return .command name args

/-- A statement under a change of place, size or direction. -/
def transformation (statement : Rule Statement) (expression : Rule Expr) : Rule Statement := do
  let kind ← oneOf Transform.all Transform.text
  dueSymbol "("
  let (x, y, z) ← triple expression ")"
  let body ← statement
  return .transformation kind x y z body

/-! ## Assignments -/

/-- No name stands where an assignment has one; the `local` before it, if there is one, is at the
place given.  A reserved word that is assigned to cannot be the start of anything else. -/
def unnamed (localPlace : Option Cursor) : Rule String := fun s =>
  let c := s.cursor
  match c.word?, localPlace with
  | some word, some _ => .aborted (.reservedWord c word)
  | some word, none =>
    if ((c.afterWord word).afterTrivia.afterSymbol? "=").isSome then .aborted (.reservedWord c word)
    else .unmatched s
  | none, some place =>
    if (c.afterSymbol? "=").isSome then .aborted (.reservedWord place "local")
    else unmet .identifier s
  | none, none => .unmatched s

/-- The place of a `local`, if one stands here. -/
def localKeyword : Rule (Option Cursor) :=
  (do return some (← opening "local")).orElse (return none)

/-- What is assigned to, whether it is local, and the `=` behind it. -/
def assignee : Rule (Bool × String) := do
  let localPlace ← localKeyword
  trivia
  let target ← name.orElse (unnamed localPlace)
  dueSymbol "="
  return (localPlace.isSome, target)

/-- A variable is given a value, perhaps a local one. -/
def assignment (expression : Rule Expr) : Rule Statement := do
  let (isLocal, target) ← assignee
  let assigned ← expression
  return .assignment isLocal target assigned

/-! ## All statements -/

/-- A statement.  `append light` comes before `append`, and blocks come before assignments, so
that `do = 1` assigns to a variable only because no block is found. -/
def anyStatement (statement : Rule Statement) (expression : Rule Expr) : Rule Statement :=
  firstOf
    [camera expression, light expression, block statement,
     conditional statement expression, loop statement expression, call expression,
     definition statement, command expression, assignment expression,
     transformation statement expression, unmet .statement]

end SceneScript.Parser
