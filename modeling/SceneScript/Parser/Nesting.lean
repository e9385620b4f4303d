import SceneScript.Parser.Statement

/-!
# Nesting and remembered answers

The rules for statements and expressions one level further in are those of the level above, made
with fewer levels to go; at the last level the parse ends.  Both kinds of rule may remember their
answers by the place where they were tried.  A remembered answer is given at any level.
-/

namespace SceneScript.Parser

open Rule

/-- How the two kinds of rule remember their answers. -/
structure Memory where
  statement : Rule Statement → Rule Statement
  expression : Rule Expr → Rule Expr

/-- The rule, with its answer looked up in a table of the state and put there. -/
def remember {α : Type} (look : State → Memo α) (change : (Memo α → Memo α) → State → State)
    (rule : Rule α) : Rule α := fun s =>
  let place := s.cursor.pos
  match (look s)[place]? with
  | some (some (value, c)) => .matched value (s.moveTo c)
  | some none => .unmatched s
  | none =>
    match rule s with
    | .matched value t =>
      .matched value (change (·.insert place (some (value, t.cursor))) t)
    | .unmatched t => .unmatched (change (·.insert place none) t)
    | .aborted a => .aborted a

namespace Memory

/-- Answers are kept in the tables of the state. -/
def tables : Memory where
  statement := remember (·.statements) fun f s => { s with statements := f s.statements }
  expression := remember (·.expressions) fun f s => { s with expressions := f s.expressions }

/-- Nothing is remembered. -/
def nothing : Memory where
  statement rule := rule
  expression rule := rule

end Memory

/-- The two rules that contain one another. -/
structure Level where
  statement : Rule Statement
  expression : Rule Expr

/-- The rules with so many levels to go. -/
def level (memory : Memory) : Nat → Level
  | 0 => {
      statement := do trivia; memory.statement (stop .tooDeep)
      expression := do trivia; memory.expression (stop .tooDeep) }
  | levels + 1 =>
    let inside := level memory levels
    { statement := do
        trivia
        memory.statement (anyStatement inside.statement inside.expression)
      expression := do
        trivia
        memory.expression (sum inside.expression) }

/-- Statements and expressions may be nested so deep, counted together. -/
def nestingLimit : Nat := 100

end SceneScript.Parser
