import Std.Data.TreeMap
import SceneScript.Parser.Farthest
import SceneScript.Program

/-!
# Rules

A rule of the parser works on a state: a cursor, the farthest failure, and tables of the answers
found before.  It matches and yields a value, or it does not match and the caller may try something
else, or it aborts the parse.  A rule that does not match still leaves its mark on the failure and
the tables, and leaves the cursor wherever it got to; `attempt` puts the cursor back.

All rules are put together from the few in this module.
-/

namespace SceneScript.Parser

/-- Answers by the byte offset at which a rule was tried: what it matched and where that ends, or
that it did not match. -/
abbrev Memo (α : Type) := Std.TreeMap Nat (Option (α × Cursor))

/-- How far parsing has come, and what it has learned on the way. -/
structure State where
  cursor : Cursor
  farthest : Farthest
  statements : Memo Statement
  expressions : Memo Expr

/-- What ends a parse at once. -/
inductive Abort where
  | tooDeep (place : Cursor)
  | reservedWord (place : Cursor) (word : String)

/-- The answer of a rule. -/
inductive Reply (α : Type) where
  | matched (value : α) (state : State)
  | unmatched (state : State)
  | aborted (abort : Abort)

/-- The reply with its result changed. -/
def Reply.map {α β : Type} (f : α → β) : Reply α → Reply β
  | .matched value s => .matched (f value) s
  | .unmatched s => .unmatched s
  | .aborted a => .aborted a

namespace State

/-- The state before a source is parsed. -/
def start (source : String) : State :=
  ⟨Cursor.start source, Farthest.start (Cursor.start source), {}, {}⟩

/-- The state at another place. -/
def moveTo (s : State) (c : Cursor) : State := { s with cursor := c }

/-- Something could have stood here. -/
def expect (s : State) (e : Expectation) : State :=
  { s with farthest := s.farthest.expect s.cursor e }

/-- There is a reason for a failure here. -/
def blame (s : State) (reason : Reason) : State :=
  { s with farthest := s.farthest.blame s.cursor reason }

end State

/-- A way to read something, from a state. -/
def Rule (α : Type) := State → Reply α

namespace Rule

variable {α β : Type}

/-! ## Sequence -/

/-- Matches nothing and yields a value. -/
def succeed (value : α) : Rule α := fun s => .matched value s

/-- One rule after the other. -/
def andThen (first : Rule α) (second : α → Rule β) : Rule β := fun s =>
  match first s with
  | .matched value s => second value s
  | .unmatched s => .unmatched s
  | .aborted a => .aborted a

instance : Monad Rule where
  pure := succeed
  bind := andThen

/-- Ends the parse. -/
def stop (why : Cursor → Abort) : Rule α := fun s => .aborted (why s.cursor)

/-- The place of the cursor. -/
def here : Rule Cursor := fun s => .matched s.cursor s

/-- Blanks and comments, or nothing. -/
def trivia : Rule Unit := fun s => .matched () (s.moveTo s.cursor.afterTrivia)

/-! ## Choice -/

/-- The rule, with the cursor put back if it does not match. -/
def attempt (rule : Rule α) : Rule α := fun s =>
  match rule s with
  | .unmatched t => .unmatched (t.moveTo s.cursor)
  | reply => reply

/-- The second rule if the first does not match. -/
def orElse (first second : Rule α) : Rule α := fun s =>
  match first.attempt s with
  | .unmatched t => second t
  | reply => reply

/-- The first rule that matches. -/
def firstOf : List (Rule α) → Rule α
  | [] => fun s => .unmatched s
  | rule :: rules => rule.orElse (firstOf rules)

/-- Does not match, and notes what could have stood here. -/
def unmet (e : Expectation) : Rule α := fun s => .unmatched (s.expect e)

/-- A rule whose failure to match is no failure. -/
def optionally (rule : Rule Unit) : Rule Unit := fun s =>
  match rule s with
  | .unmatched s => .matched () s
  | reply => reply

/-! ## Repetition -/

/-- The rule as often as it matches.  A match that does not move the cursor on is the last one. -/
def many (rule : Rule α) (s : State) : Reply (List α) :=
  match rule s with
  | .matched value t =>
    if t.cursor.rest.length < s.cursor.rest.length then (many rule t).map (value :: ·)
    else .matched [value] t
  | .unmatched t => .matched [] t
  | .aborted a => .aborted a
termination_by s.cursor.rest.length

/-! ## Tokens -/

/-- A movement of the cursor. -/
def move (f : Cursor → Option Cursor) : Rule Unit := fun s =>
  match f s.cursor with
  | some c => .matched () (s.moveTo c)
  | none => .unmatched s

/-- A literal.  One that is malformed does not match and is the reason for the failure here. -/
def literal (scan : Cursor → Except LexicalError (Option (α × Cursor))) : Rule α := fun s =>
  match scan s.cursor with
  | .ok (some (value, c)) => .matched value (s.moveTo c)
  | .ok none => .unmatched s
  | .error e => .unmatched (s.blame (.lexical e))

/-- A word that is not reserved. -/
def name : Rule String := fun s =>
  match s.cursor.name? with
  | some (word, c) => .matched word (s.moveTo c)
  | none => .unmatched s

/-- A symbol, as one way among others to go on. -/
def symbol (text : String) : Rule Unit := do
  trivia
  move (Cursor.afterSymbol? text)

/-- A keyword, as one way among others to go on. -/
def keyword (word : String) : Rule Unit := do
  trivia
  move (Cursor.afterKeyword? word)

/-- A symbol that is due. -/
def dueSymbol (text : String) : Rule Unit := do
  trivia
  (move (Cursor.afterSymbol? text)).orElse (unmet (.literal text))

/-- A keyword that is due. -/
def dueKeyword (word : String) : Rule Unit := do
  trivia
  (move (Cursor.afterKeyword? word)).orElse (unmet (.literal word))

/-- One of some keywords. -/
def oneOf (choices : List α) (word : α → String) : Rule α :=
  firstOf (choices.map fun choice => do keyword (word choice); return choice)

/-- A name that is due.  A reserved word instead of it ends the parse. -/
def dueName (what : Expectation) : Rule String := do
  trivia
  name.orElse fun s =>
    match s.cursor.word? with
    | some word => .aborted (.reservedWord s.cursor word)
    | none => unmet what s

/-- The keyword that opens a block, with the place where it stands. -/
def opening (word : String) : Rule Cursor := do
  trivia
  let place ← here
  move (Cursor.afterKeyword? word)
  return place

/-- The `end` of a block that was opened with a keyword at a place. -/
def closing (word : String) (opened : Cursor) : Rule Unit := do
  trivia
  (move (Cursor.afterKeyword? "end")).orElse fun s =>
    .unmatched ((s.expect (.literal "end")).blame (.unclosed word opened))

end Rule

end SceneScript.Parser
