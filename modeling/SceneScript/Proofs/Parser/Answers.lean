import SceneScript.Proofs.Parser.Assembly

/-!
# The parser with a counter

A parser can count how deep it is instead of having rules for each depth.  The counter goes up where
a statement or an expression is tried whose answer is not in its table, and down again once it is
answered; at the limit the parse ends.  `Answers` is how such a parser answers, with a repetition
that goes on as long as there is a match, and `Tried` is in which states it tries which rule.
-/

namespace SceneScript.Parser

open Rule

variable {α : Type}

/-! ## Tables -/

/-- The answer with the cursor put back to a place if there is no match. -/
def Reply.putBack (c : Cursor) : Reply α → Reply α
  | .unmatched t => .unmatched (t.moveTo c)
  | reply => reply

/-- A remembered answer, given in a state. -/
def Reply.recalled (s : State) : Option (α × Cursor) → Reply α
  | some (value, c) => .matched value (s.moveTo c)
  | none => .unmatched s

/-- An answer that was found at a place, put in its table. -/
def Nested.kept (kind : Nested α) (place : Nat) : Reply α → Reply α
  | .matched value t => .matched value (kind.change (·.insert place (some (value, t.cursor))) t)
  | .unmatched t => .unmatched (kind.change (·.insert place none) t)
  | .aborted a => .aborted a

/-- What the table has for the place at which the rule is tried, which is behind trivia. -/
def Nested.lookup (kind : Nested α) (s : State) : Option (Option (α × Cursor)) :=
  (kind.table s)[s.cursor.afterTrivia.pos]?

/-- The state in which a nested rule starts. -/
def State.settle (s : State) : State := s.moveTo s.cursor.afterTrivia

/-! ## Answers -/

/-- With the counter at a depth and in a state, the rule answers so and leaves the counter at
another depth. -/
inductive Assembly.Answers : {α : Type} → {x : Level → Rule α} → Assembly x → Nat → State →
    Reply α → Nat → Prop
  | plain {α : Type} {x : Rule α} [Plain x] {n : Nat} {s : State} :
      Answers (.plain (x := x)) n s (x s) n
  | known {α : Type} {kind : Nested α} {answer : Option (α × Cursor)} {n : Nat} {s : State} :
      kind.lookup s = some answer → Answers (.nested kind) n s (.recalled s.settle answer) n
  | tooDeep {α : Type} {kind : Nested α} {n : Nat} {s : State} :
      kind.lookup s = none → nestingLimit ≤ n →
      Answers (.nested kind) n s (.aborted (.tooDeep s.settle.cursor)) n
  | entered {α : Type} {kind : Nested α} {n m : Nat} {s : State} {reply : Reply α} :
      kind.lookup s = none → n < nestingLimit → Answers kind.assembly (n + 1) s.settle reply m →
      Answers (.nested kind) n s (kind.kept s.settle.cursor.pos reply) (m - 1)
  | afterTrivia {α : Type} {x : Level → Rule α} {rule : Assembly x} {n m : Nat} {s : State}
      {reply : Reply α} :
      Answers rule n s.settle reply m → Answers (.afterTrivia rule) n s reply m
  | bindMatched {α β : Type} {x : Level → Rule α} {f : Level → α → Rule β} {first : Assembly x}
      {second : ∀ v, Assembly fun inside => f inside v} {n m k : Nat} {s t : State} {v : α}
      {reply : Reply β} :
      Answers first n s (.matched v t) m → Answers (second v) m t reply k →
      Answers (.bind first second) n s reply k
  | bindUnmatched {α β : Type} {x : Level → Rule α} {f : Level → α → Rule β} {first : Assembly x}
      {second : ∀ v, Assembly fun inside => f inside v} {n m : Nat} {s t : State} :
      Answers first n s (.unmatched t) m → Answers (.bind first second) n s (.unmatched t) m
  | bindAborted {α β : Type} {x : Level → Rule α} {f : Level → α → Rule β} {first : Assembly x}
      {second : ∀ v, Assembly fun inside => f inside v} {n m : Nat} {s : State} {a : Abort} :
      Answers first n s (.aborted a) m → Answers (.bind first second) n s (.aborted a) m
  | attempt {α : Type} {x : Level → Rule α} {rule : Assembly x} {n m : Nat} {s : State}
      {reply : Reply α} :
      Answers rule n s reply m → Answers (.attempt rule) n s (reply.putBack s.cursor) m
  | preferred {α : Type} {x y : Level → Rule α} {first : Assembly x} {second : Assembly y}
      {n m : Nat} {s t : State} {v : α} :
      Answers first n s (.matched v t) m → Answers (.orElse first second) n s (.matched v t) m
  | other {α : Type} {x y : Level → Rule α} {first : Assembly x} {second : Assembly y}
      {n m k : Nat} {s t : State} {reply : Reply α} :
      Answers first n s (.unmatched t) m → Answers second m (t.moveTo s.cursor) reply k →
      Answers (.orElse first second) n s reply k
  | orElseAborted {α : Type} {x y : Level → Rule α} {first : Assembly x} {second : Assembly y}
      {n m : Nat} {s : State} {a : Abort} :
      Answers first n s (.aborted a) m → Answers (.orElse first second) n s (.aborted a) m
  | yes {α : Type} {step : Cursor → Option Cursor} [Plain (move step)] {x y : Level → Rule α}
      {yes : Assembly x} {no : Assembly y} {n m : Nat} {s : State} {c : Cursor} {reply : Reply α} :
      step s.cursor = some c → Answers yes n (s.moveTo c) reply m →
      Answers (.branch step yes no) n s reply m
  | no {α : Type} {step : Cursor → Option Cursor} [Plain (move step)] {x y : Level → Rule α}
      {yes : Assembly x} {no : Assembly y} {n m : Nat} {s : State} {reply : Reply α} :
      step s.cursor = none → Answers no n s reply m → Answers (.branch step yes no) n s reply m
  | manyMatched {α : Type} {x : Level → Rule α} {rule : Assembly x} {n m k : Nat} {s t : State}
      {v : α} {reply : Reply (List α)} :
      Answers rule n s (.matched v t) m → Answers (.many rule) m t reply k →
      Answers (.many rule) n s (reply.map (v :: ·)) k
  | manyUnmatched {α : Type} {x : Level → Rule α} {rule : Assembly x} {n m : Nat} {s t : State} :
      Answers rule n s (.unmatched t) m → Answers (.many rule) n s (.matched [] t) m
  | manyAborted {α : Type} {x : Level → Rule α} {rule : Assembly x} {n m : Nat} {s : State}
      {a : Abort} :
      Answers rule n s (.aborted a) m → Answers (.many rule) n s (.aborted a) m

/-! ## What is tried -/

/-- While a source is parsed, the rule is tried with the counter at a depth and in a state. -/
inductive Tried (source : String) : {α : Type} → {x : Level → Rule α} → Assembly x → Nat → State →
    Prop
  | program : Tried source (.many .statement) 0 (State.start source)
  | entered {α : Type} {kind : Nested α} {n : Nat} {s : State} :
      Tried source (.nested kind) n s → kind.lookup s = none → n < nestingLimit →
      Tried source kind.assembly (n + 1) s.settle
  | afterTrivia {α : Type} {x : Level → Rule α} {rule : Assembly x} {n : Nat} {s : State} :
      Tried source (.afterTrivia rule) n s → Tried source rule n s.settle
  | first {α β : Type} {x : Level → Rule α} {f : Level → α → Rule β} {first : Assembly x}
      {second : ∀ v, Assembly fun inside => f inside v} {n : Nat} {s : State} :
      Tried source (.bind first second) n s → Tried source first n s
  | second {α β : Type} {x : Level → Rule α} {f : Level → α → Rule β} {first : Assembly x}
      {second : ∀ v, Assembly fun inside => f inside v} {n m : Nat} {s t : State} {v : α} :
      Tried source (.bind first second) n s → first.Answers n s (.matched v t) m →
      Tried source (second v) m t
  | attempt {α : Type} {x : Level → Rule α} {rule : Assembly x} {n : Nat} {s : State} :
      Tried source (.attempt rule) n s → Tried source rule n s
  | preferred {α : Type} {x y : Level → Rule α} {first : Assembly x} {second : Assembly y} {n : Nat}
      {s : State} :
      Tried source (.orElse first second) n s → Tried source first n s
  | other {α : Type} {x y : Level → Rule α} {first : Assembly x} {second : Assembly y} {n m : Nat}
      {s t : State} :
      Tried source (.orElse first second) n s → first.Answers n s (.unmatched t) m →
      Tried source second m (t.moveTo s.cursor)
  | yes {α : Type} {step : Cursor → Option Cursor} [Plain (move step)] {x y : Level → Rule α}
      {yes : Assembly x} {no : Assembly y} {n : Nat} {s : State} {c : Cursor} :
      Tried source (.branch step yes no) n s → step s.cursor = some c →
      Tried source yes n (s.moveTo c)
  | no {α : Type} {step : Cursor → Option Cursor} [Plain (move step)] {x y : Level → Rule α}
      {yes : Assembly x} {no : Assembly y} {n : Nat} {s : State} :
      Tried source (.branch step yes no) n s → step s.cursor = none → Tried source no n s
  | once {α : Type} {x : Level → Rule α} {rule : Assembly x} {n : Nat} {s : State} :
      Tried source (.many rule) n s → Tried source rule n s
  | again {α : Type} {x : Level → Rule α} {rule : Assembly x} {n m : Nat} {s t : State} {v : α} :
      Tried source (.many rule) n s → rule.Answers n s (.matched v t) m →
      Tried source (.many rule) m t

end SceneScript.Parser
