import SceneScript.Proofs.Parser.ExpressionSound
import SceneScript.Proofs.Parser.Plain
import SceneScript.Proofs.Parser.StatementSound

/-!
# How the rules are put together

A rule of the grammar is made from plain rules and from the two rules that contain one another, by
sequence, choice and repetition.  An `Assembly` of a rule says how.  What is done while a rule is
tried can then be followed step by step, and what holds of all rules is proved for each way to put
rules together.
-/

namespace SceneScript.Parser

open Rule

variable {α β : Type}

/-! ## Assemblies -/

/-- The two rules that contain one another, and so are nested. -/
inductive Nested : Type → Type
  | statement : Nested Statement
  | expression : Nested Expr

namespace Nested

/-- The rule for what is inside. -/
def rule : Nested α → Level → Rule α
  | statement => Level.statement
  | expression => Level.expression

/-- The table of its answers. -/
def table : Nested α → State → Memo α
  | statement => State.statements
  | expression => State.expressions

/-- The state with one of its tables changed. -/
def change : Nested α → (Memo α → Memo α) → State → State
  | statement => fun f s => { s with statements := f s.statements }
  | expression => fun f s => { s with expressions := f s.expressions }

/-- What is tried where there is no answer in the table. -/
def alternatives : Nested α → Level → Rule α
  | statement => fun inside => anyStatement inside.statement inside.expression
  | expression => fun inside => sum inside.expression

end Nested

/-- How a rule is put together, whatever the rules for what is inside. -/
inductive Assembly : {α : Type} → (Level → Rule α) → Type 1
  | plain {α : Type} {x : Rule α} [Plain x] : Assembly fun _ => x
  | nested {α : Type} (kind : Nested α) : Assembly kind.rule
  | afterTrivia {α : Type} {x : Level → Rule α} (rule : Assembly x) :
      Assembly fun inside => do trivia; x inside
  | bind {α β : Type} {x : Level → Rule α} {f : Level → α → Rule β} (first : Assembly x)
      (second : ∀ v, Assembly fun inside => f inside v) :
      Assembly fun inside => x inside >>= f inside
  | attempt {α : Type} {x : Level → Rule α} (rule : Assembly x) :
      Assembly fun inside => Rule.attempt (x inside)
  | orElse {α : Type} {x y : Level → Rule α} (first : Assembly x) (second : Assembly y) :
      Assembly fun inside => (x inside).orElse (y inside)
  /-- It depends on a movement how to go on, and the movement is not taken back. -/
  | branch {α : Type} (step : Cursor → Option Cursor) [Plain (move step)] {x y : Level → Rule α}
      (yes : Assembly x) (no : Assembly y) :
      Assembly fun inside s =>
        match move step s with
        | .matched _ t => x inside t
        | .unmatched t => y inside t
        | .aborted a => .aborted a
  | many {α : Type} {x : Level → Rule α} (rule : Assembly x) :
      Assembly fun inside => Rule.many (x inside)

namespace Assembly

/-! ## Assemblies of expressions -/

/-- A statement inside another one. -/
def statement : Assembly Level.statement := .nested .statement

/-- An expression inside a statement or another expression. -/
def expression : Assembly Level.expression := .nested .expression

/-- The parts of an argument. -/
def argument : Assembly fun inside => Parser.argument inside.expression :=
  .bind expression fun _ => .plain

/-- The parts of arguments in their parentheses. -/
def arguments : Assembly fun inside => Parser.arguments inside.expression :=
  .bind .plain fun _ => .bind (.many argument) fun _ => .plain

/-- The parts of three expressions up to a closing symbol. -/
def triple (close : String) : Assembly fun inside => Parser.triple inside.expression close :=
  .bind expression fun _ => .bind .plain fun _ => .bind expression fun _ => .bind .plain fun _ =>
    .bind expression fun _ => .plain

/-- The parts of a color that is mixed. -/
def rgb : Assembly fun inside => Parser.rgb inside.expression :=
  .bind .plain fun _ => .bind .plain fun _ => .bind (triple ")") fun _ => .plain

/-- The parts of a vector. -/
def vector : Assembly fun inside => Parser.vector inside.expression :=
  .bind .plain fun _ => .bind (triple ">") fun _ => .plain

/-- The parts of a texture. -/
def texture : Assembly fun inside => Parser.texture inside.expression :=
  .bind .plain fun _ => .bind .plain fun _ => .bind expression fun _ => .plain

/-- The parts of an expression in parentheses. -/
def paren : Assembly fun inside => Parser.paren inside.expression :=
  .bind .plain fun _ => .bind expression fun _ => .plain

/-- The parts of a solid. -/
def solid : Assembly fun inside => Parser.solid inside.expression :=
  .bind .plain fun _ => .bind arguments fun _ => .plain

/-- The parts of a value. -/
def value : Assembly fun inside => Parser.value inside.expression :=
  .afterTrivia <|
    .orElse (.bind .plain fun _ => .plain) <| .orElse (.bind .plain fun _ => .plain) <|
    .orElse rgb <| .orElse vector <| .orElse texture <| .orElse paren <| .orElse solid <|
    .orElse (.bind .plain fun _ => .plain) <| .orElse (.bind .plain fun _ => .plain) <|
    .orElse .plain .plain

/-- A minus that has no value behind it is put back. -/
def signed : Assembly fun inside => Parser.signed inside.expression :=
  .afterTrivia <| .attempt <| .branch (Cursor.afterSymbol? "-") (.bind value fun _ => .plain) value

/-- The parts of an operator with what follows it. -/
def operation (operators : List Operator) {operand : Level → Rule Expr} (rule : Assembly operand) :
    Assembly fun inside => Parser.operation operators (operand inside) :=
  .bind .plain fun _ => .bind rule fun _ => .plain

/-- The parts of a row of operators. -/
def chain (operators : List Operator) {operand : Level → Rule Expr} (rule : Assembly operand) :
    Assembly fun inside => Parser.chain operators (operand inside) :=
  .bind rule fun _ => .bind (.many (.attempt (operation operators rule))) fun _ => .plain

/-- The parts of a product. -/
def product : Assembly fun inside => Parser.product inside.expression :=
  chain [.multiply, .divide, .modulo] signed

/-- The parts of a sum. -/
def sum : Assembly fun inside => Parser.sum inside.expression :=
  chain [.add, .subtract] product

/-- The parts of a condition. -/
def condition : Assembly fun inside => Parser.condition inside.expression :=
  .bind expression fun _ => .orElse (.bind .plain fun _ => .bind expression fun _ => .plain) .plain

/-! ## Assemblies of statements -/

/-- The parts of a camera. -/
def camera : Assembly fun inside => Parser.camera inside.expression :=
  .bind .plain fun _ => .bind .plain fun _ => .bind .plain fun _ => .bind expression fun _ => .plain

/-- The parts of a light. -/
def light : Assembly fun inside => Parser.light inside.expression :=
  .bind .plain fun _ => .bind .plain fun _ => .bind arguments fun _ => .plain

/-- The parts of a block. -/
def block : Assembly fun inside => Parser.block inside.statement :=
  .bind .plain fun _ => .bind (.many statement) fun _ => .plain

/-- The parts of a conditional. -/
def conditional : Assembly fun inside => Parser.conditional inside.statement inside.expression :=
  .bind .plain fun _ => .bind condition fun _ => .bind .plain fun _ => .bind (.many statement)
    fun _ => .plain

/-- The parts of a loop. -/
def loop : Assembly fun inside => Parser.loop inside.statement inside.expression :=
  .bind .plain fun _ => .bind condition fun _ => .bind .plain fun _ => .bind (.many statement)
    fun _ => .plain

/-- The parts of a call. -/
def call : Assembly fun inside => Parser.call inside.expression :=
  .bind .plain fun _ => .bind .plain fun _ => .bind arguments fun _ => .plain

/-- The parts of a definition. -/
def definition : Assembly fun inside => Parser.definition inside.statement :=
  .bind .plain fun _ => .bind .plain fun _ => .bind .plain fun _ =>
    .bind (.many (.plain (x := parameter))) fun _ => .bind .plain fun _ => .bind (.many statement)
      fun _ => .plain

/-- The parts of a command. -/
def command : Assembly fun inside => Parser.command inside.expression :=
  .bind .plain fun _ => .bind arguments fun _ => .plain

/-- The parts of an assignment. -/
def assignment : Assembly fun inside => Parser.assignment inside.expression :=
  .bind .plain fun _ => .bind expression fun _ => .plain

/-- The parts of a transformation. -/
def transformation :
    Assembly fun inside => Parser.transformation inside.statement inside.expression :=
  .bind .plain fun _ => .bind .plain fun _ => .bind (triple ")") fun _ => .bind statement
    fun _ => .plain

/-- The parts of a statement of any kind. -/
def anyStatement : Assembly fun inside => Parser.anyStatement inside.statement inside.expression :=
  .orElse camera <| .orElse light <| .orElse block <| .orElse conditional <| .orElse loop <|
    .orElse call <| .orElse definition <| .orElse command <| .orElse assignment <|
    .orElse transformation <| .orElse .plain .plain

end Assembly

/-- The parts of what is tried where there is no answer in the table. -/
def Nested.assembly : (kind : Nested α) → Assembly kind.alternatives
  | .statement => .anyStatement
  | .expression => .sum

/-! ## Rules that go on -/

/-- What the rule matches ends behind the first place after trivia. -/
def Rule.Proceeds (x : Rule α) : Prop :=
  ∀ s v t, x s = .matched v t → s.cursor.afterTrivia.pos < t.cursor.pos

variable {s t : State}

/-- What reads some tokens whenever it matches is left further on. -/
theorem proceeds_of_yields {x : Rule α} {P : List Token → α → Prop} (h : Yields x P)
    (hP : ∀ ts v, P ts v → ts ≠ []) : x.Proceeds := by
  intro s v t hm
  obtain ⟨ts, hts, hv⟩ := h s v t hm
  exact hts.pos_lt (hP ts v hv)

theorem proceeds_unmet (e : Expectation) : (unmet e : Rule α).Proceeds := nofun

theorem proceeds_firstOf_nil : (firstOf ([] : List (Rule α))).Proceeds := nofun

theorem proceeds_symbol {symbol : String} {tok : Token} (hs : Cursor.IsSymbol symbol tok) :
    (Rule.symbol symbol).Proceeds :=
  fun _ _ _ hm => (matched_symbol hs hm).pos_lt (List.cons_ne_nil _ _)

theorem proceeds_keyword {word : String} (hw : Cursor.IsWord word) : (keyword word).Proceeds :=
  fun _ _ _ hm => (matched_keyword hw hm).pos_lt (List.cons_ne_nil _ _)

theorem proceeds_opening {word : String} (hw : Cursor.IsWord word) : (opening word).Proceeds :=
  fun _ _ _ hm => (matched_opening hw hm).2.pos_lt (List.cons_ne_nil _ _)

theorem proceeds_oneOf {choices : List α} {word : α → String}
    (hw : ∀ choice ∈ choices, Cursor.IsWord (word choice)) : (oneOf choices word).Proceeds :=
  proceeds_of_yields (yields_oneOf hw) fun _ _ h => h ▸ List.cons_ne_nil _ _

theorem proceeds_operator (operators : List Operator) : (operator operators).Proceeds :=
  proceeds_of_yields (yields_operator operators) fun _ _ h => h.1 ▸ List.cons_ne_nil _ _

theorem proceeds_assignee : assignee.Proceeds :=
  proceeds_of_yields yields_assignee fun _ _ h => h.1 ▸ List.append_ne_nil_of_right_ne_nil _
    (List.cons_ne_nil _ _)

theorem proceeds_parameter : parameter.Proceeds := by
  intro s v t hm
  obtain ⟨word, u, hname, hm⟩ := matched_bind hm
  have hlt := (matched_dueName hname).1.pos_lt (List.cons_ne_nil _ _)
  have hcomma : Plain (do optionally (symbol ","); return word) := inferInstance
  exact Nat.lt_of_lt_of_le hlt (hcomma.matched hm).cursor.pos_le

/-- A token ends behind the first place after trivia if it stands there. -/
theorem pos_lt_of_settled {c d : Cursor} (hc : c.Settled) (h : c.Beyond d) :
    c.afterTrivia.pos < d.pos := by
  rw [hc]
  exact h.pos_lt

theorem proceeds_number : (literal Cursor.number?).Proceeds := by
  intro s v t hm
  have hscan := matched_literal hm
  obtain ⟨x, rest, hrest, hdigit⟩ := Cursor.rest_eq_cons_of_number? hscan
  exact pos_lt_of_settled (Cursor.settled_of_isWordChar hrest (isWordChar_of_isDigit hdigit))
    (Cursor.beyond_of_token? (Cursor.token?_of_number? hscan))

theorem proceeds_text : (literal Cursor.text?).Proceeds := by
  intro s v t hm
  have hscan := matched_literal hm
  obtain ⟨quote, rest, hrest, hquote, _, _⟩ := Cursor.eq_of_text? hscan
  have hsettled : s.cursor.Settled := by
    refine Cursor.settled_of_rest hrest ?_ ?_ <;> rcases hquote with rfl | rfl
    · decide
    · decide
    · exact nofun
    · exact nofun
  exact pos_lt_of_settled hsettled (Cursor.beyond_of_token? (Cursor.token?_of_text? hscan))

theorem proceeds_name : name.Proceeds := by
  intro s v t hm
  obtain ⟨_, _, _, hword⟩ := reads_of_name? (matched_name hm)
  obtain ⟨x, rest, hrest, hx⟩ := Cursor.rest_eq_cons_of_word? hword
  have hsettled := Cursor.settled_of_isWordChar hrest (isWordChar_of_isWordStart hx)
  exact (matched_name_settled hsettled hm).1.pos_lt (List.cons_ne_nil _ _)

theorem proceeds_minus : (move (Cursor.afterSymbol? "-")).Proceeds := by
  intro s v t hm
  have hmove := matched_move hm
  obtain ⟨hrest, _⟩ := Cursor.passes_of_afterSymbol? hmove
  have hsettled : s.cursor.Settled := Cursor.settled_of_rest hrest (by decide) nofun
  have hnext := (Cursor.afterSymbol?_eq_some_iff hsettled Cursor.isSymbol_minus).1 hmove
  exact (Cursor.reads_of_next? hnext).pos_lt (List.cons_ne_nil _ _)

namespace Assembly

/-- The rule starts with one that goes on where it matches. -/
def Leads : {α : Type} → {x : Level → Rule α} → Assembly x → Prop
  | _, _, plain (x := x) => x.Proceeds
  | _, _, nested _ => True
  | _, _, afterTrivia rule => rule.Leads
  | _, _, bind first _ => first.Leads
  | _, _, attempt rule => rule.Leads
  | _, _, orElse first second => first.Leads ∧ second.Leads
  | _, _, branch step _ no => (move step).Proceeds ∧ no.Leads
  | _, _, many _ => False

/-- What is repeated anywhere in the rule goes on where it matches. -/
def Ends : {α : Type} → {x : Level → Rule α} → Assembly x → Prop
  | _, _, plain => True
  | _, _, nested _ => True
  | _, _, afterTrivia rule => rule.Ends
  | _, _, bind first second => first.Ends ∧ ∀ v, (second v).Ends
  | _, _, attempt rule => rule.Ends
  | _, _, orElse first second => first.Ends ∧ second.Ends
  | _, _, branch _ yes no => yes.Ends ∧ no.Ends
  | _, _, many rule => rule.Ends ∧ rule.Leads

/-- Every way to read a value starts with a part that goes on where it matches. -/
theorem leads_value : value.Leads :=
  ⟨proceeds_number, proceeds_oneOf fun c _ => Cursor.isWord_color c, proceeds_keyword (by decide),
    proceeds_symbol Cursor.isSymbol_leftAngle, proceeds_keyword (by decide),
    proceeds_symbol Cursor.isSymbol_leftParen, proceeds_oneOf fun k _ => Cursor.isWord_solid k,
    proceeds_text, proceeds_name, proceeds_unmet _, proceeds_firstOf_nil⟩

theorem leads_signed : signed.Leads := ⟨proceeds_minus, leads_value⟩

/-- Every kind of statement starts with a word or a name, which goes on where it matches. -/
theorem leads_anyStatement : anyStatement.Leads :=
  ⟨proceeds_keyword (by decide), proceeds_keyword (by decide), proceeds_opening (by decide),
    proceeds_opening (by decide), proceeds_opening (by decide), proceeds_keyword (by decide),
    proceeds_opening (by decide), proceeds_oneOf fun n _ => Cursor.isWord_command n,
    proceeds_assignee, proceeds_oneOf fun k _ => Cursor.isWord_transform k, proceeds_unmet _,
    proceeds_firstOf_nil⟩

theorem ends_value : value.Ends := by
  simp [value, rgb, vector, texture, paren, solid, triple, arguments, argument, expression, Ends,
    Leads]

/-- Each round of a chain starts with an operator, which goes on where it matches. -/
theorem ends_chain {operators : List Operator} {operand : Level → Rule Expr}
    {rule : Assembly operand} (h : rule.Ends) : (chain operators rule).Ends :=
  ⟨h, fun _ => ⟨⟨⟨trivial, fun _ => ⟨h, fun _ => trivial⟩⟩, proceeds_operator operators⟩,
    fun _ => trivial⟩⟩

theorem ends_sum : sum.Ends :=
  ends_chain (ends_chain ⟨⟨ends_value, fun _ => trivial⟩, ends_value⟩)

theorem ends_anyStatement : anyStatement.Ends := by
  simp [anyStatement, camera, light, block, conditional, loop, call, definition, command,
    assignment, transformation, condition, triple, arguments, argument, statement, expression, Ends,
    Leads, proceeds_parameter]

end Assembly

/-- Whatever is repeated where no answer is in a table goes on where it matches. -/
theorem Nested.ends_assembly : (kind : Nested α) → kind.assembly.Ends
  | .statement => Assembly.ends_anyStatement
  | .expression => Assembly.ends_sum

/-- What is tried where no answer is in a table starts with a rule that goes on. -/
theorem Nested.leads_assembly : (kind : Nested α) → kind.assembly.Leads
  | .statement => Assembly.leads_anyStatement
  | .expression => Assembly.leads_signed

end SceneScript.Parser
