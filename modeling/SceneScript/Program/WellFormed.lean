import SceneScript.Program
import SceneScript.Vocabulary

/-!
# Well-formed programs

What holds of every program that is read from a source, whatever the source: names that can be
names, numbers and texts that can be literals, operators grouped as their binding has it, and
comparisons only at the root of a condition.
-/

namespace SceneScript

/-- The word can be the name of something. -/
def IsValidName (name : String) : Prop :=
  (∃ c rest, name.toList = c :: rest ∧ isWordStart c = true ∧ ∀ d ∈ rest, isWordChar d = true)
    ∧ isReserved name = false

/-- The number can be a literal: it is finite and has no sign. -/
def Binary64.IsUnsigned (x : Binary64) : Prop := x.isFinite = true ∧ x.isNegative = false

/-- The text can stand between quotes of one kind. -/
def IsQuotable (text : String) : Prop := ¬('"' ∈ text.toList ∧ '\'' ∈ text.toList)

namespace Expr

/-- The expression is a sum or a difference. -/
def IsSum : Expr → Prop
  | .binary _ op _ => op.precedence = 2
  | _ => False

/-- The expression is an operation on two operands. -/
def IsBinary : Expr → Prop
  | .binary .. => True
  | _ => False

/-- The expression has a minus at its root. -/
def IsNegated : Expr → Prop
  | .negate _ => True
  | _ => False

mutual

/-- The expression is one that is read where no comparison can stand. -/
def WellFormed : Expr → Prop
  | .number value => value.IsUnsigned
  | .color _ => True
  | .rgb r g b => r.WellFormed ∧ g.WellFormed ∧ b.WellFormed
  | .vector x y z => x.WellFormed ∧ y.WellFormed ∧ z.WellFormed
  | .texture path => path.WellFormed
  | .solid _ args => AllWellFormed args
  | .paren inner => inner.WellFormed
  | .text value => IsQuotable value
  | .identifier name => IsValidName name ∧ ∀ c : Color, name ≠ c.text
  | .negate operand => operand.WellFormed ∧ ¬operand.IsNegated ∧ ¬operand.IsBinary
  | .binary left op right =>
    left.WellFormed ∧ right.WellFormed ∧
      ((op.precedence = 2 ∧ ¬right.IsSum) ∨ (op.precedence = 3 ∧ ¬left.IsSum ∧ ¬right.IsBinary))

/-- All of some expressions are well formed. -/
def AllWellFormed : List Expr → Prop
  | [] => True
  | e :: es => e.WellFormed ∧ AllWellFormed es

end

/-- The expression is one that is read as a condition. -/
def WellFormedCondition : Expr → Prop
  | .binary left op right =>
    (op.isComparison = true ∧ left.WellFormed ∧ right.WellFormed)
      ∨ (Expr.binary left op right).WellFormed
  | e => e.WellFormed

end Expr

namespace Statement

mutual

/-- The parser could have built the statement. -/
def WellFormed : Statement → Prop
  | .assignment _ name value => IsValidName name ∧ value.WellFormed
  | .transformation _ x y z body =>
    x.WellFormed ∧ y.WellFormed ∧ z.WellFormed ∧ body.WellFormed
  | .definition name params body =>
    IsValidName name ∧ (∀ param ∈ params, IsValidName param) ∧ AllWellFormed body
  | .call name args => IsValidName name ∧ Expr.AllWellFormed args
  | .conditional condition body => condition.WellFormedCondition ∧ AllWellFormed body
  | .loop condition body => condition.WellFormedCondition ∧ AllWellFormed body
  | .block body => AllWellFormed body
  | .command _ args => Expr.AllWellFormed args
  | .light args => Expr.AllWellFormed args
  | .camera value => value.WellFormed

/-- All of some statements are well formed. -/
def AllWellFormed : List Statement → Prop
  | [] => True
  | s :: ss => s.WellFormed ∧ AllWellFormed ss

end

end Statement

/-- The parser could have built the program. -/
def Program.WellFormed (p : Program) : Prop := Statement.AllWellFormed p.statements

/-! ## Small facts -/

theorem Expr.allWellFormed_iff {es : List Expr} :
    Expr.AllWellFormed es ↔ ∀ e ∈ es, e.WellFormed := by
  induction es with
  | nil => simp [Expr.AllWellFormed]
  | cons e es ih => simp [Expr.AllWellFormed, ih]

theorem Statement.allWellFormed_iff {ss : List Statement} :
    Statement.AllWellFormed ss ↔ ∀ s ∈ ss, s.WellFormed := by
  induction ss with
  | nil => simp [Statement.AllWellFormed]
  | cons s ss ih => simp [Statement.AllWellFormed, ih]

end SceneScript
