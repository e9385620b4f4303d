import SceneScript.Program.Word

/-!
# Expressions

Grouping parentheses are nodes of their own, so that an expression can be written back the way it
was read.
-/

namespace SceneScript

/-- What a value is computed from. -/
inductive Expr where
  | number (value : Binary64)
  | color (name : Color)
  | rgb (r g b : Expr)
  | vector (x y z : Expr)
  | texture (path : Expr)
  | solid (kind : Solid) (args : List Expr)
  | paren (inner : Expr)
  | text (value : String)
  | identifier (name : String)
  | negate (operand : Expr)
  | binary (left : Expr) (op : Operator) (right : Expr)

/-! ## Equality -/

mutual

/-- The two expressions are the same node for node. -/
def Expr.same : Expr → Expr → Bool
  | .number x, .number y => x == y
  | .color c, .color d => c == d
  | .rgb r g b, .rgb r' g' b' => r.same r' && (g.same g' && b.same b')
  | .vector x y z, .vector x' y' z' => x.same x' && (y.same y' && z.same z')
  | .texture path, .texture path' => path.same path'
  | .solid kind args, .solid kind' args' => kind == kind' && Expr.sameAll args args'
  | .paren inner, .paren inner' => inner.same inner'
  | .text value, .text value' => value == value'
  | .identifier name, .identifier name' => name == name'
  | .negate operand, .negate operand' => operand.same operand'
  | .binary left op right, .binary left' op' right' =>
    left.same left' && (op == op' && right.same right')
  | _, _ => false

/-- The two lists hold the same expressions. -/
def Expr.sameAll : List Expr → List Expr → Bool
  | [], [] => true
  | a :: as, b :: bs => a.same b && Expr.sameAll as bs
  | _, _ => false

end

mutual

theorem Expr.same_iff : (a b : Expr) → (a.same b = true ↔ a = b)
  | .number x, e => by cases e <;> simp [Expr.same]
  | .color c, e => by cases e <;> simp [Expr.same]
  | .rgb r g b, e => by
    cases e <;> simp [Expr.same, Expr.same_iff r, Expr.same_iff g, Expr.same_iff b]
  | .vector x y z, e => by
    cases e <;> simp [Expr.same, Expr.same_iff x, Expr.same_iff y, Expr.same_iff z]
  | .texture path, e => by cases e <;> simp [Expr.same, Expr.same_iff path]
  | .solid kind args, e => by cases e <;> simp [Expr.same, Expr.sameAll_iff args]
  | .paren inner, e => by cases e <;> simp [Expr.same, Expr.same_iff inner]
  | .text value, e => by cases e <;> simp [Expr.same]
  | .identifier name, e => by cases e <;> simp [Expr.same]
  | .negate operand, e => by cases e <;> simp [Expr.same, Expr.same_iff operand]
  | .binary left op right, e => by
    cases e <;> simp [Expr.same, Expr.same_iff left, Expr.same_iff right]

theorem Expr.sameAll_iff : (as bs : List Expr) → (Expr.sameAll as bs = true ↔ as = bs)
  | [], bs => by cases bs <;> simp [Expr.sameAll]
  | a :: as, bs => by
    cases bs <;> simp [Expr.sameAll, Expr.same_iff a, Expr.sameAll_iff as]

end

instance : DecidableEq Expr := fun a b => decidable_of_iff _ (Expr.same_iff a b)

end SceneScript
