import SceneScript.Program.Expr

/-!
# Statements
-/

namespace SceneScript

/-- What is done in a scene. -/
inductive Statement where
  | assignment (isLocal : Bool) (name : String) (value : Expr)
  /-- Applies to the one statement that follows. -/
  | transformation (kind : Transform) (x y z : Expr) (body : Statement)
  | definition (name : String) (params : List String) (body : List Statement)
  | call (name : String) (args : List Expr)
  | conditional (condition : Expr) (body : List Statement)
  | loop (condition : Expr) (body : List Statement)
  | block (body : List Statement)
  | command (name : Command) (args : List Expr)
  | light (args : List Expr)
  | camera (value : Expr)

mutual

/-- The two statements are the same node for node. -/
def Statement.same : Statement → Statement → Bool
  | .assignment isLocal name value, .assignment isLocal' name' value' =>
    isLocal == isLocal' && (name == name' && value == value')
  | .transformation kind x y z body, .transformation kind' x' y' z' body' =>
    kind == kind' && (x == x' && (y == y' && (z == z' && body.same body')))
  | .definition name params body, .definition name' params' body' =>
    name == name' && (params == params' && Statement.sameAll body body')
  | .call name args, .call name' args' => name == name' && args == args'
  | .conditional condition body, .conditional condition' body' =>
    condition == condition' && Statement.sameAll body body'
  | .loop condition body, .loop condition' body' =>
    condition == condition' && Statement.sameAll body body'
  | .block body, .block body' => Statement.sameAll body body'
  | .command name args, .command name' args' => name == name' && args == args'
  | .light args, .light args' => args == args'
  | .camera value, .camera value' => value == value'
  | _, _ => false

/-- The two lists hold the same statements. -/
def Statement.sameAll : List Statement → List Statement → Bool
  | [], [] => true
  | a :: as, b :: bs => a.same b && Statement.sameAll as bs
  | _, _ => false

end

mutual

theorem Statement.same_iff : (a b : Statement) → (a.same b = true ↔ a = b)
  | .assignment .., e => by cases e <;> simp [Statement.same]
  | .transformation _ _ _ _ body, e => by
    cases e <;> simp [Statement.same, Statement.same_iff body]
  | .definition _ _ body, e => by cases e <;> simp [Statement.same, Statement.sameAll_iff body]
  | .call .., e => by cases e <;> simp [Statement.same]
  | .conditional _ body, e => by cases e <;> simp [Statement.same, Statement.sameAll_iff body]
  | .loop _ body, e => by cases e <;> simp [Statement.same, Statement.sameAll_iff body]
  | .block body, e => by cases e <;> simp [Statement.same, Statement.sameAll_iff body]
  | .command .., e => by cases e <;> simp [Statement.same]
  | .light .., e => by cases e <;> simp [Statement.same]
  | .camera .., e => by cases e <;> simp [Statement.same]

theorem Statement.sameAll_iff : (as bs : List Statement) →
    (Statement.sameAll as bs = true ↔ as = bs)
  | [], bs => by cases bs <;> simp [Statement.sameAll]
  | a :: as, bs => by
    cases bs <;> simp [Statement.sameAll, Statement.same_iff a, Statement.sameAll_iff as]

end

instance : DecidableEq Statement := fun a b => decidable_of_iff _ (Statement.same_iff a b)

end SceneScript
