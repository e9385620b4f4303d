import SceneScript.Grammar

/-!
# The tokens of a program

The tokens that the canonical source of a well-formed program consists of.  The parentheses are
those of the tree; a well-formed tree needs no others.
-/

namespace SceneScript

open Grammar

/-- Lists of tokens with commas between them. -/
def commaSeparated (tss : List (List Token)) : List Token := [comma].intercalate tss

@[simp] theorem commaSeparated_singleton (ts : List Token) : commaSeparated [ts] = ts := by
  simp [commaSeparated]

@[simp] theorem commaSeparated_cons_cons (ts us : List Token) (tss : List (List Token)) :
    commaSeparated (ts :: us :: tss) = ts ++ comma :: commaSeparated (us :: tss) := by
  simp [commaSeparated]

mutual

/-- The tokens of an expression. -/
def Expr.tokens : Expr → List Token
  | .number value => [.number value]
  | .color name => [word name.text]
  | .rgb r g b =>
    word "rgb" :: leftParen ::
      (r.tokens ++ comma :: (g.tokens ++ comma :: (b.tokens ++ [rightParen])))
  | .vector x y z =>
    leftAngle :: (x.tokens ++ comma :: (y.tokens ++ comma :: (z.tokens ++ [rightAngle])))
  | .texture path => word "texture" :: leftParen :: (path.tokens ++ [rightParen])
  | .solid kind args =>
    word kind.text :: leftParen :: (commaSeparated (Expr.tokensOfAll args) ++ [rightParen])
  | .paren inner => leftParen :: (inner.tokens ++ [rightParen])
  | .text value => [.text value]
  | .identifier name => [Token.ofWord name]
  | .negate operand => minus :: operand.tokens
  | .binary left op right => left.tokens ++ operatorToken op :: right.tokens

/-- The tokens of each of some expressions. -/
def Expr.tokensOfAll : List Expr → List (List Token)
  | [] => []
  | e :: es => e.tokens :: Expr.tokensOfAll es

end

/-- The tokens of an argument list, without the parentheses. -/
def Expr.argumentTokens (args : List Expr) : List Token := commaSeparated (Expr.tokensOfAll args)

/-- The tokens of a list of parameters. -/
def parameterTokens (params : List String) : List Token :=
  commaSeparated (params.map fun param => [Token.ofWord param])

mutual

/-- The tokens of a statement. -/
def Statement.tokens : Statement → List Token
  | .assignment isLocal name value =>
    localTokens isLocal ++ Token.ofWord name :: equals :: value.tokens
  | .transformation kind x y z body =>
    word kind.text :: leftParen ::
      (x.tokens ++ comma :: (y.tokens ++ comma :: (z.tokens ++ rightParen :: body.tokens)))
  | .definition name params body =>
    word "function" :: Token.ofWord name :: leftParen ::
      (parameterTokens params ++ rightParen :: (Statement.tokensOfAll body ++ [word "end"]))
  | .call name args =>
    word "call" :: Token.ofWord name :: leftParen :: (Expr.argumentTokens args ++ [rightParen])
  | .conditional condition body =>
    word "if" ::
      (condition.tokens ++ word "then" :: (Statement.tokensOfAll body ++ [word "end"]))
  | .loop condition body =>
    word "while" ::
      (condition.tokens ++ word "do" :: (Statement.tokensOfAll body ++ [word "end"]))
  | .block body => word "do" :: (Statement.tokensOfAll body ++ [word "end"])
  | .command name args =>
    word name.text :: leftParen :: (Expr.argumentTokens args ++ [rightParen])
  | .light args =>
    word "append" :: word "light" :: leftParen :: (Expr.argumentTokens args ++ [rightParen])
  | .camera value => word "set" :: word "camera" :: leftParen :: (value.tokens ++ [rightParen])

/-- The tokens of some statements one after the other. -/
def Statement.tokensOfAll : List Statement → List Token
  | [] => []
  | s :: ss => s.tokens ++ Statement.tokensOfAll ss

end

/-- The tokens of a program. -/
def Program.tokens (p : Program) : List Token := Statement.tokensOfAll p.statements

end SceneScript
