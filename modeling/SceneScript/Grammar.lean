import SceneScript.Program
import SceneScript.Token

/-!
# The grammar

The language as a context-free grammar over tokens, read without any order between alternatives:
`IsProgram ts p` says that the tokens can be read as the program.  Words have no fixed use here.  A
keyword stands where the grammar has it, and any word that is not reserved may be a name.

The parser is another definition of the same language; it has to choose.
-/

namespace SceneScript.Grammar

/-! ## Terminals -/

/-- The token of a keyword. -/
def word (text : String) : Token := .keyword text

/-- The sign `(`. -/
def leftParen : Token := .punctuation '('
/-- The sign `)`. -/
def rightParen : Token := .punctuation ')'
/-- The sign `,`. -/
def comma : Token := .punctuation ','
/-- The sign `<`, which opens a vector and compares. -/
def leftAngle : Token := .operator '<'
/-- The sign `>`, which closes a vector and compares. -/
def rightAngle : Token := .operator '>'
/-- The sign `=`. -/
def equals : Token := .operator '='
/-- The sign `-`, which negates and subtracts. -/
def minus : Token := .operator '-'

/-- The token of an operator. -/
def operatorToken : Operator → Token
  | .add => .operator '+'
  | .subtract => .operator '-'
  | .multiply => .operator '*'
  | .divide => .operator '/'
  | .modulo => .operator '%'
  | .lessThan => .operator '<'
  | .greaterThan => .operator '>'

/-- A name is any word that is not reserved. -/
inductive IsName : Token → String → Prop
  | identifier (name : String) : isReserved name = false → IsName (.identifier name) name
  | keyword (name : String) : isReserved name = false → IsName (.keyword name) name

/-- Perhaps a comma. -/
inductive IsSeparator : List Token → Prop
  | none : IsSeparator []
  | comma : IsSeparator [comma]

/-! ## Expressions -/

mutual

/-- One of the nine forms of a value. -/
inductive IsValue : List Token → Expr → Prop
  | number (x : Binary64) : IsValue [.number x] (.number x)
  | color (c : Color) : IsValue [word c.text] (.color c)
  | rgb {r g b : Expr} {rs gs bs : List Token} : IsSum rs r → IsSum gs g → IsSum bs b →
      IsValue (word "rgb" :: leftParen :: (rs ++ comma :: (gs ++ comma :: (bs ++ [rightParen]))))
        (.rgb r g b)
  | vector {x y z : Expr} {xs ys zs : List Token} : IsSum xs x → IsSum ys y → IsSum zs z →
      IsValue (leftAngle :: (xs ++ comma :: (ys ++ comma :: (zs ++ [rightAngle])))) (.vector x y z)
  | texture {path : Expr} {ts : List Token} : IsSum ts path →
      IsValue (word "texture" :: leftParen :: (ts ++ [rightParen])) (.texture path)
  | paren {inner : Expr} {ts : List Token} : IsSum ts inner →
      IsValue (leftParen :: (ts ++ [rightParen])) (.paren inner)
  | solid (kind : Solid) {args : List Expr} {ts : List Token} : IsArguments ts args →
      IsValue (word kind.text :: leftParen :: (ts ++ [rightParen])) (.solid kind args)
  | text (value : String) : IsValue [.text value] (.text value)
  | identifier {t : Token} {name : String} : IsName t name → IsValue [t] (.identifier name)

/-- A value with perhaps a minus before it. -/
inductive IsNegation : List Token → Expr → Prop
  | value {ts : List Token} {e : Expr} : IsValue ts e → IsNegation ts e
  | minus {ts : List Token} {e : Expr} : IsValue ts e → IsNegation (minus :: ts) (.negate e)

/-- Factors, grouped from the left. -/
inductive IsProduct : List Token → Expr → Prop
  | factor {ts : List Token} {e : Expr} : IsNegation ts e → IsProduct ts e
  | times {ls rs : List Token} {left right : Expr} (op : Operator) :
      op.precedence = 3 → IsProduct ls left → IsNegation rs right →
      IsProduct (ls ++ operatorToken op :: rs) (.binary left op right)

/-- Terms, grouped from the left. -/
inductive IsSum : List Token → Expr → Prop
  | term {ts : List Token} {e : Expr} : IsProduct ts e → IsSum ts e
  | plus {ls rs : List Token} {left right : Expr} (op : Operator) :
      op.precedence = 2 → IsSum ls left → IsProduct rs right →
      IsSum (ls ++ operatorToken op :: rs) (.binary left op right)

/-- Expressions, each with perhaps a comma behind it. -/
inductive IsArguments : List Token → List Expr → Prop
  | nil : IsArguments [] []
  | cons {ts sep us : List Token} {e : Expr} {es : List Expr} : IsSum ts e → IsSeparator sep →
      IsArguments us es → IsArguments (ts ++ (sep ++ us)) (e :: es)

end

/-- The condition of a block: an expression or two of them compared. -/
inductive IsCondition : List Token → Expr → Prop
  | plain {ts : List Token} {e : Expr} : IsSum ts e → IsCondition ts e
  | compared {ls rs : List Token} {left right : Expr} (op : Operator) :
      op.precedence = 1 → IsSum ls left → IsSum rs right →
      IsCondition (ls ++ operatorToken op :: rs) (.binary left op right)

/-- Names, each with perhaps a comma behind it. -/
inductive IsParameters : List Token → List String → Prop
  | nil : IsParameters [] []
  | cons {t : Token} {sep us : List Token} {name : String} {names : List String} :
      IsName t name → IsSeparator sep → IsParameters us names →
      IsParameters (t :: (sep ++ us)) (name :: names)

/-! ## Statements -/

/-- The `local` before an assignment, if it is one to a local variable. -/
def localTokens (isLocal : Bool) : List Token := if isLocal then [word "local"] else []

mutual

/-- The tokens are those of the statement. -/
inductive IsStatement : List Token → Statement → Prop
  | camera {ts : List Token} {e : Expr} : IsSum ts e →
      IsStatement (word "set" :: word "camera" :: leftParen :: (ts ++ [rightParen])) (.camera e)
  | light {ts : List Token} {args : List Expr} : IsArguments ts args →
      IsStatement (word "append" :: word "light" :: leftParen :: (ts ++ [rightParen]))
        (.light args)
  | block {ts : List Token} {body : List Statement} : IsBody ts body →
      IsStatement (word "do" :: (ts ++ [word "end"])) (.block body)
  | conditional {cs ts : List Token} {c : Expr} {body : List Statement} :
      IsCondition cs c → IsBody ts body →
      IsStatement (word "if" :: (cs ++ word "then" :: (ts ++ [word "end"]))) (.conditional c body)
  | loop {cs ts : List Token} {c : Expr} {body : List Statement} :
      IsCondition cs c → IsBody ts body →
      IsStatement (word "while" :: (cs ++ word "do" :: (ts ++ [word "end"]))) (.loop c body)
  | call {t : Token} {ts : List Token} {name : String} {args : List Expr} :
      IsName t name → IsArguments ts args →
      IsStatement (word "call" :: t :: leftParen :: (ts ++ [rightParen])) (.call name args)
  | definition {t : Token} {ps ts : List Token} {name : String} {params : List String}
      {body : List Statement} : IsName t name → IsParameters ps params → IsBody ts body →
      IsStatement
        (word "function" :: t :: leftParen :: (ps ++ rightParen :: (ts ++ [word "end"])))
        (.definition name params body)
  | command (name : Command) {ts : List Token} {args : List Expr} : IsArguments ts args →
      IsStatement (word name.text :: leftParen :: (ts ++ [rightParen])) (.command name args)
  | assignment (isLocal : Bool) {t : Token} {ts : List Token} {name : String} {e : Expr} :
      IsName t name → IsSum ts e →
      IsStatement (localTokens isLocal ++ t :: equals :: ts) (.assignment isLocal name e)
  | transformation (kind : Transform) {xs ys zs ts : List Token} {x y z : Expr}
      {body : Statement} : IsSum xs x → IsSum ys y → IsSum zs z → IsStatement ts body →
      IsStatement
        (word kind.text :: leftParen ::
          (xs ++ comma :: (ys ++ comma :: (zs ++ rightParen :: ts))))
        (.transformation kind x y z body)

/-- Statements one after the other. -/
inductive IsBody : List Token → List Statement → Prop
  | nil : IsBody [] []
  | cons {ts us : List Token} {s : Statement} {ss : List Statement} : IsStatement ts s →
      IsBody us ss → IsBody (ts ++ us) (s :: ss)

end

/-! ## Programs -/

/-- The tokens can be read as the program. -/
def IsProgram (ts : List Token) (p : Program) : Prop := IsBody ts p.statements

/-- The tokens can be read as some program. -/
def IsSentence (ts : List Token) : Prop := ∃ p, IsProgram ts p

/-- The tokens are the start of something that can be read as a program. -/
def IsViable (ts : List Token) : Prop := ∃ us, IsSentence (ts ++ us)

/-! ## Small facts -/

theorem IsSentence.isViable {ts : List Token} (h : IsSentence ts) : IsViable ts :=
  ⟨[], by simpa using h⟩

/-- The start of a viable start is viable. -/
theorem IsViable.of_append {ts us : List Token} (h : IsViable (ts ++ us)) : IsViable ts := by
  obtain ⟨vs, h⟩ := h
  exact ⟨us ++ vs, by simpa using h⟩

end SceneScript.Grammar
