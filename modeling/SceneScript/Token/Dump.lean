import SceneScript.Json
import SceneScript.Outline
import SceneScript.Token

/-!
# Dumps of tokens

The two forms in which a token is shown: as an outline and as JSON.
-/

namespace SceneScript.Token

/-- The token as it is dumped. -/
def outline : Token → Outline
  | .identifier name => .call "Identifier" [.text name]
  | .keyword word => .call "Keyword" [.text word]
  | .number value => .call "Number" [.leaf (Layout.dump.number value)]
  | .text value => .call "StringLiteral" [.text value]
  | .operator symbol => .call "Operator" [.char symbol]
  | .punctuation symbol => .call "Punctuation" [.char symbol]

/-- The kind of token and what it holds. -/
def toJson (t : Token) : Json :=
  let (kind, value) : String × Json := match t with
    | .identifier name => ("identifier", .text name)
    | .keyword word => ("keyword", .text word)
    | .number value => ("number", .number value)
    | .text value => ("string_literal", .text value)
    | .operator symbol => ("operator", .text symbol.toString)
    | .punctuation symbol => ("punctuation", .text symbol.toString)
  .object [("kind", .text kind), ("value", value)]

end SceneScript.Token
