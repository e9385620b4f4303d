import SceneScript.Cursor
import SceneScript.Token

/-!
# Number and string literals

A number is digits, and a point with digits after it if there are such.  It has no sign and no
exponent, and no letter follows it directly.  A string is what stands between two equal quotes;
nothing in it is escaped, so it cannot hold its own quote.
-/

namespace SceneScript

/-- The digits of a number literal.  Without a point there are none after it. -/
structure Numeral where
  whole : List Char
  fraction : List Char
  deriving DecidableEq

namespace Numeral

/-- The longest numeral at the front of a text.  A point is part of it only with a digit behind. -/
def leading (text : List Char) : Numeral where
  whole := text.takeWhile Char.isDigit
  fraction := match text.dropWhile Char.isDigit with
    | '.' :: rest => rest.takeWhile Char.isDigit
    | _ => []

/-- How the numeral is spelled. -/
def text (n : Numeral) : List Char :=
  n.whole ++ if n.fraction = [] then [] else '.' :: n.fraction

/-- The number it stands for, infinite if that is past the largest one. -/
def value (n : Numeral) : Binary64 := (Decimal.ofDigits n.whole n.fraction).toBinary64 false

end Numeral

namespace Cursor

/-- The number that stands here and the place after it. -/
def number? (c : Cursor) : Except LexicalError (Option (Binary64 × Cursor)) :=
  let numeral := Numeral.leading c.rest
  let length := numeral.text.length
  let after := c.rest.drop length
  if numeral.whole = [] then .ok none
  else if after.head?.any Char.isAlpha then
    .error (.malformedNumber c.pos (String.ofList (numeral.text ++ after.takeWhile isWordChar)))
  else if numeral.value.isFinite then .ok (some (numeral.value, c.advance length))
  else .error (.malformedNumber c.pos (String.ofList numeral.text))

/-- The text of the string that stands here and the place after its closing quote. -/
def text? (c : Cursor) : Except LexicalError (Option (String × Cursor)) :=
  match c.rest with
  | [] => .ok none
  | quote :: rest =>
    if quote = '"' ∨ quote = '\'' then
      let body := rest.takeWhile (· != quote)
      if body.length < rest.length then
        .ok (some (String.ofList body, c.advance (body.length + 2)))
      else .error (.unterminatedString c.pos)
    else .ok none

end Cursor

end SceneScript
