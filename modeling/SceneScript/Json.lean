import SceneScript.Number.Layout

/-!
# JSON

The values that dumps are made of, and two ways to print them: without any space, and indented.  The
fields of an object keep their order.

What is dumped is the value.  How it is printed is for a printer to say, of which there are two here.
-/

namespace SceneScript

/-- A value of JSON.  There is no null, which nothing here needs. -/
inductive Json where
  | bool (value : Bool)
  | number (value : Binary64)
  | text (value : String)
  | list (items : List Json)
  | object (fields : List (String × Json))

namespace Json

/-- A printer of JSON, which may say why it fails. -/
abbrev Printer := Json → Except String String

/-! ## Strings -/

/-- A character inside quotes.  Only the quote, the backslash and the controls are escaped. -/
def escape (c : Char) : List Char :=
  if c = '"' then ['\\', '"']
  else if c = '\\' then ['\\', '\\']
  else if c = '\x08' then ['\\', 'b']
  else if c = '\x0c' then ['\\', 'f']
  else if c = '\n' then ['\\', 'n']
  else if c = '\r' then ['\\', 'r']
  else if c = '\t' then ['\\', 't']
  else if c.toNat < 0x20 then
    ['\\', 'u', '0', '0', Nat.digitChar (c.toNat / 16), Nat.digitChar (c.toNat % 16)]
  else [c]

/-- A text in its quotes. -/
def quote (text : String) : String :=
  String.ofList ('"' :: (text.toList.flatMap escape ++ ['"']))

/-! ## The compact text -/

mutual

/-- The text without spaces. -/
def compact : Json → String
  | .bool value => if value then "true" else "false"
  | .number value => Layout.json.number value
  | .text value => quote value
  | .list items => "[" ++ ",".intercalate (compactItems items) ++ "]"
  | .object fields => "\x7b" ++ ",".intercalate (compactFields fields) ++ "\x7d"

/-- The texts of some values without spaces. -/
def compactItems : List Json → List String
  | [] => []
  | item :: items => item.compact :: compactItems items

/-- The texts of some fields without spaces. -/
def compactFields : List (String × Json) → List String
  | [] => []
  | (key, value) :: fields => (quote key ++ ":" ++ value.compact) :: compactFields fields

end

/-! ## The indented text -/

/-- The start of a line so many levels deep. -/
def newLine (depth : Nat) : String := "\n" ++ String.ofList (List.replicate (2 * depth) ' ')

/-- Parts between brackets, one to a line.  No parts leave nothing between the brackets. -/
def bracketed (opening closing : String) (depth : Nat) (parts : List String) : String :=
  if parts.isEmpty then opening ++ closing
  else
    opening ++ newLine (depth + 1) ++ ("," ++ newLine (depth + 1)).intercalate parts
      ++ newLine depth ++ closing

mutual

/-- The indented text of a value that starts so many levels deep. -/
def prettyAt (depth : Nat) : Json → String
  | .bool value => if value then "true" else "false"
  | .number value => Layout.json.number value
  | .text value => quote value
  | .list items => bracketed "[" "]" depth (prettyItems (depth + 1) items)
  | .object fields => bracketed "\x7b" "\x7d" depth (prettyFields (depth + 1) fields)

/-- The indented texts of some values that start so many levels deep. -/
def prettyItems (depth : Nat) : List Json → List String
  | [] => []
  | item :: items => item.prettyAt depth :: prettyItems depth items

/-- The indented texts of some fields that start so many levels deep. -/
def prettyFields (depth : Nat) : List (String × Json) → List String
  | [] => []
  | (key, value) :: fields =>
    (quote key ++ ": " ++ value.prettyAt depth) :: prettyFields depth fields

end

/-- The indented text. -/
def pretty (value : Json) : String := value.prettyAt 0

end Json

end SceneScript
