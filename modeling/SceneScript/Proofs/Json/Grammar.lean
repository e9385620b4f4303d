import SceneScript.Json
import SceneScript.Proofs.Number.ReadBack

/-!
# JSON texts

Which texts are JSON texts of a value.  Blanks may stand around the parts of a value, a character of a
string may be escaped in several ways, and a number may be written in any digits that read back to it,
so a value has many texts.  Numbers here may even have more zeros before them than JSON lets them have.

How JSON is printed is for a library to say.  All that is asked of a printer is that it prints one of
the texts of the value.
-/

namespace SceneScript.Json

/-- The character may stand between the parts of a text. -/
def isBlank (c : Char) : Bool := c == ' ' || c == '\t' || c == '\n' || c == '\r'

/-- Nothing but blanks, or nothing at all. -/
def Blank (text : List Char) : Prop := ∀ c ∈ text, isBlank c = true

theorem blank_nil : Blank [] := nofun

/-! ## Numbers -/

/-- A power of ten behind a numeral as it is spelled, which may be left out. -/
inductive IsPower : List Char → Prop
  | absent : IsPower []
  | present {letter : Char} {sign digits : List Char} : letter ∈ ['e', 'E'] →
      sign ∈ [[], ['+'], ['-']] → digits ≠ [] → (∀ c ∈ digits, c.isDigit = true) →
      IsPower (letter :: (sign ++ digits))

/-- The exponent that is spelled. -/
def exponentOf : List Char → Int
  | _ :: '-' :: digits => -Nat.ofDigitChars 10 digits 0
  | _ :: '+' :: digits => Nat.ofDigitChars 10 digits 0
  | _ :: digits => Nat.ofDigitChars 10 digits 0
  | [] => 0

/-- The parts of a number as it is spelled. -/
structure NumberParts where
  negative : Bool
  numeral : Numeral
  power : List Char

namespace NumberParts

/-- The parts are those of a number. -/
structure Proper (n : NumberParts) : Prop where
  numeral : n.numeral.Proper
  power : IsPower n.power

/-- The parts put together. -/
def text (n : NumberParts) : List Char :=
  (if n.negative then ['-'] else []) ++ (n.numeral.text ++ n.power)

/-- The decimal that is spelled, without its sign. -/
def decimal (n : NumberParts) : Decimal :=
  let unscaled := Decimal.ofDigits n.numeral.whole n.numeral.fraction
  ⟨unscaled.digits, exponentOf n.power + unscaled.exponent⟩

/-- The number that the text reads back to. -/
def value (n : NumberParts) : Binary64 := n.decimal.toBinary64 n.negative

end NumberParts

/-- The text reads back to the number. -/
def IsNumber (x : Binary64) (text : List Char) : Prop :=
  ∃ n : NumberParts, n.Proper ∧ n.text = text ∧ n.value = x

/-! ## Strings -/

/-- The letters behind a backslash, and the characters they stand for. -/
def shortEscapes : List (Char × Char) :=
  [('"', '"'), ('\\', '\\'), ('/', '/'), ('b', '\x08'), ('f', '\x0c'), ('n', '\n'), ('r', '\r'),
    ('t', '\t')]

/-- A digit in base sixteen, in small or in capital letters. -/
def hexDigit? (c : Char) : Option Nat :=
  if '0' ≤ c ∧ c ≤ '9' then some (c.toNat - '0'.toNat)
  else if 'a' ≤ c ∧ c ≤ 'f' then some (c.toNat - 'a'.toNat + 10)
  else if 'A' ≤ c ∧ c ≤ 'F' then some (c.toNat - 'A'.toNat + 10)
  else none

/-- Four digits in base sixteen. -/
def codeUnit? (a b c d : Char) : Option Nat :=
  return ((← hexDigit? a) * 16 + (← hexDigit? b)) * 256 + ((← hexDigit? c) * 16 + (← hexDigit? d))

/-- The character that two surrogates stand for. -/
def ofSurrogates (high low : Nat) : Nat := 0x10000 + (high - 0xd800) * 0x400 + (low - 0xdc00)

/-- How a character may stand in a string. -/
inductive IsEscape : Char → List Char → Prop
  | itself {c : Char} : c ≠ '"' → c ≠ '\\' → 0x20 ≤ c.toNat → IsEscape c [c]
  | short {c letter : Char} : (letter, c) ∈ shortEscapes → IsEscape c ['\\', letter]
  | code {c h i j k : Char} : codeUnit? h i j k = some c.toNat →
      IsEscape c ['\\', 'u', h, i, j, k]
  | pair {c h i j k h' i' j' k' : Char} {high low : Nat} : codeUnit? h i j k = some high →
      codeUnit? h' i' j' k' = some low → 0xd800 ≤ high → high < 0xdc00 → 0xdc00 ≤ low →
      low < 0xe000 → ofSurrogates high low = c.toNat →
      IsEscape c ['\\', 'u', h, i, j, k, '\\', 'u', h', i', j', k']

/-- What stands between the quotes of a string. -/
inductive IsInside : List Char → List Char → Prop
  | nil : IsInside [] []
  | cons {c : Char} {cs escape rest : List Char} : IsEscape c escape → IsInside cs rest →
      IsInside (c :: cs) (escape ++ rest)

/-- The text is a string's in its quotes. -/
inductive IsString : String → List Char → Prop
  | quoted {s : String} {inside : List Char} : IsInside s.toList inside →
      IsString s ('"' :: (inside ++ ['"']))

/-! ## Parts between brackets -/

section

variable {α : Type} (is : α → List Char → Prop) (close : Char)

/-- What follows a part, as far as the closing bracket. -/
inductive IsFollowing : List α → List Char → Prop
  | close {blanks : List Char} : Blank blanks → IsFollowing [] (blanks ++ [close])
  | comma {x : α} {xs : List α} {blanks more text rest : List Char} : Blank blanks → Blank more →
      is x text → IsFollowing xs rest →
      IsFollowing (x :: xs) (blanks ++ ',' :: (more ++ (text ++ rest)))

/-- Parts with commas between them, and the closing bracket. -/
inductive IsParts : List α → List Char → Prop
  | empty {blanks : List Char} : Blank blanks → IsParts [] (blanks ++ [close])
  | cons {x : α} {xs : List α} {blanks text rest : List Char} : Blank blanks → is x text →
      IsFollowing is close xs rest → IsParts (x :: xs) (blanks ++ (text ++ rest))

end

/-- A field of an object, given the texts of its value. -/
inductive IsField (is : Json → List Char → Prop) : String × Json → List Char → Prop
  | intro {key : String} {value : Json} {name blanks more text : List Char} : IsString key name →
      Blank blanks → Blank more → is value text →
      IsField is (key, value) (name ++ (blanks ++ ':' :: (more ++ text)))

/-! ## Values -/

/-- The text is a JSON text of the value, without blanks around it. -/
inductive IsText : Json → List Char → Prop
  | bool (value : Bool) : IsText (.bool value) (if value then "true" else "false").toList
  | number {x : Binary64} {text : List Char} : IsNumber x text → IsText (.number x) text
  | text {s : String} {text : List Char} : IsString s text → IsText (.text s) text
  | list {items : List Json} {text : List Char} : IsParts IsText ']' items text →
      IsText (.list items) ('[' :: text)
  | object {fields : List (String × Json)} {text : List Char} :
      IsParts (IsField IsText) '\x7d' fields text → IsText (.object fields) ('\x7b' :: text)

mutual

/-- All numbers in the value are finite. -/
def AllFinite : Json → Prop
  | .bool _ | .text _ => True
  | .number value => value.isFinite = true
  | .list items => AllFiniteItems items
  | .object fields => AllFiniteFields fields

/-- All numbers in the values are finite. -/
def AllFiniteItems : List Json → Prop
  | [] => True
  | item :: items => item.AllFinite ∧ AllFiniteItems items

/-- All numbers in the fields are finite. -/
def AllFiniteFields : List (String × Json) → Prop
  | [] => True
  | (_, value) :: fields => value.AllFinite ∧ AllFiniteFields fields

end

theorem allFiniteItems_iff {items : List Json} :
    AllFiniteItems items ↔ ∀ item ∈ items, item.AllFinite := by
  induction items with
  | nil => simp [AllFiniteItems]
  | cons item items ih => simp [AllFiniteItems, ih]

/-- A printer prints a JSON text of every value whose numbers are finite. -/
def Prints (printer : Printer) : Prop :=
  ∀ value : Json, value.AllFinite → ∃ text, printer value = .ok text ∧ value.IsText text.toList

end SceneScript.Json
