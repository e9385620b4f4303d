import SceneScript.Number.Decimal

/-!
# Words with a closed choice

The colors, the kinds of solid, the transformations, the commands and the operators, each with the
word or symbol that a scene has for it.
-/

namespace SceneScript

/-! ## Colors -/

/-- The colors that have names. -/
inductive Color where
  | red | orange | yellow | green | blue | purple | black | white
  deriving DecidableEq

namespace Color

/-- All colors, in the order in which they are tried. -/
def all : List Color := [red, orange, yellow, green, blue, purple, black, white]

/-- The word for the color. -/
def text : Color → String
  | red => "red"
  | orange => "orange"
  | yellow => "yellow"
  | green => "green"
  | blue => "blue"
  | purple => "purple"
  | black => "black"
  | white => "white"

/-- The shares of red, green and blue. -/
def rgb (c : Color) : Binary64 × Binary64 × Binary64 :=
  let none := (Decimal.mk 0 0).toBinary64 false
  let half := (Decimal.mk 5 (-1)).toBinary64 false
  let full := (Decimal.mk 1 0).toBinary64 false
  match c with
  | red => (full, none, none)
  | orange => (full, half, none)
  | yellow => (full, full, none)
  | green => (none, full, none)
  | blue => (none, none, full)
  | purple => (full, none, full)
  | black => (none, none, none)
  | white => (full, full, full)

theorem mem_all (c : Color) : c ∈ all := by cases c <;> decide

theorem text_injective (a b : Color) : a.text = b.text → a = b := by
  cases a <;> cases b <;> decide

end Color

/-! ## Solids and what is done with them -/

/-- The kinds of solid. -/
inductive Solid where
  | sphere | plane | csg | cube
  deriving DecidableEq

namespace Solid

/-- All solids, in the order in which they are tried. -/
def all : List Solid := [sphere, plane, csg, cube]

/-- The word for the kind. -/
def text : Solid → String
  | sphere => "sphere"
  | plane => "plane"
  | csg => "csg"
  | cube => "cube"

theorem mem_all (k : Solid) : k ∈ all := by cases k <;> decide

theorem text_injective (a b : Solid) : a.text = b.text → a = b := by
  cases a <;> cases b <;> decide

end Solid

/-- The ways to move a part of a scene. -/
inductive Transform where
  | scale | rotate | translate
  deriving DecidableEq

namespace Transform

/-- All ways to move something, in the order in which they are tried. -/
def all : List Transform := [scale, rotate, translate]

/-- The word for the kind. -/
def text : Transform → String
  | scale => "scale"
  | rotate => "rotate"
  | translate => "translate"

theorem mem_all (k : Transform) : k ∈ all := by cases k <;> decide

theorem text_injective (a b : Transform) : a.text = b.text → a = b := by
  cases a <;> cases b <;> decide

end Transform

/-- The commands that take any arguments. -/
inductive Command where
  | draw | display | append
  deriving DecidableEq

namespace Command

/-- All commands, in the order in which they are tried. -/
def all : List Command := [draw, display, append]

/-- The word for the command. -/
def text : Command → String
  | draw => "draw"
  | display => "display"
  | append => "append"

theorem mem_all (c : Command) : c ∈ all := by cases c <;> decide

theorem text_injective (a b : Command) : a.text = b.text → a = b := by
  cases a <;> cases b <;> decide

end Command

/-- How two solids are combined.  The word is the text of a string argument. -/
inductive Combination where
  | union | intersection | difference
  deriving DecidableEq

/-- A word that names no combination of solids. -/
structure UnknownCombination where
  word : String
  deriving DecidableEq

/-- What is said about a combination that does not exist. -/
def UnknownCombination.message (e : UnknownCombination) : String :=
  "unknown CSG operator '" ++ e.word ++ "', expected 'union', 'intersection' or 'difference'"

namespace Combination

/-- The word for the combination. -/
def text : Combination → String
  | union => "union"
  | intersection => "intersection"
  | difference => "difference"

/-- The combination that a word stands for. -/
def ofText (word : String) : Except UnknownCombination Combination :=
  match [union, intersection, difference].find? (·.text == word) with
  | some op => .ok op
  | none => .error ⟨word⟩

end Combination

/-! ## Operators -/

/-- What can stand between two values. -/
inductive Operator where
  | add | subtract | multiply | divide | modulo | lessThan | greaterThan
  deriving DecidableEq

namespace Operator

/-- How the operator is spelled. -/
def symbol : Operator → String
  | add => "+"
  | subtract => "-"
  | multiply => "*"
  | divide => "/"
  | modulo => "%"
  | lessThan => "<"
  | greaterThan => ">"

/-- How strongly the operator binds. -/
def precedence : Operator → Nat
  | lessThan | greaterThan => 1
  | add | subtract => 2
  | multiply | divide | modulo => 3

/-- The operator compares, which it may in conditions alone. -/
def isComparison (op : Operator) : Bool := op.precedence == 1

end Operator

end SceneScript
