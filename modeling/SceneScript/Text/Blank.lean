/-!
# Blank characters

A character is blank when it has Unicode's `White_Space` property.  Blanks separate the tokens of
a scene, are trimmed from the lines of a settings file, and are dropped from the end of a quoted
source line.
-/

namespace SceneScript.Text

/-- The twenty-five characters with the `White_Space` property. -/
def isBlank (c : Char) : Bool :=
  let n := c.toNat
  (0x9 ≤ n && n ≤ 0xd) || n == 0x20 || n == 0x85 || n == 0xa0 || n == 0x1680
    || (0x2000 ≤ n && n ≤ 0x200a) || n == 0x2028 || n == 0x2029 || n == 0x202f
    || n == 0x205f || n == 0x3000

/-- A text without the blanks at its end. -/
def trimEnd (text : List Char) : List Char :=
  (text.reverse.dropWhile isBlank).reverse

/-- A text without the blanks at its two ends. -/
def trim (text : List Char) : List Char :=
  trimEnd (text.dropWhile isBlank)

/-! ## Small facts -/

/-- What trimming leaves at the end is no blank. -/
theorem isBlank_getLast?_trimEnd {text : List Char} {c : Char}
    (h : (trimEnd text).getLast? = some c) : isBlank c = false := by
  rw [trimEnd, List.getLast?_reverse] at h
  have hstop := List.head?_dropWhile_not isBlank text.reverse
  rw [h] at hstop
  simpa using hstop

end SceneScript.Text
