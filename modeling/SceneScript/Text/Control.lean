/-!
# Controls of a terminal

A character at which a terminal does something, rather than show it: ring, step back, start a page,
or read what follows as an instruction.  Lines of a log are looked at in terminals and tell about
files that anyone may have written, so such a character is written as its number there.  Controls
that a terminal passes over, and those that separate lines and columns, stay as they are.
-/

namespace SceneScript.Text

/-- Bell, backspace, form feed, escape, delete, and the controls from U+0080 to U+009F. -/
def isTerminalControl (c : Char) : Bool :=
  let n := c.toNat
  n == 0x7 || n == 0x8 || n == 0xc || n == 0x1b || (0x7f ≤ n && n ≤ 0x9f)

/-- A character of a log line.  Both forms of a number have two hexadecimal digits. -/
def escapeControl (c : Char) : List Char :=
  if isTerminalControl c then
    let digits := [Nat.digitChar (c.toNat / 16), Nat.digitChar (c.toNat % 16)]
    if c.toNat < 0x80 then '\\' :: 'x' :: digits
    else '\\' :: 'u' :: '\x7b' :: (digits ++ ['\x7d'])
  else [c]

/-- A text with the controls of a terminal written as their numbers. -/
def escapeControls (text : String) : String :=
  String.ofList (text.toList.flatMap escapeControl)

end SceneScript.Text
