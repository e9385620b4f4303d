/-!
# Lines of a text

A line ends at a line feed, and a carriage return right before that line feed belongs to the line
end.  The end of the text ends a last line that is not empty, so a text that closes with a line
feed has no empty line after it.
-/

namespace SceneScript.Text

/-- The lines of a text, without their ends. -/
def lines : List Char → List (List Char)
  | [] => []
  | '\r' :: '\n' :: rest => [] :: lines rest
  | c :: rest =>
    if c = '\n' then [] :: lines rest
    else match lines rest with
      | [] => [[c]]
      | line :: more => (c :: line) :: more

/-- The number of line feeds. -/
def lineFeeds (text : List Char) : Nat := text.count '\n'

/-- What stands between the last line feed and the end. -/
def lastLine (text : List Char) : List Char :=
  (text.reverse.takeWhile (· ≠ '\n')).reverse

/-! ## Small facts -/

@[simp] theorem lines_nil : lines [] = [] := rfl

/-- A line feed at the front ends an empty line. -/
@[simp] theorem lines_lineFeed (rest : List Char) : lines ('\n' :: rest) = [] :: lines rest := by
  simp [lines]

@[simp] theorem lines_eq_nil_iff {text : List Char} : lines text = [] ↔ text = [] := by
  fun_cases lines text with
  | case1 => simp
  | case2 rest => simp
  | case3 => simp
  | case4 c rest _ _ h => simp
  | case5 => simp

/-- No line holds a line feed. -/
theorem lineFeed_not_mem_of_mem_lines {text line : List Char} (h : line ∈ lines text) :
    '\n' ∉ line := by
  fun_induction lines text generalizing line with
  | case1 => simp at h
  | case2 rest ih =>
    rcases List.mem_cons.1 h with rfl | h
    · simp
    · exact ih h
  | case3 rest _ ih =>
    rcases List.mem_cons.1 h with rfl | h
    · simp
    · exact ih h
  | case4 c rest _ hc _ _ =>
    obtain rfl : line = [c] := by simpa using h
    simpa using Ne.symm hc
  | case5 c rest _ hc first more hl ih =>
    rw [hl] at ih
    rcases List.mem_cons.1 h with rfl | h
    · have := ih (List.mem_cons_self ..)
      simp [this, Ne.symm hc]
    · exact ih (List.mem_cons_of_mem _ h)

end SceneScript.Text
