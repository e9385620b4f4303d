import SceneScript.Text.Blank

/-!
# Trivia

What separates tokens: blanks, and comments that start with two slashes and run to the end of
their line or of the source.
-/

namespace SceneScript

/-- The number of characters of trivia at the front of a text, which may begin inside a comment.
The line feed that ends a comment belongs to it. -/
def triviaFrom (inComment : Bool) : List Char → Nat
  | [] => 0
  | c :: rest =>
    if inComment then triviaFrom (c != '\n') rest + 1
    else if Text.isBlank c then triviaFrom false rest + 1
    else if c = '/' ∧ rest.head? = some '/' then triviaFrom true rest + 1
    else 0

/-- The number of characters of trivia at the front of a text. -/
def triviaLength (text : List Char) : Nat := triviaFrom false text

/-! ## Small facts -/

theorem triviaFrom_le_length (inComment : Bool) (text : List Char) :
    triviaFrom inComment text ≤ text.length := by
  induction text generalizing inComment with
  | nil => simp [triviaFrom]
  | cons c rest ih =>
    have h1 := ih (c != '\n')
    have h2 := ih false
    have h3 := ih true
    simp only [triviaFrom, List.length_cons]
    split
    · omega
    · split
      · omega
      · split <;> omega

/-- No trivia is left after the trivia, at least when the text does not begin inside a comment. -/
theorem triviaLength_drop_triviaFrom (inComment : Bool) (text : List Char) :
    triviaLength (text.drop (triviaFrom inComment text)) = 0 := by
  induction text generalizing inComment with
  | nil => simp [triviaLength, triviaFrom]
  | cons c rest ih =>
    rw [triviaFrom]
    split
    · simpa using ih _
    · split
      · simpa using ih _
      · split
        · simpa using ih _
        · simp_all [triviaLength, triviaFrom]

end SceneScript
