/-!
# Edit distance

The least number of characters to insert, delete or replace to make one text from another.  The
distances of the beginnings of the one text to the beginnings of the other are put in a table, row by
row, so that each is computed once.  Of the table only the row above is kept.
-/

namespace SceneScript

/-- The entries of a row that come after an entry, for the characters that are left of the second
text.  What is given of the row above begins over the entry. -/
def editEntries {α : Type} [DecidableEq α] (x : α) (entry : Nat) : List α → List Nat → List Nat
  | y :: b, corner :: above :: row =>
    let next := min (min (above + 1) (entry + 1)) (corner + if x = y then 0 else 1)
    next :: editEntries x next b (above :: row)
  | _, _ => []

/-- The row for one more character of the first text, from the row above. -/
def editRow {α : Type} [DecidableEq α] (b : List α) (row : List Nat) (x : α) : List Nat :=
  let first := row.headD 0 + 1
  first :: editEntries x first b row

/-- The last row of the table: the distances of the first text to the beginnings of the second. -/
def lastEditRow {α : Type} [DecidableEq α] (a b : List α) : List Nat :=
  a.foldl (editRow b) (List.range (b.length + 1))

/-- The edit distance of two texts. -/
def editDistance {α : Type} [DecidableEq α] (a b : List α) : Nat :=
  if a = [] then b.length
  else if b = [] then a.length
  else (lastEditRow a b).getLastD 0

end SceneScript
