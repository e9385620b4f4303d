import Mathlib.Order.Bounds.Defs
import SceneScript.EditDistance
import SceneScript.EditDistance.Script

/-!
# The least number of edits

An edit inserts, deletes or replaces one character anywhere in a text, and `Edits a b n` says that
so many edits, one after the other and in any order, make one text from another.  The edit distance
is the least such number.

The scripts of `EditScript` go through the texts once, from the front, and the least cost of one is
found by what becomes of the first characters.  Edits in any order are no cheaper than such a script: a
single edit of the first text, wherever it is made, brings no text nearer by more than one.

The table goes by the last characters instead.  Its entries are the least costs for the beginnings of
the texts read backwards, and it makes no difference to the number of edits how texts are read.
-/

namespace SceneScript

variable {α : Type}

/-- The second text is the first with a single character inserted, deleted or replaced. -/
inductive SingleEdit : List α → List α → Prop
  | insert (before after : List α) (y : α) : SingleEdit (before ++ after) (before ++ y :: after)
  | delete (before after : List α) (x : α) : SingleEdit (before ++ x :: after) (before ++ after)
  | replace (before after : List α) (x y : α) :
      SingleEdit (before ++ x :: after) (before ++ y :: after)

/-- So many single edits, one after the other, make the second text from the first. -/
inductive Edits : List α → List α → Nat → Prop
  | none (a : List α) : Edits a a 0
  | edit {a b c : List α} {n : Nat} : SingleEdit a b → Edits b c n → Edits a c (n + 1)

/-! ## Edits behind a common beginning -/

theorem SingleEdit.cons {a b : List α} (h : SingleEdit a b) (z : α) :
    SingleEdit (z :: a) (z :: b) := by
  cases h with
  | insert before after y => exact .insert (z :: before) after y
  | delete before after x => exact .delete (z :: before) after x
  | replace before after x y => exact .replace (z :: before) after x y

theorem Edits.cons {a b : List α} {n : Nat} (h : Edits a b n) (z : α) :
    Edits (z :: a) (z :: b) n := by
  induction h with
  | none a => exact .none (z :: a)
  | edit hab _ ih => exact .edit (hab.cons z) ih

/-- A script is carried out one edit at a time, from the front. -/
theorem EditScript.edits {a b : List α} {n : Nat} (h : EditScript a b n) : Edits a b n := by
  induction h with
  | done => exact .none []
  | keep _ ih => exact ih.cons _
  | @replace x y a b n _ ih =>
    have hfirst : SingleEdit (x :: a) (y :: a) := .replace [] a x y
    exact .edit hfirst (ih.cons y)
  | @delete x a b n _ ih =>
    have hfirst : SingleEdit (x :: a) a := .delete [] a x
    exact .edit hfirst ih
  | @insert y a b n _ ih =>
    have hfirst : SingleEdit a (y :: a) := .insert [] a y
    exact .edit hfirst (ih.cons y)

/-! ## By the first characters -/

/-- The least cost, by what is done about the first characters. -/
def suffixDistance [DecidableEq α] : List α → List α → Nat
  | [], b => b.length
  | x :: a, [] => (x :: a).length
  | x :: a, y :: b =>
    min (min (suffixDistance a (y :: b) + 1) (suffixDistance (x :: a) b + 1))
      (suffixDistance a b + if x = y then 0 else 1)
termination_by a b => a.length + b.length

variable [DecidableEq α] {x y : α} {a b c : List α} {m n : Nat}

theorem suffixDistance_nil (b : List α) : suffixDistance [] b = b.length := by
  rw [suffixDistance]

theorem suffixDistance_nil_right (a : List α) : suffixDistance a [] = a.length := by
  cases a with
  | nil => rw [suffixDistance]
  | cons x a => rw [suffixDistance]

theorem suffixDistance_cons_nil (x : α) (a : List α) :
    suffixDistance (x :: a) [] = suffixDistance a [] + 1 := by
  rw [suffixDistance_nil_right, suffixDistance_nil_right, List.length_cons]

/-- The three ways to deal with the first characters of two texts. -/
theorem suffixDistance_cons_cons (x y : α) (a b : List α) :
    suffixDistance (x :: a) (y :: b) =
      min (min (suffixDistance a (y :: b) + 1) (suffixDistance (x :: a) b + 1))
        (suffixDistance a b + if x = y then 0 else 1) := by
  rw [suffixDistance]

theorem suffixDistance_keep_le : suffixDistance (x :: a) (x :: b) ≤ suffixDistance a b := by
  rw [suffixDistance_cons_cons, if_pos rfl]
  omega

theorem suffixDistance_replace_le : suffixDistance (x :: a) (y :: b) ≤ suffixDistance a b + 1 := by
  rw [suffixDistance_cons_cons]
  split <;> omega

theorem suffixDistance_delete_le : suffixDistance (x :: a) b ≤ suffixDistance a b + 1 := by
  cases b with
  | nil => exact Nat.le_of_eq (suffixDistance_cons_nil x a)
  | cons y b =>
    rw [suffixDistance_cons_cons]
    omega

theorem suffixDistance_insert_le : suffixDistance a (y :: b) ≤ suffixDistance a b + 1 := by
  cases a with
  | nil => simp [suffixDistance_nil]
  | cons x a =>
    rw [suffixDistance_cons_cons]
    omega

/-! ## Scripts -/

/-- Some script has the distance as its cost. -/
theorem editScript_suffixDistance (a b : List α) : EditScript a b (suffixDistance a b) := by
  induction a generalizing b with
  | nil =>
    rw [suffixDistance_nil]
    induction b with
    | nil => exact .done
    | cons y b ih => exact .insert ih
  | cons x a iha =>
    induction b with
    | nil =>
      rw [suffixDistance_cons_nil]
      exact .delete (iha [])
    | cons y b ihb =>
      have hdelete : EditScript (x :: a) (y :: b) (suffixDistance a (y :: b) + 1) :=
        .delete (iha (y :: b))
      have hinsert : EditScript (x :: a) (y :: b) (suffixDistance (x :: a) b + 1) := .insert ihb
      have hreplace :
          EditScript (x :: a) (y :: b) (suffixDistance a b + if x = y then 0 else 1) := by
        split
        · rename_i hxy
          subst hxy
          exact .keep (iha b)
        · exact .replace (iha b)
      -- the distance is the least of the three costs, so it is one of them
      have hdistance := suffixDistance_cons_cons x y a b
      have hone : suffixDistance (x :: a) (y :: b) = suffixDistance a (y :: b) + 1
          ∨ suffixDistance (x :: a) (y :: b) = suffixDistance (x :: a) b + 1
          ∨ suffixDistance (x :: a) (y :: b) = suffixDistance a b + if x = y then 0 else 1 := by
        omega
      rcases hone with h | h | h <;> rw [h]
      · exact hdelete
      · exact hinsert
      · exact hreplace

/-- No script is cheaper than the distance. -/
theorem EditScript.suffixDistance_le (h : EditScript a b n) : suffixDistance a b ≤ n := by
  induction h with
  | done => exact Nat.le_of_eq (suffixDistance_nil [])
  | keep _ ih => exact Nat.le_trans suffixDistance_keep_le ih
  | replace _ ih => exact Nat.le_trans suffixDistance_replace_le (Nat.succ_le_succ ih)
  | delete _ ih => exact Nat.le_trans suffixDistance_delete_le (Nat.succ_le_succ ih)
  | insert _ ih => exact Nat.le_trans suffixDistance_insert_le (Nat.succ_le_succ ih)

/-! ## Edits in any order -/

theorem suffixDistance_le_cons (a : List α) (y : α) (c : List α) :
    suffixDistance a c ≤ suffixDistance (y :: a) c + 1 := by
  induction c with
  | nil =>
    rw [suffixDistance_cons_nil]
    omega
  | cons z c ih =>
    have hinsert : suffixDistance a (z :: c) ≤ suffixDistance a c + 1 := suffixDistance_insert_le
    rw [suffixDistance_cons_cons]
    omega

theorem suffixDistance_cons_le_cons (x y : α) (a c : List α) :
    suffixDistance (x :: a) c ≤ suffixDistance (y :: a) c + 1 := by
  induction c with
  | nil =>
    rw [suffixDistance_cons_nil, suffixDistance_cons_nil]
    omega
  | cons z c ih =>
    have hdelete : suffixDistance (x :: a) (z :: c) ≤ suffixDistance a (z :: c) + 1 :=
      suffixDistance_delete_le
    have hinsert : suffixDistance (x :: a) (z :: c) ≤ suffixDistance (x :: a) c + 1 :=
      suffixDistance_insert_le
    have hreplace : suffixDistance (x :: a) (z :: c) ≤ suffixDistance a c + 1 :=
      suffixDistance_replace_le
    rw [suffixDistance_cons_cons y z a c]
    omega

/-- What holds of two texts holds of them behind a common character. -/
theorem suffixDistance_cons_le (z : α) (h : ∀ c, suffixDistance a c ≤ suffixDistance b c + 1)
    (c : List α) : suffixDistance (z :: a) c ≤ suffixDistance (z :: b) c + 1 := by
  induction c with
  | nil =>
    have hnil := h []
    rw [suffixDistance_cons_nil, suffixDistance_cons_nil]
    omega
  | cons w c ih =>
    have hdelete := h (w :: c)
    have hreplace := h c
    rw [suffixDistance_cons_cons z w a c, suffixDistance_cons_cons z w b c]
    omega

/-- With a single edit first, a text is no farther than one more. -/
theorem SingleEdit.suffixDistance_le (h : SingleEdit a b) (c : List α) :
    suffixDistance a c ≤ suffixDistance b c + 1 := by
  cases h with
  | insert before after y =>
    induction before generalizing c with
    | nil => exact suffixDistance_le_cons after y c
    | cons z before ih => exact suffixDistance_cons_le z ih c
  | delete before after x =>
    induction before generalizing c with
    | nil => exact suffixDistance_delete_le
    | cons z before ih => exact suffixDistance_cons_le z ih c
  | replace before after x y =>
    induction before generalizing c with
    | nil => exact suffixDistance_cons_le_cons x y after c
    | cons z before ih => exact suffixDistance_cons_le z ih c

/-- No sequence of edits is shorter than the distance. -/
theorem Edits.suffixDistance_le (h : Edits a b n) : suffixDistance a b ≤ n := by
  induction h with
  | none a => exact (EditScript.refl a).suffixDistance_le
  | @edit a b c n hab _ ih =>
    calc suffixDistance a c ≤ suffixDistance b c + 1 := hab.suffixDistance_le c
      _ ≤ n + 1 := Nat.succ_le_succ ih

theorem isLeast_suffixDistance (a b : List α) :
    IsLeast {n | Edits a b n} (suffixDistance a b) :=
  ⟨(editScript_suffixDistance a b).edits, fun _ h => h.suffixDistance_le⟩

/-! ## Texts read backwards -/

omit [DecidableEq α] in
theorem SingleEdit.reverse (h : SingleEdit a b) : SingleEdit a.reverse b.reverse := by
  cases h with
  | insert before after y =>
    simpa using SingleEdit.insert after.reverse before.reverse y
  | delete before after x =>
    simpa using SingleEdit.delete after.reverse before.reverse x
  | replace before after x y =>
    simpa using SingleEdit.replace after.reverse before.reverse x y

omit [DecidableEq α] in
theorem Edits.reverse (h : Edits a b n) : Edits a.reverse b.reverse n := by
  induction h with
  | none a => exact .none a.reverse
  | edit hab _ ih => exact .edit hab.reverse ih

/-- Texts are as far from each other as they are when they are read backwards. -/
theorem suffixDistance_reverse (a b : List α) :
    suffixDistance a.reverse b.reverse = suffixDistance a b := by
  have hle : ∀ a b : List α, suffixDistance a.reverse b.reverse ≤ suffixDistance a b :=
    fun a b => (isLeast_suffixDistance a.reverse b.reverse).2
      (isLeast_suffixDistance a b).1.reverse
  refine Nat.le_antisymm (hle a b) ?_
  simpa using hle a.reverse b.reverse

/-! ## The table -/

/-- What a row of the table holds, from some place on: the first text is given backwards, and so is
the beginning of the second text at the place. -/
def prefixDistances (u : List α) : List α → List α → List Nat
  | v, [] => [suffixDistance u v]
  | v, y :: b => suffixDistance u v :: prefixDistances u (y :: v) b

theorem prefixDistances_eq_cons (u v b : List α) :
    prefixDistances u v b = suffixDistance u v :: (prefixDistances u v b).tail := by
  cases b <;> rfl

/-- The first row holds the lengths of the beginnings. -/
theorem prefixDistances_nil (v b : List α) :
    prefixDistances [] v b = List.range' v.length (b.length + 1) := by
  induction b generalizing v with
  | nil => simp [prefixDistances, suffixDistance_nil]
  | cons y b ih =>
    rw [prefixDistances, ih, suffixDistance_nil]
    rfl

/-- The entries of a row are right if the entry before them and the row above are. -/
theorem editEntries_prefixDistances (x : α) (u v b : List α) :
    editEntries x (suffixDistance (x :: u) v) b (prefixDistances u v b)
      = (prefixDistances (x :: u) v b).tail := by
  induction b generalizing v with
  | nil => rfl
  | cons y b ih =>
    rw [prefixDistances, prefixDistances, List.tail_cons, prefixDistances_eq_cons u (y :: v) b,
      editEntries, ← prefixDistances_eq_cons, ← suffixDistance_cons_cons, ih,
      ← prefixDistances_eq_cons]

theorem editRow_prefixDistances (x : α) (u b : List α) :
    editRow b (prefixDistances u [] b) x = prefixDistances (x :: u) [] b := by
  have hfirst : (prefixDistances u [] b).headD 0 + 1 = suffixDistance (x :: u) [] := by
    rw [prefixDistances_eq_cons, suffixDistance_cons_nil]
    rfl
  unfold editRow
  dsimp only
  rw [hfirst, editEntries_prefixDistances, ← prefixDistances_eq_cons]

/-- Each row holds the distances for the characters that were read until then. -/
theorem foldl_editRow (a u b : List α) :
    a.foldl (editRow b) (prefixDistances u [] b) = prefixDistances (a.reverse ++ u) [] b := by
  -- on the characters for which a row is still to be made
  induction a generalizing u with
  | nil => rfl
  | cons x a ih =>
    rw [List.foldl_cons, editRow_prefixDistances, ih, List.reverse_cons, List.append_assoc,
      List.singleton_append]

theorem getLastD_prefixDistances (u v b : List α) (default : Nat) :
    (prefixDistances u v b).getLastD default = suffixDistance u (b.reverse ++ v) := by
  induction b generalizing v default with
  | nil => rfl
  | cons y b ih =>
    rw [prefixDistances, List.getLastD_cons, ih, List.reverse_cons, List.append_assoc,
      List.singleton_append]

/-- The last entry of the table is the least cost. -/
theorem editDistance_eq_suffixDistance (a b : List α) :
    editDistance a b = suffixDistance a b := by
  unfold editDistance
  by_cases ha : a = []
  · rw [if_pos ha, ha, suffixDistance_nil]
  by_cases hb : b = []
  · rw [if_neg ha, if_pos hb, hb, suffixDistance_nil_right]
  · rw [if_neg ha, if_neg hb]
    have hfirst : List.range (b.length + 1) = prefixDistances [] [] b := by
      rw [prefixDistances_nil, List.length_nil, List.range_eq_range']
    rw [lastEditRow, hfirst, foldl_editRow, getLastD_prefixDistances, List.append_nil,
      List.append_nil, suffixDistance_reverse]

/-- The edit distance is the least number of single-character insertions, deletions and
replacements, in any order, that make the second text from the first. -/
theorem isLeast_editDistance (a b : List α) : IsLeast {n | Edits a b n} (editDistance a b) := by
  rw [editDistance_eq_suffixDistance]
  exact isLeast_suffixDistance a b

example : editDistance "sphere".toList "shpere".toList = 2 := by decide

end SceneScript
