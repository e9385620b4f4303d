/-!
# Edit scripts

A way to make one text from another, character by character: characters are kept, or at the cost
of one each inserted, deleted or replaced.
-/

namespace SceneScript

/-- The first text can be made into the second at the cost given. -/
inductive EditScript {α : Type} : List α → List α → Nat → Prop
  | done : EditScript [] [] 0
  | keep {x : α} {a b : List α} {cost : Nat} :
      EditScript a b cost → EditScript (x :: a) (x :: b) cost
  | replace {x y : α} {a b : List α} {cost : Nat} :
      EditScript a b cost → EditScript (x :: a) (y :: b) (cost + 1)
  | delete {x : α} {a b : List α} {cost : Nat} :
      EditScript a b cost → EditScript (x :: a) b (cost + 1)
  | insert {y : α} {a b : List α} {cost : Nat} :
      EditScript a b cost → EditScript a (y :: b) (cost + 1)

namespace EditScript

variable {α : Type}

/-- A text is made into itself at no cost. -/
theorem refl (a : List α) : EditScript a a 0 := by
  induction a with
  | nil => exact .done
  | cons x a ih => exact .keep ih

/-- A script read backwards makes the first text from the second. -/
theorem symm {a b : List α} {cost : Nat} (h : EditScript a b cost) : EditScript b a cost := by
  induction h with
  | done => exact .done
  | keep _ ih => exact .keep ih
  | replace _ ih => exact .replace ih
  | delete _ ih => exact .insert ih
  | insert _ ih => exact .delete ih

/-- The lengths of the two texts differ by no more than the cost. -/
theorem length_le {a b : List α} {cost : Nat} (h : EditScript a b cost) :
    b.length ≤ a.length + cost := by
  induction h with
  | done => simp
  | keep _ ih => simp; omega
  | replace _ ih => simp; omega
  | delete _ ih => simp; omega
  | insert _ ih => simp; omega

end EditScript

end SceneScript
