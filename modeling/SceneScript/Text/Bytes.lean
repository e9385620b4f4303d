/-!
# Byte offsets

Places in a source are counted in bytes of its UTF-8 form, while texts are lists of characters.
-/

namespace SceneScript.Text

-- the zero of a sum of naturals is the core's own, whatever else is imported
attribute [local instance (high)] Zero.ofOfNat0

/-- The length of a text in bytes. -/
def byteLength (text : List Char) : Nat := (text.map Char.utf8Size).sum

/-- What follows the first `offset` bytes.  An offset inside a character takes the character
away. -/
def dropBytes : Nat → List Char → List Char
  | _, [] => []
  | offset, c :: rest => if offset = 0 then c :: rest else dropBytes (offset - c.utf8Size) rest

/-- The characters of the first `offset` bytes. -/
def takeBytes : Nat → List Char → List Char
  | _, [] => []
  | offset, c :: rest => if offset = 0 then [] else c :: takeBytes (offset - c.utf8Size) rest

/-! ## Small facts -/

@[simp] theorem byteLength_nil : byteLength [] = 0 := rfl

@[simp] theorem byteLength_cons (c : Char) (rest : List Char) :
    byteLength (c :: rest) = c.utf8Size + byteLength rest := by
  simp [byteLength]

@[simp] theorem byteLength_append (first second : List Char) :
    byteLength (first ++ second) = byteLength first + byteLength second := by
  simp [byteLength]

/-- Every character has a byte at least. -/
theorem byteLength_eq_zero_iff {text : List Char} : byteLength text = 0 ↔ text = [] := by
  cases text with
  | nil => simp
  | cons c rest => have := c.utf8Size_pos; simp; omega

@[simp] theorem dropBytes_zero (text : List Char) : dropBytes 0 text = text := by
  cases text <;> simp [dropBytes]

@[simp] theorem takeBytes_zero (text : List Char) : takeBytes 0 text = [] := by
  cases text <;> simp [takeBytes]

/-- The length of a first part is the offset where the second begins. -/
@[simp] theorem dropBytes_byteLength_append (first second : List Char) :
    dropBytes (byteLength first) (first ++ second) = second := by
  induction first with
  | nil => simp
  | cons c rest ih =>
    have hc : c.utf8Size ≠ 0 := Nat.ne_of_gt c.utf8Size_pos
    simp [dropBytes, hc, ih]

/-- The length of a first part is the offset where it ends. -/
@[simp] theorem takeBytes_byteLength_append (first second : List Char) :
    takeBytes (byteLength first) (first ++ second) = first := by
  induction first with
  | nil => simp
  | cons c rest ih =>
    have hc : c.utf8Size ≠ 0 := Nat.ne_of_gt c.utf8Size_pos
    simp [takeBytes, hc, ih]

end SceneScript.Text
