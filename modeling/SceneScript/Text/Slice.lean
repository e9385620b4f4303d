import SceneScript.Text.Bytes

/-!
# Slices at byte offsets

A text is sliced at a byte offset that is between two of its characters, or at one of its ends.
Anywhere else there is no slice, and who asks for one cannot go on.
-/

namespace SceneScript.Text

/-- The text before a byte offset and the text from there on. -/
def splitAt? : Nat → List Char → Option (List Char × List Char)
  | 0, text => some ([], text)
  | _ + 1, [] => none
  | offset + 1, c :: rest =>
    if offset + 1 < c.utf8Size then none
    else (splitAt? (offset + 1 - c.utf8Size) rest).map fun (front, back) => (c :: front, back)

/-- The slice from a byte offset on. -/
def sliceFrom? (offset : Nat) (text : List Char) : Option (List Char) :=
  (splitAt? offset text).map Prod.snd

/-- The slice up to a byte offset. -/
def sliceTo? (offset : Nat) (text : List Char) : Option (List Char) :=
  (splitAt? offset text).map Prod.fst

/-- The byte offset of the first character of a kind. -/
def find? (p : Char → Bool) : List Char → Option Nat
  | [] => none
  | c :: rest => if p c then some 0 else (find? p rest).map (c.utf8Size + ·)

/-! ## Small facts -/

/-- Between two parts of it a text is sliced into them. -/
theorem splitAt?_byteLength_append (front back : List Char) :
    splitAt? (byteLength front) (front ++ back) = some (front, back) := by
  induction front with
  | nil => rw [byteLength_nil, List.nil_append, splitAt?]
  | cons c front ih =>
    have hc := c.utf8Size_pos
    obtain ⟨offset, hoffset⟩ : ∃ offset, byteLength (c :: front) = offset + 1 :=
      ⟨byteLength (c :: front) - 1, by rw [byteLength_cons]; omega⟩
    have hrest : offset + 1 - c.utf8Size = byteLength front := by
      rw [← hoffset, byteLength_cons, Nat.add_sub_cancel_left]
    have hlong : ¬offset + 1 < c.utf8Size := by
      rw [← hoffset, byteLength_cons]
      omega
    rw [hoffset, List.cons_append, splitAt?, if_neg hlong, hrest, ih, Option.map_some]

/-- A text is sliced nowhere else. -/
theorem eq_of_splitAt? {offset : Nat} {text front back : List Char}
    (h : splitAt? offset text = some (front, back)) :
    text = front ++ back ∧ offset = byteLength front := by
  fun_induction splitAt? offset text generalizing front with
  | case1 => cases h; exact ⟨rfl, rfl⟩
  | case2 => cases h
  | case3 => cases h
  | case4 offset c rest hlong ih =>
    obtain ⟨⟨first, second⟩, hsplit, heq⟩ := Option.map_eq_some_iff.1 h
    cases heq
    obtain ⟨hrest, hoffset⟩ := ih hsplit
    rw [byteLength_cons, ← hoffset, hrest]
    exact ⟨rfl, by omega⟩

/-- Between two parts of a text there is a slice. -/
theorem sliceFrom?_append (front back : List Char) :
    sliceFrom? (byteLength front) (front ++ back) = some back := by
  rw [sliceFrom?, splitAt?_byteLength_append, Option.map_some]

theorem sliceFrom?_of_prefix {front text : List Char} (h : front <+: text) :
    sliceFrom? (byteLength front) text = some (text.drop front.length) := by
  obtain ⟨back, rfl⟩ := h
  rw [sliceFrom?_append, List.drop_left]

theorem sliceTo?_of_prefix {front text : List Char} (h : front <+: text) :
    sliceTo? (byteLength front) text = some front := by
  obtain ⟨back, rfl⟩ := h
  rw [sliceTo?, splitAt?_byteLength_append, Option.map_some]

/-- The first character of a kind is behind the others. -/
theorem find?_eq (p : Char → Bool) (text : List Char) : find? p text
    = if text.any p then some (byteLength (text.takeWhile (!p ·))) else none := by
  induction text with
  | nil => rfl
  | cons c rest ih =>
    rw [find?, ih]
    by_cases hc : p c = true <;> by_cases hrest : rest.any p = true <;> simp [hc, hrest]

/-- Up to the first character of a kind, or to the end. -/
theorem find?_getD (p : Char → Bool) (text : List Char) :
    (find? p text).getD (byteLength text) = byteLength (text.takeWhile (!p ·)) := by
  induction text with
  | nil => rfl
  | cons c rest ih =>
    rw [find?]
    by_cases hc : p c = true
    · simp [hc]
    · cases hrest : find? p rest <;> simp [hrest, hc] at ih ⊢ <;> omega

end SceneScript.Text
