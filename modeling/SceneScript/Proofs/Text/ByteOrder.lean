/-!
# The order of bytes

Texts are compared character by character, and the characters by their code points.  Their bytes in
UTF-8 are in the same order, so sorted texts are sorted as bytes.
-/

namespace SceneScript.Text

/-- The bytes of a text. -/
def bytes (s : String) : List UInt8 := s.toUTF8.data.toList

theorem bytes_eq (s : String) : bytes s = s.toList.flatMap String.utf8EncodeChar := by
  have hencode : s.toUTF8 = s.toList.utf8Encode := by
    rw [String.toUTF8_eq_toByteArray, ← String.toByteArray_ofList, String.ofList_toList]
  rw [bytes, hencode, List.utf8Encode, List.data_toByteArray]

/-- The first byte in which two characters differ is less where the code point is. -/
theorem encode_append_lt {c d : Char} (h : c < d) (u v : List UInt8) :
    String.utf8EncodeChar c ++ u < String.utf8EncodeChar d ++ v := by
  have hlt : c.val.toNat < d.val.toNat := h
  have hvalid : d.val.toNat < 0x110000 := by
    have hscalar := d.valid
    simp only [UInt32.isValidChar, Nat.isValidChar] at hscalar
    omega
  unfold String.utf8EncodeChar
  generalize c.val.toNat = m at hlt ⊢
  generalize d.val.toNat = n at hlt hvalid ⊢
  -- the bytes behind the first hold six bits each, so they are digits to the base 64
  have hdigits : ∀ k, k / 4096 = k / 64 / 64 ∧ k / 262144 = k / 64 / 64 / 64 := by
    intro k
    constructor <;> simp only [Nat.div_div_eq_div_mul]
  have hlast : m / 64 < n / 64 ∨ m / 64 = n / 64 ∧ m % 64 < n % 64 := by omega
  dsimp only
  rw [(hdigits m).1, (hdigits m).2, (hdigits n).1, (hdigits n).2]
  -- a character of fewer bytes has the lesser first byte, else the digits decide
  repeat' split
  all_goals
    simp only [List.cons_append, List.nil_append, List.cons_lt_cons_iff, UInt8.lt_iff_toNat_lt,
      UInt8.toNat_ofNat', ← UInt8.toNat_inj]
    omega

theorem flatMap_encode_lt {a b : List Char} (h : a < b) :
    a.flatMap String.utf8EncodeChar < b.flatMap String.utf8EncodeChar := by
  induction b generalizing a with
  | nil => cases h
  | cons d b ih =>
    cases a with
    | nil =>
      rw [List.flatMap_nil, List.flatMap_cons]
      have hne : String.utf8EncodeChar d ≠ [] := by
        rw [← List.length_pos_iff, String.length_utf8EncodeChar]
        exact d.utf8Size_pos
      obtain ⟨first, more, hd⟩ := List.exists_cons_of_ne_nil hne
      rw [hd]
      exact .nil
    | cons c a =>
      rw [List.flatMap_cons, List.flatMap_cons]
      rcases List.cons_lt_cons_iff.1 h with hlt | ⟨rfl, hlt⟩
      · exact encode_append_lt hlt _ _
      · exact List.append_left_lt (ih hlt)

/-- The bytes of texts are in the order of the texts. -/
theorem bytes_lt_of_lt {a b : String} (h : a < b) : bytes a < bytes b := by
  have hlist : a.toList < b.toList := h
  rw [bytes_eq, bytes_eq]
  exact flatMap_encode_lt hlist

end SceneScript.Text
