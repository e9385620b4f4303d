import Mathlib.Data.List.MinMax
import SceneScript.Proofs.Cursor.Next
import SceneScript.Proofs.EditDistance
import SceneScript.Suggestion

/-!
# The nearest keyword

Only keywords of about the length of a word are compared with it.  For texts in ASCII, where bytes
are characters, that makes no difference: a keyword that is longer or shorter by more than two
characters is more than two edits away, and so it would not be suggested either.  What is suggested
is the first of the nearest among all keywords, if it is near enough.
-/

namespace SceneScript

namespace Text

/-- All characters are in ASCII. -/
def IsAscii (text : List Char) : Prop := ∀ c ∈ text, c.toNat < 0x80

-- by the characters of the text, not by all characters that there are
instance (text : List Char) : Decidable (IsAscii text) :=
  List.decidableBAll (fun c : Char => c.toNat < 0x80) text

/-- A text in ASCII has a byte for each character. -/
theorem IsAscii.byteLength_eq {text : List Char} (h : IsAscii text) :
    byteLength text = text.length := by
  induction text with
  | nil => rfl
  | cons c text ih =>
    have hfirst : c.toNat < 0x80 := h c (List.mem_cons_self ..)
    have hone : c.utf8Size = 1 := by
      rw [Char.utf8Size_eq_one_iff, UInt32.le_iff_toNat_le]
      show c.toNat ≤ 127
      omega
    rw [byteLength_cons, hone, ih fun d hd => h d (List.mem_cons_of_mem _ hd), List.length_cons]
    omega

end Text

/-- The words that stand in a source are in ASCII, whatever else stands there. -/
theorem Cursor.isAscii_of_word? {c : Cursor} {word : String} (h : c.word? = some word) :
    Text.IsAscii word.toList := by
  rw [toList_of_word? h]
  intro x hx
  have hword : isWordChar x = true := List.all_eq_true.1 List.all_takeWhile x hx
  have hrange := toNat_of_isWordChar hword
  omega

/-! ## The search -/

/-- The nearest of some keywords with their distances and the one given, the first one if several
are. -/
def nearestFrom (best : Option (String × Nat)) (keywords : List (String × Nat)) :
    Option (String × Nat) :=
  keywords.foldl (fun best next =>
    match best with
    | none => some next
    | some (_, distance) => if next.2 < distance then some next else best) best

/-- The keywords that may be suggested for a word. -/
def candidates (word : String) (keywords : List String) : List String :=
  (keywords.filter (isNear word)).filter
    (spellingDistance word · ≤ tolerance (Text.byteLength word.toList))

/-- The nearest of some keywords and of a keyword that has been found before. -/
def nearestKeyword (word : String) (best : Option (String × Nat)) (keywords : List String) :
    Option String :=
  (nearestFrom best (keywords.map fun keyword => (keyword, spellingDistance word keyword))).map (·.1)

theorem isNear_self (word : String) : isNear word word = true := by
  simp [isNear]

theorem candidates_cons (word keyword : String) (keywords : List String) :
    candidates word (keyword :: keywords) =
      if isNear word keyword ∧ spellingDistance word keyword
          ≤ tolerance (Text.byteLength word.toList)
      then keyword :: candidates word keywords
      else candidates word keywords := by
  unfold candidates
  by_cases hnear : isNear word keyword = true
  · rw [List.filter_cons_of_pos hnear, List.filter_cons]
    simp [hnear]
  · rw [List.filter_cons_of_neg hnear, if_neg fun h => hnear h.1]

theorem nearestKeyword_cons_none (word keyword : String) (keywords : List String) :
    nearestKeyword word none (keyword :: keywords)
      = nearestKeyword word (some (keyword, spellingDistance word keyword)) keywords := rfl

theorem nearestKeyword_cons_some (word keyword : String) (best : String × Nat)
    (keywords : List String) : nearestKeyword word (some best) (keyword :: keywords)
      = nearestKeyword word (if spellingDistance word keyword < best.2
          then some (keyword, spellingDistance word keyword) else some best) keywords := rfl

/-- A search that ends at the word itself finds the nearest candidate, unless the word is a keyword. -/
theorem suggestFrom_eq (word : String) (best : Option (String × Nat)) (keywords : List String) :
    suggestFrom word best keywords = if word ∈ keywords then none
      else nearestKeyword word best (candidates word keywords) := by
  induction keywords generalizing best with
  | nil => rfl
  | cons keyword keywords ih =>
    by_cases hword : word = keyword
    · subst hword
      -- the word itself is near to itself, and ends the scan
      rw [if_pos (List.mem_cons_self ..)]
      simp [suggestFrom, isNear_self]
    have hmem : word ∈ keyword :: keywords ↔ word ∈ keywords := by simp [hword]
    rw [suggestFrom, candidates_cons, if_congr hmem rfl rfl]
    by_cases hnear : isNear word keyword = true
    · by_cases hle : spellingDistance word keyword ≤ tolerance (Text.byteLength word.toList)
      · -- a candidate, which is kept if it is nearer than the best one so far
        cases best with
        | none => simp [hnear, hword, hle, ih, nearestKeyword_cons_none]
        | some best =>
          by_cases hless : spellingDistance word keyword < best.2 <;>
            simp [hnear, hword, hle, hless, ih, nearestKeyword_cons_some]
      · simp [hnear, hword, hle, ih]
    · simp [hnear, ih]

/-- Nothing is suggested for a keyword, wherever it stands among the keywords. -/
theorem suggest_eq (word : String) (keywords : List String) :
    suggest word keywords =
      if Text.byteLength word.toList ≤ 2 ∨ word ∈ keywords then none
      else nearestKeyword word none (candidates word keywords) := by
  unfold suggest
  rw [suggestFrom_eq]
  by_cases hshort : Text.byteLength word.toList ≤ 2
  · rw [if_pos hshort, if_pos (.inl hshort)]
  · simp [hshort]

/-! ## The first of the least -/

variable {α : Type} (f : α → Nat)

theorem nearestFrom_eq_argmin (keywords : List (String × Nat)) :
    nearestFrom none keywords = keywords.argmin (·.2) := by
  unfold nearestFrom List.argmin
  congr 1
  funext best next
  cases best <;> rfl

/-- The least of some values that come with their measures is the least of what is measured. -/
theorem argmin_map_pair (l : List α) :
    (l.map fun x => (x, f x)).argmin (·.2) = (l.argmin f).map fun x => (x, f x) := by
  induction l with
  | nil => rfl
  | cons x l ih =>
    rw [List.map_cons, List.argmin_cons, List.argmin_cons, ih]
    cases l.argmin f with
    | none => rfl
    | some y =>
      show (if f y < f x then some (y, f y) else some (x, f x)) = Option.map _ (if _ then _ else _)
      split <;> rfl

theorem nearestKeyword_eq_argmin (word : String) (keywords : List String) :
    nearestKeyword word none keywords = keywords.argmin (spellingDistance word) := by
  unfold nearestKeyword
  rw [nearestFrom_eq_argmin, argmin_map_pair, Option.map_map]
  exact congrFun Option.map_id _

/-- What is past a bound does not count for the least if that is within it. -/
theorem argmin_filter_le (bound : Nat) (l : List α) :
    (l.filter (f · ≤ bound)).argmin f = (l.argmin f).filter (f · ≤ bound) := by
  have hpick : ∀ y, (some y).filter (f · ≤ bound) = if f y ≤ bound then some y else none := by
    intro y
    simp only [Option.filter_some, decide_eq_true_eq]
  induction l with
  | nil => rfl
  | cons x l ih =>
    rw [List.argmin_cons]
    by_cases hx : f x ≤ bound
    · -- the first value counts, so it is compared with the least of the others if that counts too
      rw [List.filter_cons_of_pos (by simpa using hx), List.argmin_cons, ih]
      cases l.argmin f with
      | none => exact ((hpick x).trans (if_pos hx)).symm
      | some y =>
        rw [hpick]
        by_cases hy : f y ≤ bound
        · rw [if_pos hy]
          show (if f y < f x then some y else some x) = Option.filter _ (if f y < f x then _ else _)
          split
          · exact ((hpick y).trans (if_pos hy)).symm
          · exact ((hpick x).trans (if_pos hx)).symm
        · have hnot : ¬f y < f x := by omega
          rw [if_neg hy]
          show some x = Option.filter _ (if f y < f x then _ else _)
          rw [if_neg hnot, hpick, if_pos hx]
    · -- the first value does not count, and no value that counts is behind it
      rw [List.filter_cons_of_neg (by simpa using hx), ih]
      cases l.argmin f with
      | none => exact ((hpick x).trans (if_neg hx)).symm
      | some y =>
        show Option.filter _ (some y) = Option.filter _ (if f y < f x then some y else some x)
        split
        · rfl
        · rw [hpick, hpick, if_neg hx, if_neg (by omega)]

/-! ## Lengths and distances -/

/-- The lengths of two texts differ by no more than their distance. -/
theorem length_le_add_editDistance [DecidableEq α] (a b : List α) :
    a.length ≤ b.length + editDistance a b ∧ b.length ≤ a.length + editDistance a b := by
  have hscript := editScript_suffixDistance a b
  rw [← editDistance_eq_suffixDistance] at hscript
  exact ⟨hscript.symm.length_le, hscript.length_le⟩

/-- How far a keyword is from a word in lower case. -/
def misspelling (word keyword : String) : Nat :=
  editDistance (word.toList.map Char.toLower) keyword.toList

/-- A keyword within two edits of a word is of about its length. -/
theorem isNear_of_misspelling_le {word keyword : String} (hword : Text.IsAscii word.toList)
    (hkeyword : Text.IsAscii keyword.toList) (h : misspelling word keyword ≤ 2) :
    Text.byteLength word.toList ≤ Text.byteLength keyword.toList + 2
      ∧ Text.byteLength keyword.toList ≤ Text.byteLength word.toList + 2 := by
  have hlength := length_le_add_editDistance (word.toList.map Char.toLower) keyword.toList
  rw [List.length_map] at hlength
  rw [hword.byteLength_eq, hkeyword.byteLength_eq]
  unfold misspelling at h
  omega

/-- No keyword that is near enough to be suggested is left out for its length. -/
theorem filter_near_filter_misspelling {word : String} {keywords : List String}
    (hword : Text.IsAscii word.toList)
    (hkeywords : ∀ keyword ∈ keywords, Text.IsAscii keyword.toList) (bound : Nat)
    (hbound : bound ≤ 2) :
    (keywords.filter (isNear word)).filter (misspelling word · ≤ bound)
      = keywords.filter (misspelling word · ≤ bound) := by
  rw [List.filter_filter]
  apply List.filter_congr
  intro keyword hmem
  by_cases hle : misspelling word keyword ≤ bound
  · have hnear := isNear_of_misspelling_le hword (hkeywords keyword hmem) (by omega)
    simp [hle, isNear, hnear]
  · simp [hle]

/-! ## Suggestions -/

/-- What is suggested is one of the keywords. -/
theorem mem_of_suggest {word keyword : String} {keywords : List String}
    (h : suggest word keywords = some keyword) : keyword ∈ keywords := by
  rw [suggest_eq] at h
  split at h
  · cases h
  · rw [nearestKeyword_eq_argmin] at h
    exact List.mem_of_mem_filter (List.mem_of_mem_filter (List.argmin_mem h))

/-- The words that are looked up for a place in a source are in ASCII.  For such a word nothing is
suggested if it has at most two characters or is a keyword.  Else the first of all keywords is
suggested that are nearest to it in lower case, if that is within two edits, or within one for a
word of three characters. -/
theorem suggest_eq_argmin :
    (∀ (c : Cursor) (word : String), c.word? = some word → Text.IsAscii word.toList)
      ∧ ∀ (word : String) (keywords : List String), Text.IsAscii word.toList →
        (∀ keyword ∈ keywords, Text.IsAscii keyword.toList) →
        suggest word keywords =
          if word.length ≤ 2 ∨ word ∈ keywords then none
          else (keywords.argmin (misspelling word)).filter fun keyword =>
            misspelling word keyword ≤ if word.length = 3 then 1 else 2 := by
  refine ⟨fun c word => Cursor.isAscii_of_word?, fun word keywords hword hkeywords => ?_⟩
  have hlength : Text.byteLength word.toList = word.length := hword.byteLength_eq
  have hdistance : spellingDistance word = misspelling word := by
    funext keyword
    rw [spellingDistance, misspelling, Text.lower_of_ascii hword]
  rw [suggest_eq, hlength]
  split
  · rfl
  · have hbound : tolerance word.length = if word.length = 3 then 1 else 2 := by
      unfold tolerance
      split <;> split <;> omega
    have hle : tolerance word.length ≤ 2 := by
      unfold tolerance
      split <;> omega
    rw [← hbound, nearestKeyword_eq_argmin, candidates, hlength, hdistance,
      filter_near_filter_misspelling hword hkeywords _ hle]
    exact argmin_filter_le (misspelling word) _ keywords

/-- A word in front of a parenthesis that is one edit away from `draw`, as it is from no other
keyword. -/
theorem suggest_draw :
    (Cursor.start "Drow(1)").word? = some "Drow" ∧ Text.IsAscii "Drow".toList
      ∧ (∀ keyword ∈ keywords, Text.IsAscii keyword.toList) ∧ suggest "Drow" keywords = some "draw"
      ∧ suggest "Drow" keywords =
        if "Drow".length ≤ 2 ∨ "Drow" ∈ keywords then none
        else (keywords.argmin (misspelling "Drow")).filter fun keyword =>
          misspelling "Drow" keyword ≤ if "Drow".length = 3 then 1 else 2 := by
  have hword : (Cursor.start "Drow(1)").word? = some "Drow" := by decide
  have hascii := suggest_eq_argmin.1 _ _ hword
  have hkeywords : ∀ keyword ∈ keywords, Text.IsAscii keyword.toList := by decide
  have hlaw := suggest_eq_argmin.2 "Drow" keywords hascii hkeywords
  exact ⟨hword, hascii, hkeywords, hlaw.trans (by decide +kernel), hlaw⟩

end SceneScript
