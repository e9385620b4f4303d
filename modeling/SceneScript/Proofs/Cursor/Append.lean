import SceneScript.Proofs.Cursor.Errors

/-!
# Text behind a blank

Nothing that is put behind a token, with a blank between them, changes the token: no word or number
runs over a blank, and a string that is closed before it stays closed.  If the blank is a line feed,
a comment ends there too, so nothing that is put behind a source on a new line changes the tokens of
the source.
-/

namespace SceneScript

variable {text more : List Char} {c d : Cursor} {t : Token} {ts : List Token} {x : Char}

/-! ## Text -/

/-- A blank goes on neither a word nor a number nor a comment sign. -/
theorem endsToken_of_isBlank (h : Text.isBlank x = true) :
    isWordChar x = false ∧ x.isDigit = false ∧ x ≠ '.' ∧ x ≠ '/' := by
  have hword : isWordChar x = false := by
    rw [Bool.eq_false_iff]
    intro hword
    rw [isBlank_of_isWordChar hword] at h
    cases h
  refine ⟨hword, ?_, ?_, ?_⟩
  · rw [Bool.eq_false_iff]
    intro hdigit
    rw [isWordChar_of_isDigit hdigit] at hword
    cases hword
  · rintro rfl
    revert h
    decide
  · rintro rfl
    revert h
    decide

theorem takeWhile_append_cons {p : Char → Bool} (hp : p x = false) (text more : List Char) :
    (text ++ x :: more).takeWhile p = text.takeWhile p := by
  rw [List.takeWhile_append, List.takeWhile_cons, hp]
  split
  · rename_i hall
    rw [(List.takeWhile_prefix p).eq_of_length hall]
    simp
  · rfl

theorem dropWhile_append_cons {p : Char → Bool} (hp : p x = false) (text more : List Char) :
    (text ++ x :: more).dropWhile p = text.dropWhile p ++ x :: more := by
  rw [List.dropWhile_append, List.dropWhile_cons, hp]
  split
  · rename_i hnil
    rw [List.isEmpty_iff.1 hnil]
    simp
  · rfl

theorem leading_append_blank (hx : Text.isBlank x = true) (text more : List Char) :
    Numeral.leading (text ++ x :: more) = Numeral.leading text := by
  obtain ⟨_, hdigit, hpoint, _⟩ := endsToken_of_isBlank hx
  unfold Numeral.leading
  rw [takeWhile_append_cons hdigit, dropWhile_append_cons hdigit]
  congr 1
  rcases text.dropWhile Char.isDigit with _ | ⟨y, rest⟩
  · rw [List.nil_append]
    split
    · rename_i heq
      exact absurd (List.cons.inj heq).1 hpoint
    · rfl
  · by_cases hy : y = '.'
    · subst hy
      exact takeWhile_append_cons hdigit rest more
    · simp [hy]

/-- A numeral is spelled as the text that it leads begins. -/
theorem leading_prefix_text (text : List Char) : (Numeral.leading text).text <+: text := by
  have hfraction : (if (Numeral.leading text).fraction = [] then []
      else '.' :: (Numeral.leading text).fraction) <+: text.dropWhile Char.isDigit := by
    unfold Numeral.leading
    split
    · rename_i rest hrest
      rw [hrest]
      split
      · exact List.nil_prefix
      · exact List.cons_prefix_cons.2 ⟨rfl, List.takeWhile_prefix _⟩
    · exact List.nil_prefix
  have hboth := (List.prefix_append_right_inj (text.takeWhile Char.isDigit)).2 hfraction
  rwa [List.takeWhile_append_dropWhile] at hboth

theorem length_leading_le (text : List Char) :
    (Numeral.leading text).text.length ≤ text.length := (leading_prefix_text text).length_le

/-- Whether a slash comes next does not depend on what is behind a blank. -/
theorem head?_append_blank (hx : Text.isBlank x = true) (rest more : List Char) :
    ((rest ++ x :: more).head? = some '/') ↔ rest.head? = some '/' := by
  cases rest with
  | nil => simp [(endsToken_of_isBlank hx).2.2.2]
  | cons => rfl

theorem isBlank_lineFeed : Text.isBlank '\n' = true := by decide

/-- Trivia that ends within a text is the same with more text behind a blank. -/
theorem triviaFrom_append {inComment : Bool} (hx : Text.isBlank x = true)
    (h : triviaFrom inComment text < text.length) :
    triviaFrom inComment (text ++ x :: more) = triviaFrom inComment text := by
  fun_induction triviaFrom inComment text with
  | case1 => simp at h
  | case2 y rest ih =>
    rw [List.cons_append, triviaFrom, if_pos rfl, ih (by simpa using h)]
  | case3 inComment y rest hin hblank ih =>
    rw [List.cons_append, triviaFrom, if_neg hin, if_pos hblank, ih (by simpa using h)]
  | case4 inComment y rest hin hblank hslash ih =>
    rw [List.cons_append, triviaFrom, if_neg hin, if_neg hblank,
      if_pos ⟨hslash.1, (head?_append_blank hx rest more).2 hslash.2⟩, ih (by simpa using h)]
  | case5 inComment y rest hin hblank hslash =>
    rw [List.cons_append, triviaFrom, if_neg hin, if_neg hblank,
      if_neg fun hy => hslash ⟨hy.1, (head?_append_blank hx rest more).1 hy.2⟩]

/-- Trivia that goes on to the end of a text takes in the line feed and goes on behind it. -/
theorem triviaFrom_append_of_eq {inComment : Bool} (h : triviaFrom inComment text = text.length) :
    triviaFrom inComment (text ++ '\n' :: more) = text.length + (triviaLength more + 1) := by
  fun_induction triviaFrom inComment text with
  | case1 inComment =>
    cases inComment <;> simp [triviaFrom, triviaLength, isBlank_lineFeed]
  | case2 x rest ih =>
    rw [List.cons_append, triviaFrom, if_pos rfl, ih (by simpa using h), List.length_cons]
    omega
  | case3 inComment x rest hin hblank ih =>
    rw [List.cons_append, triviaFrom, if_neg hin, if_pos hblank, ih (by simpa using h),
      List.length_cons]
    omega
  | case4 inComment x rest hin hblank hslash ih =>
    rw [List.cons_append, triviaFrom, if_neg hin, if_neg hblank,
      if_pos ⟨hslash.1, (head?_append_blank isBlank_lineFeed rest more).2 hslash.2⟩,
      ih (by simpa using h), List.length_cons]
    omega
  | case5 => simp at h

namespace Cursor

/-! ## Cursors -/

/-- The same place with more text behind the source. -/
def append (c : Cursor) (more : List Char) : Cursor := ⟨c.rest ++ more, c.pos⟩

theorem append_inj (h : c.append more = d.append more) : c = d := by
  rw [append, append, Cursor.mk.injEq, List.append_cancel_right_eq] at h
  obtain ⟨hrest, hpos⟩ := h
  show Cursor.mk c.rest c.pos = Cursor.mk d.rest d.pos
  rw [hrest, hpos]

/-- The offset of the end of the source. -/
def endPos (c : Cursor) : Nat := c.pos + Text.byteLength c.rest

theorem endPos_advance (c : Cursor) (count : Nat) : (c.advance count).endPos = c.endPos := by
  have hsplit := congrArg Text.byteLength (List.take_append_drop count c.rest)
  rw [Text.byteLength_append] at hsplit
  simp only [endPos, pos_advance, rest_advance]
  omega

theorem Onward.endPos_eq (h : c.Onward d) : d.endPos = c.endPos := by
  obtain ⟨count, rfl⟩ := h
  exact endPos_advance c count

theorem advance_append {count : Nat} (h : count ≤ c.rest.length) :
    (c.append more).advance count = (c.advance count).append more := by
  simp [append, advance, List.drop_append_of_le_length h, List.take_append_of_le_length h]

theorem afterTrivia_append (hx : Text.isBlank x = true) (h : c.afterTrivia.isEnd = false) :
    (c.append (x :: more)).afterTrivia = c.afterTrivia.append (x :: more) := by
  have hlt : triviaLength c.rest < c.rest.length := by
    have hne : c.rest.drop (triviaLength c.rest) ≠ [] := by
      intro hnil
      rw [isEnd, afterTrivia, rest_advance, hnil] at h
      cases h
    simpa using mt List.drop_eq_nil_of_le hne
  rw [afterTrivia, show triviaLength (c.append _).rest = triviaLength c.rest from
    triviaFrom_append hx hlt, advance_append (Nat.le_of_lt hlt), afterTrivia]

/-- Behind the last token the trivia goes on into the next line. -/
theorem afterTrivia_append_of_isEnd (h : c.afterTrivia.isEnd = true) :
    (c.append ('\n' :: more)).afterTrivia = (Cursor.mk more (c.endPos + 1)).afterTrivia := by
  have heq : triviaLength c.rest = c.rest.length := by
    have hle := triviaFrom_le_length false c.rest
    have hnil : c.rest.drop (triviaLength c.rest) = [] := List.isEmpty_iff.1 h
    rw [List.drop_eq_nil_iff] at hnil
    exact Nat.le_antisymm hle hnil
  have hlength : triviaLength (c.append ('\n' :: more)).rest
      = c.rest.length + 1 + triviaLength more := by
    rw [triviaLength, append, triviaFrom_append_of_eq heq]
    omega
  have hskip : (c.append ('\n' :: more)).advance (c.rest.length + 1)
      = Cursor.mk more (c.endPos + 1) := by
    have hfeed : ('\n' : Char).utf8Size = 1 := by decide
    have htake : c.rest.take (c.rest.length + 1) = c.rest := List.take_of_length_le (by omega)
    simp [append, advance, endPos, List.take_append, List.drop_append, htake, hfeed, Nat.add_assoc]
  rw [afterTrivia, hlength, ← advance_advance, hskip]
  rfl

/-! ## Tokens -/

theorem text?_append {value : String} (h : c.text? = .ok (some (value, d))) :
    (c.append more).text? = .ok (some (value, d.append more)) := by
  cases hr : c.rest with
  | nil => simp [text?, hr] at h
  | cons quote rest =>
    have hrest : (c.append more).rest = quote :: (rest ++ more) := by rw [append, hr]; rfl
    simp only [text?, hr] at h
    simp only [text?, hrest]
    split at h
    · rename_i hquote
      split at h
      · rename_i hlt
        have htake : (rest ++ more).takeWhile (· != quote) = rest.takeWhile (· != quote) := by
          rw [List.takeWhile_append, if_neg (Nat.ne_of_lt hlt)]
        obtain ⟨rfl, rfl⟩ := Prod.mk.inj (Option.some.inj (Except.ok.inj h))
        rw [if_pos hquote, htake, if_pos (by rw [List.length_append]; omega),
          advance_append (by rw [hr, List.length_cons]; omega)]
      · cases h
    · cases h

theorem number?_append {value : Binary64} (hx : Text.isBlank x = true)
    (h : c.number? = .ok (some (value, d))) :
    (c.append (x :: more)).number? = .ok (some (value, d.append (x :: more))) := by
  have hle := length_leading_le c.rest
  have hhead : ((c.rest ++ x :: more).drop (Numeral.leading c.rest).text.length).head?.any
      Char.isAlpha = (c.rest.drop (Numeral.leading c.rest).text.length).head?.any Char.isAlpha := by
    rw [List.drop_append_of_le_length hle]
    cases c.rest.drop (Numeral.leading c.rest).text.length with
    | nil =>
      have hword := (endsToken_of_isBlank hx).1
      simp only [isWordChar, Char.isAlphanum, Bool.or_eq_false_iff] at hword
      simp [hword.1.1]
    | cons => rfl
  simp only [number?, append, leading_append_blank hx, hhead] at h ⊢
  split at h
  · cases h
  · split at h
    · cases h
    · split at h
      · obtain ⟨rfl, rfl⟩ := Prod.mk.inj (Option.some.inj (Except.ok.inj h))
        rw [if_neg ‹_›, if_neg ‹_›, if_pos ‹_›]
        exact congrArg (fun d => Except.ok (some (_, d))) (advance_append hle)
      · cases h

theorem word?_append {word : String} (hx : Text.isBlank x = true) (h : c.word? = some word) :
    (c.append (x :: more)).word? = some word := by
  obtain ⟨y, rest, hr, hy⟩ := rest_eq_cons_of_word? h
  have hword := toList_of_word? h
  have hhead : (c.append (x :: more)).rest.head?.any isWordStart = true := by
    rw [append, hr]
    simpa using hy
  rw [word?, if_pos hhead, append, takeWhile_append_cons (endsToken_of_isBlank hx).1, ← hword,
    String.ofList_toList]

/-- A token stays the same with more text behind a blank. -/
theorem token?_append (hx : Text.isBlank x = true) (h : c.token? = .ok (some (t, d))) :
    (c.append (x :: more)).token? = .ok (some (t, d.append (x :: more))) := by
  obtain ⟨value, rfl, hvalue⟩ | ⟨y, rfl, hy⟩ | ⟨word, rfl, hword, rfl⟩ | ⟨y, rest, hr, hy, rfl⟩ :=
    token?_cases h
  · exact token?_of_text? (text?_append hvalue)
  · exact token?_of_number? (number?_append hx hy)
  · have hle : word.toList.length ≤ c.rest.length := by
      rw [toList_of_word? hword]
      exact (List.takeWhile_prefix _).length_le
    rw [token?_of_word? (word?_append hx hword), afterWord, advance_append hle, afterWord]
  · have hrest : (c.append (x :: more)).rest = y :: (rest ++ x :: more) := by
      rw [append, hr]
      rfl
    rw [token?_of_ofChar? hrest hy, advance_append (by simp [hr])]

theorem next?_append (hx : Text.isBlank x = true) (h : c.next? = some (t, d)) :
    (c.append (x :: more)).next? = some (t, d.append (x :: more)) := by
  rw [← next?_afterTrivia, next?_eq_some_iff (settled_afterTrivia c)] at h
  have hend : c.afterTrivia.isEnd = false := by
    cases hend : c.afterTrivia.isEnd with
    | false => rfl
    | true =>
      rw [token?_of_isEnd hend] at h
      cases h
  rw [next?, afterTrivia_append hx hend, token?_append hx h]

/-- The tokens of a source lead to what comes first in the next line. -/
theorem Ahead.reads_append (h : c.Ahead ts) :
    (c.append ('\n' :: more)).Reads ts (Cursor.mk more (c.endPos + 1)).afterTrivia := by
  induction ts generalizing c with
  | nil =>
    rw [← afterTrivia_append_of_isEnd h]
    exact reads_afterTrivia _
  | cons t ts ih =>
    obtain ⟨d, hd, hahead⟩ := h
    rw [← (onward_of_next? hd).endPos_eq]
    exact ⟨_, next?_append isBlank_lineFeed hd, ih hahead⟩

end Cursor

end SceneScript
