import SceneScript.Program.Source
import SceneScript.Program.WellFormed
import SceneScript.Proofs.Cursor.Ahead
import SceneScript.Proofs.Number.ReadBack

/-!
# Texts that spell tokens

A text spells some tokens if a cursor in front of it reads them and stands behind it then, whatever
text follows, as long as that does not go on a word or a number.  Texts are put together from their
parts, a part at a time from the left.
-/

namespace SceneScript

open Grammar

/-! ## Spelling -/

/-- The characters that stand behind words and numbers in canonical source. -/
def breakChars : List Char := [' ', '\n', '(', ')', ',', '>']

/-- The text does not go on a word or a number before it. -/
def Breaks (text : List Char) : Prop := ∀ x, text.head? = some x → x ∈ breakChars

theorem breaks_nil : Breaks [] := by
  intro x hx
  cases hx

theorem breaks_cons {x : Char} (h : x ∈ breakChars) (text : List Char) : Breaks (x :: text) := by
  intro y hy
  rw [← Option.some.inj hy]
  exact h

theorem Breaks.append {text more : List Char} (h : Breaks text) (k : Breaks more) :
    Breaks (text ++ more) := by
  cases text with
  | nil => exact k
  | cons x text => exact h

theorem isWordChar_of_mem_breakChars {x : Char} (h : x ∈ breakChars) : isWordChar x = false := by
  have hall : breakChars.all fun x => isWordChar x = false := by decide
  exact of_decide_eq_true (List.all_eq_true.1 hall x h)

theorem Breaks.takeWhile_isWordChar {text : List Char} (h : Breaks text) :
    text.takeWhile isWordChar = [] := by
  cases text with
  | nil => rfl
  | cons x text =>
    have hx := isWordChar_of_mem_breakChars (h x rfl)
    rw [List.takeWhile_cons, hx]
    rfl

/-- The text is read as the tokens if the text behind it does not go on it. -/
def Spells (text : List Char) (ts : List Token) : Prop :=
  ∀ c tail, Cursor.rest c = text ++ tail → Breaks tail → ∃ d, c.Reads ts d ∧ d.rest = tail

variable {a b : List Char} {ts us : List Token}

theorem spells_nil : Spells [] [] := fun c _ hrest _ => ⟨c, Cursor.Reads.refl c, hrest⟩

theorem Spells.append (h : Spells a ts) (k : Spells b us) (hb : Breaks b) :
    Spells (a ++ b) (ts ++ us) := by
  intro c tail hrest htail
  rw [List.append_assoc] at hrest
  obtain ⟨d, hd, hrest⟩ := h c (b ++ tail) hrest (hb.append htail)
  obtain ⟨e, he, hrest⟩ := k d tail hrest htail
  exact ⟨e, hd.trans he, hrest⟩

/-- Blanks are no tokens. -/
theorem Spells.blank {x : Char} (hx : Text.isBlank x = true) (h : Spells a ts) :
    Spells (x :: a) ts := by
  intro c tail hrest htail
  have hadvance : (c.advance 1).rest = a ++ tail := by rw [Cursor.rest_advance, hrest]; rfl
  obtain ⟨d, hd, hrest'⟩ := h (c.advance 1) tail hadvance htail
  have hskip : c.Reads [] (c.advance 1) := ⟨⟨1, rfl⟩, Cursor.afterTrivia_blank hrest hx⟩
  exact ⟨d, hskip.trans hd, hrest'⟩

/-- A text that is a token, in front of a text that does not go on it. -/
theorem spells_of_token {t : Token}
    (h : ∀ c tail, Cursor.rest c = a ++ tail → Breaks tail →
      c.Settled ∧ c.token? = .ok (some (t, c.advance a.length))) : Spells a [t] := by
  intro c tail hrest htail
  obtain ⟨hsettled, htoken⟩ := h c tail hrest htail
  refine ⟨c.advance a.length, Cursor.reads_of_next? ((Cursor.next?_eq_some_iff hsettled).2 htoken), ?_⟩
  rw [Cursor.rest_advance, hrest, List.drop_left]

/-- A symbol needs nothing behind it to end it.  A slash must not make a comment. -/
theorem Spells.symbol {x : Char} {t : Token} (ht : Token.ofChar? x = some t) (h : Spells a ts)
    (hslash : x = '/' → a.head? = some ' ') : Spells (x :: a) (t :: ts) := by
  intro c tail hrest htail
  have hblank : Text.isBlank x = false := by
    have hall : (operatorChars ++ punctuationChars).all fun x => Text.isBlank x = false := by
      decide
    exact of_decide_eq_true (List.all_eq_true.1 hall x (mem_of_ofChar? ht))
  have hcomment : x = '/' → (a ++ tail).head? ≠ some '/' := by
    intro hx
    obtain ⟨rest, hrest⟩ := List.head?_eq_some_iff.1 (hslash hx)
    rw [hrest]
    simp
  have hsettled := Cursor.settled_of_rest hrest hblank hcomment
  have hnext := (Cursor.next?_eq_some_iff hsettled).2 (Cursor.token?_of_ofChar? hrest ht)
  have hadvance : (c.advance 1).rest = a ++ tail := by rw [Cursor.rest_advance, hrest]; rfl
  obtain ⟨d, hd, hrest'⟩ := h (c.advance 1) tail hadvance htail
  exact ⟨d, ⟨_, hnext, hd⟩, hrest'⟩

/-! ## Words and texts -/

theorem spells_word {word : String} (h : Cursor.IsWord word) :
    Spells word.toList [Token.ofWord word] := by
  refine spells_of_token fun c tail hrest htail => ?_
  obtain ⟨x, more, hword, hx⟩ : ∃ x more, word.toList = x :: more ∧ isWordStart x = true := by
    cases hl : word.toList with
    | nil => simp [Cursor.IsWord, hl] at h
    | cons x more => exact ⟨x, more, rfl, by simpa [Cursor.IsWord, hl] using h.1⟩
  have hrest' : c.rest = x :: (more ++ tail) := by rw [hrest, hword]; rfl
  have hall : ∀ y ∈ word.toList, isWordChar y = true := by simpa using h.2
  have htake : c.rest.takeWhile isWordChar = word.toList := by
    rw [hrest, List.takeWhile_append_of_pos hall, htail.takeWhile_isWordChar, List.append_nil]
  have hfound : c.word? = some word := by
    rw [Cursor.word?, htake, String.ofList_toList, hrest']
    simp [hx]
  exact ⟨Cursor.settled_of_isWordChar hrest' (isWordChar_of_isWordStart hx),
    Cursor.token?_of_word? hfound⟩

/-- A text between quotes that it does not hold. -/
theorem spells_text {quote : Char} {text : String} (hquote : quote = '"' ∨ quote = '\'')
    (hnot : quote ∉ text.toList) : Spells (quote :: (text.toList ++ [quote])) [.text text] := by
  refine spells_of_token fun c tail hrest _ => ?_
  have hrest' : c.rest = quote :: (text.toList ++ quote :: tail) := by rw [hrest]; simp
  have htake : (text.toList ++ quote :: tail).takeWhile (· != quote) = text.toList := by
    have hall : ∀ x ∈ text.toList, (x != quote) = true := by
      intro x hx
      rw [bne_iff_ne]
      rintro rfl
      exact hnot hx
    rw [List.takeWhile_append_of_pos hall]
    simp
  have htext : c.text? = .ok (some (text, c.advance (text.toList.length + 2))) := by
    rw [Cursor.text?, hrest']
    simp only [if_pos hquote, htake, String.ofList_toList]
    rw [if_pos (by simp)]
  have hblank : Text.isBlank quote = false ∧ quote ≠ '/' := by
    rcases hquote with rfl | rfl <;> decide
  refine ⟨Cursor.settled_of_rest hrest' hblank.1 fun hx => absurd hx hblank.2, ?_⟩
  rw [Cursor.token?_of_text? htext]
  simp

/-! ## Numbers -/

/-- A numeral ends where its text does. -/
theorem leading_text {n : Numeral} (h : n.Proper) {tail : List Char} (htail : Breaks tail) :
    Numeral.leading (n.text ++ tail) = n := by
  refine Numeral.leading_append h fun c hc => ?_
  have hbreak : breakChars.all fun c => c.isDigit = false ∧ c ≠ '.' := by decide
  exact of_decide_eq_true (List.all_eq_true.1 hbreak c (htail c hc))

theorem spells_numeral {n : Numeral} (h : n.Proper) (hfinite : n.value.isFinite = true) :
    Spells n.text [.number n.value] := by
  refine spells_of_token fun c tail hrest htail => ?_
  have hleading : Numeral.leading c.rest = n := by rw [hrest, leading_text h htail]
  have hafter : c.rest.drop n.text.length = tail := by rw [hrest, List.drop_left]
  have halpha : tail.head?.any Char.isAlpha = false := by
    cases tail with
    | nil => rfl
    | cons x tail =>
      have hx := isWordChar_of_mem_breakChars (htail x rfl)
      simp only [isWordChar, Char.isAlphanum, Bool.or_eq_false_iff] at hx
      exact hx.1.1
  obtain ⟨x, more, hwhole⟩ := List.exists_cons_of_ne_nil h.whole_ne_nil
  have hdigit := h.whole_digits x (by rw [hwhole]; exact List.mem_cons_self ..)
  obtain ⟨rest, hrest'⟩ : ∃ rest, c.rest = x :: rest := by
    rw [hrest, Numeral.text, hwhole]
    exact ⟨_, rfl⟩
  have hnumber : c.number? = .ok (some (n.value, c.advance n.text.length)) := by
    simp only [Cursor.number?, hleading, hafter, halpha, hfinite, if_true]
    rw [if_neg h.whole_ne_nil]
    rfl
  exact ⟨Cursor.settled_of_isWordChar hrest' (isWordChar_of_isDigit hdigit),
    Cursor.token?_of_number? hnumber⟩

/-- The source of an unsigned number is read as that number. -/
theorem spells_number {x : Binary64} (h : x.IsUnsigned) :
    Spells x.source.toList [.number x] := by
  obtain ⟨n, hproper, rfl, htext⟩ := Numeral.exists_of_unsigned h.1 h.2
  have hliteral : n.value.isLiteral = true := by rw [Binary64.isLiteral, h.2]; rfl
  rw [Binary64.source, if_pos hliteral, htext]
  exact spells_numeral hproper h.1

end SceneScript
