import SceneScript.Cursor.Token
import SceneScript.Grammar

/-!
# The next token

`Cursor.next?` is what `nextLexeme` finds, without its offsets and without the reason if there is
nothing.  The movements of a cursor over symbols, keywords, names and literals are, on a place
after trivia, the cases of `next?`: that is what makes a parser that works on characters a parser
of tokens.
-/

namespace SceneScript

/-! ## Characters that start tokens -/

/-- Tokens of one character are operators and punctuation. -/
theorem mem_of_ofChar? {c : Char} {t : Token} (h : Token.ofChar? c = some t) :
    c ∈ operatorChars ++ punctuationChars := by
  unfold Token.ofChar? at h
  simp only [List.contains_iff_mem] at h
  rw [List.mem_append]
  split at h
  · exact .inl ‹_›
  · split at h
    · exact .inr ‹_›
    · cases h

/-- A token of one character begins neither a word nor a number nor a text, so the order in which
the kinds are tried does not matter. -/
theorem isWordStart_eq_false_of_ofChar? {c : Char} {t : Token} (h : Token.ofChar? c = some t) :
    isWordStart c = false ∧ c.isDigit = false ∧ ¬(c = '"' ∨ c = '\'') := by
  have hall : (operatorChars ++ punctuationChars).all fun x =>
      isWordStart x = false ∧ x.isDigit = false ∧ ¬(x = '"' ∨ x = '\'') := by decide
  exact of_decide_eq_true (List.all_eq_true.1 hall c (mem_of_ofChar? h))

/-- The token of a character holds the character. -/
theorem Token.eq_of_ofChar? {c : Char} {t : Token} (h : Token.ofChar? c = some t) :
    t = .operator c ∨ t = .punctuation c := by
  unfold Token.ofChar? at h
  split at h
  · exact .inl (Option.some.inj h).symm
  · split at h
    · exact .inr (Option.some.inj h).symm
    · cases h

/-- The token of a word holds the word. -/
theorem Token.ofWord_eq (word : String) :
    Token.ofWord word = .keyword word ∨ Token.ofWord word = .identifier word := by
  unfold Token.ofWord
  split
  · exact .inl rfl
  · exact .inr rfl

theorem Token.ofChar?_inj {c d : Char} {t : Token} (hc : Token.ofChar? c = some t)
    (hd : Token.ofChar? d = some t) : c = d := by
  rcases Token.eq_of_ofChar? hc with rfl | rfl <;> rcases Token.eq_of_ofChar? hd with h | h <;>
    cases h <;> rfl

theorem Token.ofWord_inj {v w : String} (h : Token.ofWord v = Token.ofWord w) : v = w := by
  rcases Token.ofWord_eq v with hv | hv <;> rcases Token.ofWord_eq w with hw | hw <;>
    rw [hv, hw] at h <;> cases h <;> rfl

/-- No word is a token of one character. -/
theorem Token.ofWord_ne_ofChar? {w : String} {c : Char} :
    Token.ofChar? c ≠ some (Token.ofWord w) := by
  intro h
  rcases Token.eq_of_ofChar? h with ht | ht <;> rcases Token.ofWord_eq w with hw | hw <;>
    rw [hw] at ht <;> cases ht

/-- Letters are those of ASCII. -/
theorem toNat_of_isAlpha {c : Char} (h : c.isAlpha = true) :
    (65 ≤ c.toNat ∧ c.toNat ≤ 90) ∨ (97 ≤ c.toNat ∧ c.toNat ≤ 122) := by
  have hranges : (decide (c.val ≥ 'A'.val ∧ c.val ≤ 'Z'.val) ||
      (decide (c.val ≥ 'a'.val) && decide (c.val ≤ 'z'.val))) = true := h
  simpa [UInt32.le_iff_toNat_le] using hranges

theorem isDigit_eq_false_of_isWordStart {c : Char} (h : isWordStart c = true) :
    c.isDigit = false := by
  simp only [isWordStart, Bool.or_eq_true, beq_iff_eq] at h
  rcases h with h | rfl
  · have halpha := toNat_of_isAlpha h
    have h9 : '9'.val.toNat = 57 := rfl
    simp only [Char.toNat] at halpha
    simp only [Char.isDigit, Bool.and_eq_false_iff, decide_eq_false_iff_not,
      UInt32.le_iff_toNat_le]
    omega
  · rfl

theorem isWordStart_eq_false_of_quote {c : Char} (h : c = '"' ∨ c = '\'') :
    isWordStart c = false ∧ c.isDigit = false := by
  rcases h with rfl | rfl <;> decide

/-- Between a space and the controls above ASCII there is no blank. -/
theorem isBlank_eq_false {c : Char} (hlow : 0x20 < c.toNat) (hhigh : c.toNat < 0x85) :
    Text.isBlank c = false := by
  simp only [Text.isBlank, Bool.or_eq_false_iff, Bool.and_eq_false_iff, decide_eq_false_iff_not,
    beq_eq_false_iff_ne]
  omega

/-- No character that is a token is blank. -/
theorem isBlank_of_ofChar? {c : Char} {t : Token} (h : Token.ofChar? c = some t) :
    Text.isBlank c = false := by
  have hall : (operatorChars ++ punctuationChars).all fun x => Text.isBlank x = false := by decide
  exact of_decide_eq_true (List.all_eq_true.1 hall c (mem_of_ofChar? h))

theorem toNat_of_isWordChar {c : Char} (h : isWordChar c = true) :
    0x2f < c.toNat ∧ c.toNat < 0x7b := by
  have h0 : '0'.val.toNat = 48 := rfl
  have h9 : '9'.val.toNat = 57 := rfl
  simp only [isWordChar, Char.isAlphanum, Bool.or_eq_true, beq_iff_eq] at h
  rcases h with (h | h) | rfl
  · have halpha := toNat_of_isAlpha h
    omega
  · simp only [Char.isDigit, Bool.and_eq_true, decide_eq_true_eq, UInt32.le_iff_toNat_le,
      ge_iff_le] at h
    show 0x2f < c.val.toNat ∧ c.val.toNat < 0x7b
    omega
  · decide

theorem isBlank_of_isWordChar {c : Char} (h : isWordChar c = true) : Text.isBlank c = false := by
  obtain ⟨hlow, hhigh⟩ := toNat_of_isWordChar h
  exact isBlank_eq_false (by omega) (by omega)

theorem isWordChar_of_isDigit {c : Char} (h : c.isDigit = true) : isWordChar c = true := by
  simp [isWordChar, Char.isAlphanum, h]

namespace Cursor

/-! ## What stands at a place -/

/-- The token that comes next and the place after it. -/
def next? (c : Cursor) : Option (Token × Cursor) :=
  match c.afterTrivia.token? with
  | .ok found => found
  | .error _ => none

@[simp] theorem next?_afterTrivia (c : Cursor) : c.afterTrivia.next? = c.next? := by
  rw [next?, next?, afterTrivia_afterTrivia]

/-- No trivia stands here. -/
def Settled (c : Cursor) : Prop := c.afterTrivia = c

/-- Behind trivia there is no more of it. -/
@[simp] theorem settled_afterTrivia (c : Cursor) : c.afterTrivia.Settled := afterTrivia_afterTrivia c

/-- At a settled place the next token is the one that stands right there. -/
theorem Settled.next?_eq {c : Cursor} (h : c.Settled) : c.next? =
    match c.token? with
    | .ok found => found
    | .error _ => none := by
  rw [next?, h]

/-- A character that is neither blank nor starts a comment is no trivia. -/
theorem settled_of_rest {c : Cursor} {x : Char} {rest : List Char} (h : c.rest = x :: rest)
    (hblank : Text.isBlank x = false) (hslash : x = '/' → rest.head? ≠ some '/') : c.Settled := by
  have hlength : triviaLength c.rest = 0 := by
    rw [h, triviaLength, triviaFrom, if_neg (by simp), if_neg (by simp [hblank]),
      if_neg fun hx => hslash hx.1 hx.2]
  rw [Settled, afterTrivia, hlength, advance_zero]

/-- No trivia starts with a word or a number. -/
theorem settled_of_isWordChar {c : Cursor} {x : Char} {rest : List Char} (h : c.rest = x :: rest)
    (hx : isWordChar x = true) : c.Settled := by
  refine settled_of_rest h (isBlank_of_isWordChar hx) fun hslash => ?_
  rw [hslash] at hx
  exact absurd hx (by decide)

theorem afterTrivia_blank {c : Cursor} {x : Char} {rest : List Char} (h : c.rest = x :: rest)
    (hblank : Text.isBlank x = true) : c.afterTrivia = (c.advance 1).afterTrivia := by
  have hlength : triviaLength c.rest = 1 + triviaLength rest := by
    rw [h, triviaLength, triviaFrom, if_neg (by simp), if_pos hblank, Nat.add_comm]
    rfl
  have hrest : (c.advance 1).rest = rest := by rw [rest_advance, h, List.drop_one, List.tail_cons]
  rw [afterTrivia, afterTrivia, hrest, hlength, advance_advance]

/-! ## Literals and words by their first character -/

/-- A string starts with a quote. -/
theorem text?_eq_none {c : Cursor} {x : Char} {rest : List Char} (h : c.rest = x :: rest)
    (hx : ¬(x = '"' ∨ x = '\'')) : c.text? = .ok none := by
  rw [text?, h]
  simp only [hx, if_false]

/-- A number starts with a digit. -/
theorem number?_eq_none {c : Cursor} {x : Char} {rest : List Char} (h : c.rest = x :: rest)
    (hx : x.isDigit = false) : c.number? = .ok none := by
  rw [number?, h]
  simp [Numeral.leading, hx]

theorem word?_eq_none {c : Cursor} {x : Char} {rest : List Char} (h : c.rest = x :: rest)
    (hx : isWordStart x = false) : c.word? = none := by
  simp [word?, h, hx]

theorem rest_eq_cons_of_word? {c : Cursor} {word : String} (h : c.word? = some word) :
    ∃ x rest, c.rest = x :: rest ∧ isWordStart x = true := by
  unfold word? at h
  split at h
  · rename_i hx
    cases hr : c.rest with
    | nil => simp [hr] at hx
    | cons x rest => exact ⟨x, rest, rfl, by simpa [hr] using hx⟩
  · cases h

/-- A word goes on as far as there are characters of words. -/
theorem toList_of_word? {c : Cursor} {word : String} (h : c.word? = some word) :
    word.toList = c.rest.takeWhile isWordChar := by
  unfold word? at h
  split at h
  · cases h; simp
  · cases h

/-- A string is what stands between two equal quotes. -/
theorem eq_of_text? {c d : Cursor} {text : String} (h : c.text? = .ok (some (text, d))) :
    ∃ quote rest, c.rest = quote :: rest ∧ (quote = '"' ∨ quote = '\'') ∧ quote ∉ text.toList
      ∧ d = c.advance (text.toList.length + 2) := by
  cases hr : c.rest with
  | nil => simp [text?, hr] at h
  | cons quote rest =>
    refine ⟨quote, rest, rfl, ?_⟩
    by_cases hq : quote = '"' ∨ quote = '\''
    · rw [text?, hr] at h
      simp only [if_pos hq] at h
      split at h
      · obtain ⟨rfl, rfl⟩ := Prod.mk.inj (Option.some.inj (Except.ok.inj h))
        refine ⟨hq, ?_, by simp⟩
        rw [String.toList_ofList]
        intro hmem
        simpa using List.all_eq_true.1 List.all_takeWhile quote hmem
      · cases h
    · rw [text?_eq_none hr hq] at h
      cases h

theorem rest_eq_cons_of_number? {c : Cursor} {found : Binary64 × Cursor}
    (h : c.number? = .ok (some found)) : ∃ x rest, c.rest = x :: rest ∧ x.isDigit = true := by
  cases hr : c.rest with
  | nil => simp [number?, hr, Numeral.leading] at h
  | cons x rest =>
    refine ⟨x, rest, rfl, ?_⟩
    by_cases hx : x.isDigit = true
    · exact hx
    · rw [number?_eq_none hr (by simpa using hx)] at h; cases h

/-! ## The token right here -/

/-- A text is read before anything else is tried. -/
theorem token?_of_text? {c : Cursor} {text : String} {d : Cursor}
    (h : c.text? = .ok (some (text, d))) : c.token? = .ok (some (.text text, d)) := by
  rw [token?, h]

/-- Where a number stands no text does, so it is the token. -/
theorem token?_of_number? {c : Cursor} {x : Binary64} {d : Cursor}
    (h : c.number? = .ok (some (x, d))) : c.token? = .ok (some (.number x, d)) := by
  obtain ⟨y, rest, hr, hy⟩ := rest_eq_cons_of_number? h
  have hq : ¬(y = '"' ∨ y = '\'') := fun hq => by
    simp [(isWordStart_eq_false_of_quote hq).2] at hy
  rw [token?, text?_eq_none hr hq, h]

theorem token?_of_word? {c : Cursor} {word : String} (h : c.word? = some word) :
    c.token? = .ok (some (Token.ofWord word, c.afterWord word)) := by
  obtain ⟨x, rest, hr, hx⟩ := rest_eq_cons_of_word? h
  have hq : ¬(x = '"' ∨ x = '\'') := fun hq => by
    simp [(isWordStart_eq_false_of_quote hq).1] at hx
  rw [token?, text?_eq_none hr hq, number?_eq_none hr (isDigit_eq_false_of_isWordStart hx), h]

theorem token?_of_ofChar? {c : Cursor} {x : Char} {rest : List Char} {t : Token}
    (hr : c.rest = x :: rest) (h : Token.ofChar? x = some t) :
    c.token? = .ok (some (t, c.advance 1)) := by
  obtain ⟨hw, hd, hq⟩ := isWordStart_eq_false_of_ofChar? h
  have hx : c.char? = some x := by rw [char?, hr]; rfl
  rw [token?, text?_eq_none hr hq, number?_eq_none hr hd, word?_eq_none hr hw, hx]
  simp only [h]

/-- A token is a string, a number, a word or a single character. -/
theorem token?_cases {c : Cursor} {t : Token} {d : Cursor} (h : c.token? = .ok (some (t, d))) :
    (∃ text, t = .text text ∧ c.text? = .ok (some (text, d)))
      ∨ (∃ x, t = .number x ∧ c.number? = .ok (some (x, d)))
      ∨ (∃ word, t = Token.ofWord word ∧ c.word? = some word ∧ d = c.afterWord word)
      ∨ (∃ x rest, c.rest = x :: rest ∧ Token.ofChar? x = some t ∧ d = c.advance 1) := by
  unfold token? at h
  split at h
  · cases h
  · cases h; exact .inl ⟨_, rfl, by assumption⟩
  · split at h
    · cases h
    · cases h; exact .inr (.inl ⟨_, rfl, by assumption⟩)
    · split at h
      · cases h; exact .inr (.inr (.inl ⟨_, rfl, by assumption, rfl⟩))
      · cases h
      · rename_i x _ hx
        split at h
        · cases h
          rw [char?, List.head?_eq_some_iff] at hx
          obtain ⟨rest, hr⟩ := hx
          exact .inr (.inr (.inr ⟨x, rest, hr, by assumption, rfl⟩))
        · cases h

/-- At a settled place nothing is skipped before the next token. -/
theorem next?_eq_some_iff {c : Cursor} (hc : c.Settled) {t : Token} {d : Cursor} :
    c.next? = some (t, d) ↔ c.token? = .ok (some (t, d)) := by
  rw [hc.next?_eq]
  split <;> simp_all

/-! ## Movements as tokens -/

theorem text?_eq_some_iff {c : Cursor} (hc : c.Settled) {text : String} {d : Cursor} :
    c.text? = .ok (some (text, d)) ↔ c.next? = some (.text text, d) := by
  rw [next?_eq_some_iff hc]
  refine ⟨token?_of_text?, fun h => ?_⟩
  obtain ⟨_, ht, h⟩ | ⟨_, ht, _⟩ | ⟨word, ht, _⟩ | ⟨x, _, _, ht, _⟩ := token?_cases h
  · cases ht; exact h
  · cases ht
  · rcases Token.ofWord_eq word with hw | hw <;> rw [hw] at ht <;> cases ht
  · rcases Token.eq_of_ofChar? ht with ht | ht <;> cases ht

theorem number?_eq_some_iff {c : Cursor} (hc : c.Settled) {x : Binary64} {d : Cursor} :
    c.number? = .ok (some (x, d)) ↔ c.next? = some (.number x, d) := by
  rw [next?_eq_some_iff hc]
  refine ⟨token?_of_number?, fun h => ?_⟩
  obtain ⟨_, ht, _⟩ | ⟨_, ht, h⟩ | ⟨word, ht, _⟩ | ⟨x, _, _, ht, _⟩ := token?_cases h
  · cases ht
  · cases ht; exact h
  · rcases Token.ofWord_eq word with hw | hw <;> rw [hw] at ht <;> cases ht
  · rcases Token.eq_of_ofChar? ht with ht | ht <;> cases ht

/-- The word that stands here is the token, whatever word it is. -/
theorem word?_eq_some_iff {c : Cursor} (hc : c.Settled) {word : String} :
    c.word? = some word ↔ c.next? = some (Token.ofWord word, c.afterWord word) := by
  rw [next?_eq_some_iff hc]
  refine ⟨token?_of_word?, fun h => ?_⟩
  obtain ⟨_, ht, _⟩ | ⟨_, ht, _⟩ | ⟨other, ht, hw, _⟩ | ⟨x, _, _, ht, _⟩ := token?_cases h
  · rcases Token.ofWord_eq word with hw | hw <;> rw [hw] at ht <;> cases ht
  · rcases Token.ofWord_eq word with hw | hw <;> rw [hw] at ht <;> cases ht
  · rw [Token.ofWord_inj ht]; exact hw
  · exact absurd ht Token.ofWord_ne_ofChar?

theorem eq_afterWord_of_next? {c : Cursor} (hc : c.Settled) {word : String} {d : Cursor}
    (h : c.next? = some (Token.ofWord word, d)) : d = c.afterWord word := by
  rw [next?_eq_some_iff hc] at h
  obtain ⟨_, ht, _⟩ | ⟨_, ht, _⟩ | ⟨other, ht, _, hd⟩ | ⟨x, _, _, ht, _⟩ := token?_cases h
  · rcases Token.ofWord_eq word with hw | hw <;> rw [hw] at ht <;> cases ht
  · rcases Token.ofWord_eq word with hw | hw <;> rw [hw] at ht <;> cases ht
  · rw [Token.ofWord_inj ht]; exact hd
  · exact absurd ht Token.ofWord_ne_ofChar?

/-- A name is read just where the next token is a word that is not reserved. -/
theorem name?_eq_some_iff {c : Cursor} (hc : c.Settled) {word : String} {d : Cursor} :
    c.name? = some (word, d) ↔ c.next? = some (Token.ofWord word, d) ∧ isReserved word = false := by
  constructor
  · intro h
    unfold name? at h
    split at h
    · rename_i other hw
      split at h
      · cases h
      · cases h
        exact ⟨(word?_eq_some_iff hc).1 hw, by simpa using ‹¬isReserved word = true›⟩
    · cases h
  · rintro ⟨h, hres⟩
    obtain rfl := eq_afterWord_of_next? hc h
    rw [name?, (word?_eq_some_iff hc).2 h]
    simp [hres]

/-- The text is a symbol, and this is its token. -/
def IsSymbol (symbol : String) (t : Token) : Prop :=
  ∃ char, symbol.toList = [char] ∧ Token.ofChar? char = some t

/-- A symbol is passed by its characters just where the next token is the symbol's. -/
theorem afterSymbol?_eq_some_iff {c : Cursor} (hc : c.Settled) {symbol : String} {t : Token}
    (hs : IsSymbol symbol t) {d : Cursor} :
    c.afterSymbol? symbol = some d ↔ c.next? = some (t, d) := by
  obtain ⟨char, hlist, ht⟩ := hs
  rw [next?_eq_some_iff hc, afterSymbol?, hlist]
  constructor
  · intro h
    split at h
    · rename_i hp
      obtain ⟨rest, hr⟩ := List.isPrefixOf_iff_prefix.1 hp
      cases h
      exact token?_of_ofChar? hr.symm ht
    · cases h
  · intro h
    obtain ⟨_, hv, _⟩ | ⟨_, hv, _⟩ | ⟨word, hv, _⟩ | ⟨x, rest, hr, hx, hd⟩ := token?_cases h
    · rcases Token.eq_of_ofChar? ht with ht | ht <;> rw [ht] at hv <;> cases hv
    · rcases Token.eq_of_ofChar? ht with ht | ht <;> rw [ht] at hv <;> cases hv
    · rw [hv] at ht
      exact absurd ht Token.ofWord_ne_ofChar?
    · obtain rfl := Token.ofChar?_inj ht hx
      rw [hr, hd]
      simp

theorem isSymbol_leftParen : IsSymbol "(" Grammar.leftParen := ⟨'(', by decide, by decide⟩

theorem isSymbol_rightParen : IsSymbol ")" Grammar.rightParen := ⟨')', by decide, by decide⟩

theorem isSymbol_comma : IsSymbol "," Grammar.comma := ⟨',', by decide, by decide⟩

theorem isSymbol_leftAngle : IsSymbol "<" Grammar.leftAngle := ⟨'<', by decide, by decide⟩

theorem isSymbol_rightAngle : IsSymbol ">" Grammar.rightAngle := ⟨'>', by decide, by decide⟩

theorem isSymbol_equals : IsSymbol "=" Grammar.equals := ⟨'=', by decide, by decide⟩

theorem isSymbol_minus : IsSymbol "-" Grammar.minus := ⟨'-', by decide, by decide⟩

theorem isSymbol_operator (op : Operator) : IsSymbol op.symbol (Grammar.operatorToken op) := by
  cases op
  · exact ⟨'+', by decide, by decide⟩
  · exact ⟨'-', by decide, by decide⟩
  · exact ⟨'*', by decide, by decide⟩
  · exact ⟨'/', by decide, by decide⟩
  · exact ⟨'%', by decide, by decide⟩
  · exact ⟨'<', by decide, by decide⟩
  · exact ⟨'>', by decide, by decide⟩

/-- The text is shaped like a word. -/
def IsWord (word : String) : Prop :=
  word.toList.head?.any isWordStart = true ∧ word.toList.all isWordChar = true

instance (word : String) : Decidable (IsWord word) := inferInstanceAs (Decidable (_ ∧ _))

theorem isWord_color (c : Color) : IsWord c.text := by cases c <;> decide

theorem isWord_solid (kind : Solid) : IsWord kind.text := by cases kind <;> decide

theorem isWord_transform (kind : Transform) : IsWord kind.text := by cases kind <;> decide

theorem isWord_command (name : Command) : IsWord name.text := by cases name <;> decide

/-- A keyword that stands here is the longest word that stands here. -/
theorem word?_of_afterKeyword? {c d : Cursor} {word : String} (hw : IsWord word)
    (h : c.afterKeyword? word = some d) : c.word? = some word ∧ d = c.afterWord word := by
  unfold afterKeyword? at h
  simp only [Bool.and_eq_true, Bool.not_eq_true', Option.ite_none_right_eq_some] at h
  obtain ⟨⟨hp, hnext⟩, hd⟩ := h
  obtain ⟨rest, hr⟩ := List.isPrefixOf_iff_prefix.1 hp
  have hall : ∀ x ∈ word.toList, isWordChar x = true := by simpa using hw.2
  have hrest : rest.takeWhile isWordChar = [] := by
    rw [← hr, List.drop_left] at hnext
    cases rest with
    | nil => rfl
    | cons x rest =>
      have hx : isWordChar x = false := hnext
      rw [List.takeWhile_cons, hx]
      rfl
  have hhead : c.rest.head?.any isWordStart = true := by
    rw [← hr]
    cases hl : word.toList with
    | nil => simp [IsWord, hl] at hw
    | cons x more => simpa [IsWord, hl] using hw.1
  refine ⟨?_, (Option.some.inj hd).symm⟩
  rw [word?, if_pos hhead, ← hr, List.takeWhile_append_of_pos hall, hrest]
  simp

/-- The word that stands here stands here as a keyword. -/
theorem afterKeyword?_of_word? {c : Cursor} {word : String} (h : c.word? = some word) :
    c.afterKeyword? word = some (c.afterWord word) := by
  have hword := toList_of_word? h
  have hdrop : c.rest.drop word.toList.length = c.rest.dropWhile isWordChar := by
    calc c.rest.drop word.toList.length
        = (c.rest.takeWhile isWordChar ++ c.rest.dropWhile isWordChar).drop word.toList.length := by
          rw [List.takeWhile_append_dropWhile]
      _ = c.rest.dropWhile isWordChar := by rw [hword, List.drop_left]
  have hnext : (c.rest.dropWhile isWordChar).head?.any isWordChar = false := by
    have := List.head?_dropWhile_not isWordChar c.rest
    cases hd : (c.rest.dropWhile isWordChar).head? <;> simp_all
  have hp : word.toList.isPrefixOf c.rest = true := by
    rw [List.isPrefixOf_iff_prefix, hword]
    exact List.takeWhile_prefix _
  rw [afterKeyword?, hdrop, hp, hnext]
  rfl

/-- A keyword is passed by its characters just where the next token is that whole word. -/
theorem afterKeyword?_eq_some_iff {c : Cursor} (hc : c.Settled) {word : String} (hw : IsWord word)
    {d : Cursor} : c.afterKeyword? word = some d ↔ c.next? = some (Token.ofWord word, d) := by
  constructor
  · intro h
    obtain ⟨hword, rfl⟩ := word?_of_afterKeyword? hw h
    exact (word?_eq_some_iff hc).1 hword
  · intro h
    obtain rfl := eq_afterWord_of_next? hc h
    exact afterKeyword?_of_word? ((word?_eq_some_iff hc).2 h)

end Cursor

end SceneScript
