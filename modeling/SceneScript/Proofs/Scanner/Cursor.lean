import SceneScript.Scanner
import SceneScript.Proofs.Cursor.Cut
import SceneScript.Proofs.Cursor.Runs

/-!
# Scanners go where cursors go

At the place of a cursor every slice that a scanner takes exists, and what the scanner finds by
offsets is what the cursor finds by characters.  So the scanner answers what the cursor answers and
is left where the cursor is left.
-/

namespace SceneScript

open Cursor

variable {source : String} {c d : Cursor} {text : List Char}

/-- The scanner at the place of a cursor. -/
def Cursor.scanner (source : String) (c : Cursor) : Scanner := ⟨source.toList, c.pos⟩

namespace Scanner

/-! ## Slices -/

@[simp] theorem pos_scanner : (c.scanner source).pos = c.pos := rfl

/-- A cursor's place has a slice, and it is what the cursor has before it. -/
theorem rest?_scanner (h : (start source).Onward c) : (c.scanner source).rest? = some c.rest := by
  obtain ⟨count, rfl⟩ := h
  have hslice := Text.sliceFrom?_append (source.toList.take count) (source.toList.drop count)
  rwa [List.take_append_drop, ← pos_advance_start] at hslice

theorem peek_scanner (h : (start source).Onward c) : (c.scanner source).peek = some c.char? := by
  rw [peek, rest?_scanner h]
  rfl

theorem reset_eq_scanner {bytes : Nat} (h : d.pos = c.pos + bytes) :
    (c.scanner source).reset (c.pos + bytes) = d.scanner source := by
  rw [Cursor.scanner, reset, Cursor.scanner, h]

/-- Behind a text that stands at the place is the place that many characters on. -/
theorem reset_scanner (h : text <+: c.rest) :
    (c.scanner source).reset (c.pos + Text.byteLength text)
      = (c.advance text.length).scanner source := by
  refine reset_eq_scanner ?_
  rw [pos_advance, ← List.prefix_iff_eq_take.1 h]

theorem advance_scanner {x : Char} {rest : List Char} (h : (start source).Onward c)
    (hrest : c.rest = x :: rest) :
    (c.scanner source).advance = some ((c.advance 1).scanner source) := by
  have hplace : [x] <+: c.rest := ⟨rest, hrest.symm⟩
  have hreset : (c.scanner source).reset (c.pos + x.utf8Size) = (c.advance 1).scanner source :=
    reset_scanner hplace
  simp [advance, peek_scanner h, Cursor.char?, hrest, hreset]

/-- The bytes of a source are those before a place and those behind it. -/
theorem byteLength_source (h : (start source).Onward c) :
    Text.byteLength source.toList = c.pos + Text.byteLength c.rest := by
  have hend : c.endPos = 0 + Text.byteLength source.toList := h.endPos_eq
  rw [Nat.zero_add] at hend
  exact hend.symm

theorem isEnd_scanner (h : (start source).Onward c) : (c.scanner source).isEnd = c.isEnd := by
  have hlength := byteLength_source h
  rw [isEnd, Cursor.isEnd, Bool.eq_iff_iff, decide_eq_true_eq, List.isEmpty_iff,
    ← Text.byteLength_eq_zero_iff]
  show Text.byteLength source.toList ≤ c.pos ↔ _
  omega

/-! ## Symbols and words -/

theorem eatSymbol_scanner (h : (start source).Onward c) (symbol : String) :
    (c.scanner source).eatSymbol symbol = some (match c.afterSymbol? symbol with
      | some d => (true, d.scanner source)
      | none => (false, c.scanner source)) := by
  by_cases hprefix : symbol.toList <+: c.rest
  · simp [eatSymbol, rest?_scanner h, afterSymbol?, hprefix, reset_scanner hprefix]
  · simp [eatSymbol, rest?_scanner h, afterSymbol?, hprefix]

theorem eatKeyword_scanner (h : (start source).Onward c) (keyword : String) :
    (c.scanner source).eatKeyword keyword = some (match c.afterKeyword? keyword with
      | some d => (true, d.scanner source)
      | none => (false, c.scanner source)) := by
  by_cases hprefix : keyword.toList <+: c.rest
  · have hslice := Text.sliceFrom?_of_prefix hprefix
    by_cases hmore : c.rest[keyword.toList.length]?.any isWordChar = true
    · simp [eatKeyword, rest?_scanner h, afterKeyword?, hprefix, hslice, hmore]
    · simp [eatKeyword, rest?_scanner h, afterKeyword?, hprefix, hslice, hmore,
        reset_scanner hprefix]
  · simp [eatKeyword, rest?_scanner h, afterKeyword?, hprefix]

theorem peekWord_scanner (h : (start source).Onward c) :
    (c.scanner source).peekWord = some c.word? := by
  have hword := Text.sliceTo?_of_prefix (List.takeWhile_prefix isWordChar (l := c.rest))
  by_cases hstart : c.rest.head?.any isWordStart = true
  · simp [peekWord, rest?_scanner h, Cursor.word?, hstart, Text.find?_getD, hword]
  · simp [peekWord, rest?_scanner h, Cursor.word?, hstart]

theorem reset_word_scanner {word : String} (h : c.word? = some word) :
    (c.scanner source).reset (c.pos + Text.byteLength word.toList)
      = (c.afterWord word).scanner source := by
  refine reset_scanner ?_
  rw [toList_of_word? h]
  exact List.takeWhile_prefix _

/-- What a cursor scans as an answer of the scanner. -/
def scannedAt {α : Type} (source : String) (c : Cursor) :
    Except LexicalError (Option (α × Cursor)) → Except LexicalError (Option α) × Scanner
  | .ok (some (value, after)) => (.ok (some value), after.scanner source)
  | .ok none => (.ok none, c.scanner source)
  | .error e => (.error e, c.scanner source)

theorem eatIdentifier_scanner (h : (start source).Onward c) :
    (c.scanner source).eatIdentifier = some (match c.name? with
      | some (word, d) => (some word, d.scanner source)
      | none => (none, c.scanner source)) := by
  cases hword : c.word? with
  | none => simp [eatIdentifier, peekWord_scanner h, name?, hword]
  | some word =>
    have hreset : (c.scanner source).reset (c.pos + Text.byteLength word.toList)
        = (c.afterWord word).scanner source := reset_word_scanner hword
    by_cases hreserved : isReserved word = true
    · simp [eatIdentifier, peekWord_scanner h, name?, hword, hreserved]
    · simp [eatIdentifier, peekWord_scanner h, name?, hword, hreserved, hreset]

/-! ## Literals -/

/-- The bytes of a numeral are those of its digits, and those of the point and the digits behind
it. -/
theorem numberLength_eq (text : List Char) :
    numberLength (Text.byteLength (text.takeWhile Char.isDigit)) text
      = some (Text.byteLength (Numeral.leading text).text) := by
  have hslice := Text.sliceFrom?_append (text.takeWhile Char.isDigit)
    (text.dropWhile Char.isDigit)
  rw [List.takeWhile_append_dropWhile] at hslice
  have htext : Text.byteLength (Numeral.leading text).text
      = Text.byteLength (text.takeWhile Char.isDigit)
        + Text.byteLength (if (Numeral.leading text).fraction = [] then []
          else '.' :: (Numeral.leading text).fraction) :=
    Text.byteLength_append _ _
  rw [numberLength, hslice, Option.bind_eq_bind, Option.bind_some, htext]
  split
  · rename_i behind heq
    rw [fraction_leading_of_point heq]
    simp only [Text.find?_getD, Bool.not_not]
    -- a point without a digit behind it is not part of the number
    by_cases hnone : behind.takeWhile Char.isDigit = []
    · simp [hnone]
    · have hpos : 0 < Text.byteLength (behind.takeWhile Char.isDigit) :=
        Nat.pos_of_ne_zero (mt Text.byteLength_eq_zero_iff.1 hnone)
      rw [if_pos hpos, if_neg hnone, Text.byteLength_cons]
      rfl
  · rename_i hpoint
    have hfraction : (Numeral.leading text).fraction = [] := by
      cases hrest : text.dropWhile Char.isDigit with
      | nil => simp only [Numeral.leading, hrest]
      | cons x rest => exact fraction_leading_of_ne hrest fun hx => hpoint rest (hx ▸ hrest)
    rw [hfraction]
    simp

/-- A number that runs into a word is cut out with the word. -/
theorem malformed_slice {front text : List Char} (h : front <+: text) :
    Text.sliceTo? (((Text.find? (!isWordChar ·) (text.drop front.length)).map
        (Text.byteLength front + ·)).getD (Text.byteLength text)) text
      = some (front ++ (text.drop front.length).takeWhile isWordChar) := by
  obtain ⟨back, rfl⟩ := h
  have hprefix : front ++ back.takeWhile isWordChar <+: front ++ back :=
    List.prefix_append_right_inj _ |>.2 (List.takeWhile_prefix _)
  rw [List.drop_left, Text.byteLength_append, Option.getD_map, Text.find?_getD,
    ← Text.byteLength_append]
  simp only [Bool.not_not, Text.sliceTo?_of_prefix hprefix]

theorem scanNumber_scanner (h : (start source).Onward c) :
    (c.scanner source).scanNumber = some (scannedAt source c c.number?) := by
  have hwhole : (Text.find? (!Char.isDigit ·) c.rest).getD (Text.byteLength c.rest)
      = Text.byteLength (c.rest.takeWhile Char.isDigit) := by
    simp only [Text.find?_getD, Bool.not_not]
  have hprefix := leading_prefix_text c.rest
  simp only [scanNumber, rest?_scanner h, hwhole, Option.bind_eq_bind, Option.bind_some,
    Text.byteLength_eq_zero_iff, number?]
  by_cases hnone : c.rest.takeWhile Char.isDigit = []
  · have hwhole : (Numeral.leading c.rest).whole = [] := hnone
    rw [if_pos hnone, if_pos hwhole]
    rfl
  · have hproper : (Numeral.leading c.rest).Proper := proper_leading hnone
    have hagain : Numeral.leading (Numeral.leading c.rest).text = Numeral.leading c.rest := by
      have hleading : Numeral.leading ((Numeral.leading c.rest).text ++ [])
          = Numeral.leading c.rest := Numeral.leading_append hproper (by simp)
      rwa [List.append_nil] at hleading
    have hwhole : (Numeral.leading c.rest).whole ≠ [] := hnone
    rw [if_neg hnone, if_neg hwhole, numberLength_eq, Option.bind_some,
      Text.sliceFrom?_of_prefix hprefix, Option.bind_some]
    -- a letter behind the digits spoils the number, and it is quoted to the end of the word
    by_cases hmore : (c.rest.drop (Numeral.leading c.rest).text.length).head?.any Char.isAlpha = true
    · rw [if_pos hmore, if_pos hmore, malformed_slice hprefix, Option.bind_some]
      rfl
    · rw [if_neg hmore, if_neg hmore, Text.sliceTo?_of_prefix hprefix, Option.bind_some, hagain]
      split
      · rw [pos_scanner, reset_scanner hprefix]
        rfl
      · rfl

/-- A text holds a character if it goes on where those before the character end. -/
theorem length_takeWhile_ne_lt {x : Char} {text : List Char} :
    (text.takeWhile (· != x)).length < text.length ↔ text.any (· == x) = true := by
  induction text with
  | nil => simp
  | cons y text ih =>
    by_cases hy : y = x
    · simp [hy]
    · simpa [hy] using ih

theorem prefix_of_any {x : Char} {text : List Char}
    (h : text.any (· == x) = true) : text.takeWhile (· != x) ++ [x] <+: text := by
  induction text with
  | nil => cases h
  | cons y text ih =>
    by_cases hy : y = x
    · subst hy
      exact ⟨text, by simp⟩
    · have hmore : text.any (· == x) = true := by simpa [hy] using h
      rw [List.takeWhile_cons_of_pos (by simpa using hy), List.cons_append]
      exact List.cons_prefix_cons.2 ⟨rfl, ih hmore⟩

/-- A string in its quotes has two bytes more than without them. -/
theorem pos_of_text? {body : String} (h : c.text? = .ok (some (body, d))) :
    d.pos = c.pos + (Text.byteLength body.toList + 2) := by
  obtain ⟨quote, hquote, _, _, hpos⟩ := passes_of_text? h
  have hone : quote.utf8Size = 1 := by rcases hquote with rfl | rfl <;> rfl
  rw [hpos]
  simp only [List.cons_append, Text.byteLength_cons, Text.byteLength_append, Text.byteLength_nil,
    hone]
  omega

theorem scanString_scanner (h : (start source).Onward c) :
    (c.scanner source).scanString = some (scannedAt source c c.text?) := by
  cases hrest : c.rest with
  | nil =>
    simp only [scanString, peek_scanner h, Cursor.char?, hrest, Cursor.text?]
    rfl
  | cons quote rest =>
    by_cases hquote : quote = '"' ∨ quote = '\''
    · -- a quote is one byte, so what is behind it can be sliced off there
      have hone : Text.byteLength [quote] = 1 := by rcases hquote with rfl | rfl <;> rfl
      have hbody : Text.sliceFrom? 1 (quote :: rest) = some rest := by
        rw [← hone]
        exact Text.sliceFrom?_append [quote] rest
      have hfound := Text.find?_eq (· == quote) rest
      have htext : c.text? = if rest.any (· == quote) then
          .ok (some (String.ofList (rest.takeWhile (· != quote)),
            c.advance ((rest.takeWhile (· != quote)).length + 2)))
          else .error (.unterminatedString c.pos) := by
        simp only [Cursor.text?, hrest, if_pos hquote, length_takeWhile_ne_lt]
      simp only [scanString, peek_scanner h, Cursor.char?, rest?_scanner h, hrest,
        Option.bind_eq_bind, Option.bind_some, List.head?_cons, if_pos hquote, hbody, hfound]
      by_cases hclosed : rest.any (· == quote) = true
      · rw [if_pos hclosed] at htext ⊢
        have hpos := pos_of_text? htext
        have hinside : Text.sliceTo? (Text.byteLength (rest.takeWhile (· != quote))) rest
            = some (rest.takeWhile (· != quote)) :=
          Text.sliceTo?_of_prefix (List.takeWhile_prefix _)
        rw [String.toList_ofList] at hpos
        rw [htext, scannedAt, ← reset_eq_scanner hpos]
        exact congrArg (Option.bind · _) hinside
      · rw [if_neg hclosed] at htext ⊢
        rw [htext]
        rfl
    · simp only [scanString, peek_scanner h, Cursor.char?, hrest, Cursor.text?, if_neg hquote,
        Option.bind_eq_bind, Option.bind_some, List.head?_cons]
      rfl

/-! ## Trivia -/

/-- The place behind a line, and behind the line feed that ends it if there is one. -/
def afterLine (c : Cursor) : Cursor := c.advance ((c.rest.takeWhile (· != '\n')).length + 1)

theorem afterLine_eq_of_lineFeed {rest : List Char} (h : c.rest = '\n' :: rest) :
    afterLine c = c.advance 1 := by
  rw [afterLine, h]
  rfl

theorem afterLine_advance {x : Char} {rest : List Char} (h : c.rest = x :: rest) (hx : x ≠ '\n') :
    afterLine (c.advance 1) = afterLine c := by
  rw [afterLine, advance_advance, rest_advance, afterLine, h, List.drop_one, List.tail_cons,
    List.takeWhile_cons_of_pos (by simpa using hx), List.length_cons, Nat.add_comm 1]

/-- The rest of a comment is the rest of its line, and then there may be more trivia. -/
theorem advance_triviaFrom_true (c : Cursor) :
    c.advance (triviaFrom true c.rest) = (afterLine c).afterTrivia := by
  induction hrest : c.rest generalizing c with
  | nil =>
    have hplace : ∀ count, c.advance count = c := by
      intro count
      rw [Cursor.advance, hrest, List.drop_nil, List.take_nil, Text.byteLength_nil, Nat.add_zero,
        ← hrest]
    rw [afterLine, hplace, hplace, afterTrivia, hplace]
  | cons x rest ih =>
    have hmore : (c.advance 1).rest = rest := by rw [rest_advance, hrest, List.drop_one,
      List.tail_cons]
    rw [triviaFrom, if_pos rfl, Nat.add_comm, ← advance_advance]
    by_cases hx : x = '\n'
    · subst hx
      rw [afterLine_eq_of_lineFeed hrest, afterTrivia, hmore]
      rfl
    · have hne : (x != '\n') = true := by simpa using hx
      rw [hne, ih (c.advance 1) hmore, afterLine_advance hrest hx]

/-- A comment is passed with its line. -/
theorem afterTrivia_of_comment (h : "//".toList <+: c.rest) :
    c.afterTrivia = (afterLine c).afterTrivia := by
  obtain ⟨rest, hrest⟩ := h
  have hmore : (c.advance 1).rest = '/' :: rest := by rw [rest_advance, ← hrest]; rfl
  have hline : afterLine (c.advance 1) = afterLine c :=
    afterLine_advance hrest.symm (by decide)
  have hlength : triviaLength c.rest = 1 + triviaFrom true (c.advance 1).rest := by
    rw [hmore, ← hrest, Nat.add_comm]
    rfl
  rw [afterTrivia, hlength, ← advance_advance, advance_triviaFrom_true, hline]

theorem skipComment_scanner (h : (start source).Onward c) :
    (c.scanner source).skipComment = some ((afterLine c).scanner source) := by
  simp only [skipComment, rest?_scanner h, Option.bind_eq_bind, Option.bind_some, Text.find?_eq]
  by_cases hfeed : c.rest.any (· == '\n') = true
  · rw [if_pos hfeed]
    refine congrArg some ?_
    have hline := prefix_of_any hfeed
    rw [afterLine, ← List.length_singleton, ← List.length_append, ← reset_scanner hline,
      Text.byteLength_append]
    rfl
  · rw [if_neg hfeed]
    have hall : c.rest.takeWhile (· != '\n') = c.rest := by
      have hother : ∀ x ∈ c.rest, (x != '\n') = true := by
        intro x hx
        rw [bne_iff_ne]
        rintro rfl
        exact hfeed (List.any_eq_true.2 ⟨_, hx, beq_self_eq_true _⟩)
      have htake : (c.rest ++ []).takeWhile (· != '\n') = c.rest ++ [].takeWhile (· != '\n') :=
        List.takeWhile_append_of_pos hother
      rwa [List.append_nil, List.takeWhile_nil, List.append_nil] at htake
    have hpos : (afterLine c).pos = c.pos + Text.byteLength c.rest := by
      rw [afterLine, hall, pos_advance, List.take_of_length_le (Nat.le_succ _)]
    refine congrArg some ?_
    rw [← reset_eq_scanner hpos, ← byteLength_source h]
    rfl

theorem skipTrivia_scanner (h : (start source).Onward c) :
    (c.scanner source).skipTrivia = some (c.afterTrivia.scanner source) := by
  -- on what is left: a blank takes a character, a comment at least its two slashes
  induction hn : c.rest.length using Nat.strongRecOn generalizing c with
  | ind n ih =>
    rw [skipTrivia_eq]
    simp only [Option.bind_eq_bind, peek_scanner h, rest?_scanner h, skipComment_scanner h,
      Option.bind_some, Cursor.char?]
    cases hrest : c.rest with
    | nil =>
      have hplace : c.afterTrivia = c := by rw [afterTrivia, hrest]; exact advance_zero c
      rw [hplace]
      rfl
    | cons x rest =>
      have hshorter : ∀ count, (c.advance (count + 1)).rest.length < n := by
        intro count
        rw [← hn, rest_advance, List.length_drop, hrest, List.length_cons]
        omega
      simp only [List.head?_cons]
      by_cases hblank : Text.isBlank x = true
      · rw [if_pos hblank, advance_scanner h hrest, Option.bind_some,
          ih _ (hshorter 0) (h.trans ⟨1, rfl⟩) rfl, afterTrivia_blank hrest hblank]
      · rw [if_neg hblank]
        by_cases hcomment : "//".toList <+: c.rest
        · -- the scanner looks for a slash first, and then for two
          have hslash : x = '/' := by
            obtain ⟨more, hmore⟩ := hcomment
            rw [hrest] at hmore
            exact (List.cons.inj hmore).1.symm
          have hline : (afterLine c).rest.length < n := hshorter _
          have honward : c.Onward (afterLine c) := ⟨_, rfl⟩
          rw [if_pos hslash, ← hrest, if_pos (List.isPrefixOf_iff_prefix.2 hcomment),
            ih _ hline (h.trans honward) rfl, afterTrivia_of_comment hcomment]
        · have hsettled : c.afterTrivia = c := by
            refine settled_of_rest hrest (by simpa using hblank) fun hx hmore => hcomment ?_
            obtain ⟨more, rfl⟩ := List.head?_eq_some_iff.1 hmore
            exact ⟨more, by rw [hrest, hx]; rfl⟩
          rw [hsettled, ← hrest, if_neg (mt List.isPrefixOf_iff_prefix.1 hcomment), ite_self]
          rfl

/-! ## Tokens -/

theorem scanToken_scanner (h : (start source).Onward c) :
    (c.scanner source).scanToken = some (scannedAt source c c.token?) := by
  rw [scanToken]
  simp only [Option.bind_eq_bind, peek_scanner h, scanString_scanner h, Option.bind_some]
  cases hrest : c.rest with
  | nil =>
    have hnone : c.token? = .ok none := by
      simp [token?, Cursor.text?, number?, Numeral.leading, Cursor.word?, Cursor.char?, hrest]
    rw [Cursor.char?, hrest, hnone]
    rfl
  | cons x rest =>
    have hchar : c.char? = some x := by rw [Cursor.char?, hrest, List.head?_cons]
    simp only [hchar, token?]
    -- the kinds are tried in one order by both, and each by offsets and by characters alike
    rcases htext : c.text? with e | _ | ⟨text, d⟩
    · rfl
    · simp only [scannedAt, scanNumber_scanner h, Option.bind_some]
      rcases hnumber : c.number? with e | _ | ⟨value, d⟩
      · rfl
      · simp only [peekWord_scanner h, Option.bind_some]
        cases hword : c.word? with
        | some word =>
          simp only [pos_scanner, reset_word_scanner hword]
          rfl
        | none =>
          cases htoken : Token.ofChar? x with
          | some token =>
            simp only [htoken, advance_scanner h hrest, Option.bind_some]
            rfl
          | none =>
            simp only [htoken]
            rfl
      · rfl
    · rfl

theorem nextToken_scanner (h : (start source).Onward c) :
    (c.scanner source).nextToken = some (c.nextLexeme.1, c.nextLexeme.2.scanner source) := by
  have hstart : (start source).Onward c.afterTrivia := h.trans (onward_afterTrivia c)
  simp only [nextToken, Option.bind_eq_bind, skipTrivia_scanner h, Option.bind_some,
    scanToken_scanner hstart, nextLexeme]
  rcases c.afterTrivia.token? with e | _ | ⟨token, d⟩ <;> rfl

theorem tokenize_scanner (h : (start source).Onward c) :
    (c.scanner source).tokenize = some (c.lexemes.1, c.lexemes.2.scanner source) := by
  induction hn : c.rest.length using Nat.strongRecOn generalizing c with
  | ind n ih =>
    rw [tokenize_eq]
    simp only [Option.bind_eq_bind, nextToken_scanner h, Option.bind_some]
    obtain ⟨t, d, hnext⟩ | ⟨_, hend⟩ | ⟨e, herror⟩ := nextLexeme_cases c
    · have hmore := ih _ (hn ▸ length_rest_lt_of_next? hnext) (h.trans (onward_of_next? hnext)) rfl
      rw [nextLexeme_of_next? hnext, lexemes_of_next? hnext]
      simp only [hmore, Option.bind_some]
      rcases d.lexemes with ⟨more | e, stop⟩ <;> rfl
    · rw [lexemes, hend]
      rfl
    · rw [lexemes, herror]
      rfl

/-! ## Steps -/

/-- At a place of the source every step of a scanner is one of the cursor. -/
theorem run_scanner (h : (start source).Onward c) (step : CursorStep) :
    (c.scanner source).run step
      = some ((step.run source c).1, (step.run source c).2.scanner source) := by
  cases step with
  | seek offset => rfl
  | char => simp only [run, Option.bind_eq_bind, peek_scanner h, Option.bind_some]; rfl
  | isEnd => rw [run, isEnd_scanner h]; rfl
  | trivia => simp only [run, Option.bind_eq_bind, skipTrivia_scanner h, Option.bind_some]; rfl
  | symbol spelling =>
    simp only [run, Option.bind_eq_bind, eatSymbol_scanner h, Option.bind_some, CursorStep.run]
    cases c.afterSymbol? spelling <;> rfl
  | keyword spelling =>
    simp only [run, Option.bind_eq_bind, eatKeyword_scanner h, Option.bind_some, CursorStep.run]
    cases c.afterKeyword? spelling <;> rfl
  | word => simp only [run, Option.bind_eq_bind, peekWord_scanner h, Option.bind_some]; rfl
  | name =>
    simp only [run, Option.bind_eq_bind, eatIdentifier_scanner h, Option.bind_some, CursorStep.run]
    cases c.name? <;> rfl
  | number =>
    simp only [run, Option.bind_eq_bind, scanNumber_scanner h, Option.bind_some, CursorStep.run]
    rcases c.number? with e | _ | ⟨value, d⟩ <;> rfl
  | text =>
    simp only [run, Option.bind_eq_bind, scanString_scanner h, Option.bind_some, CursorStep.run]
    rcases c.text? with e | _ | ⟨text, d⟩ <;> rfl
  | lexeme =>
    simp only [run, Option.bind_eq_bind, nextToken_scanner h, Option.bind_some, CursorStep.run]
    rcases c.nextLexeme with ⟨_ | _, d⟩ <;> rfl
  | lexemes =>
    simp only [run, Option.bind_eq_bind, tokenize_scanner h, Option.bind_some, CursorStep.run]
    rcases c.lexemes with ⟨_ | _, d⟩ <;> rfl

end Scanner

end SceneScript
