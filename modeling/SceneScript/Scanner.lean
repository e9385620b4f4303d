import SceneScript.Cursor.Step
import SceneScript.Text.Slice

/-!
# Scanners

A scanner is a byte offset into a source.  It moves by arithmetic on that offset alone: by the bytes
of what it has matched, by an offset that it has searched for and one more for a line feed or a
quote.  Nothing holds the offset between two characters, or before the end, but what it is added up
from, and it can be set to anything.  To look at the source it slices it at the offset.

Every operation is `none` if one of its slices does not exist.  What it answers otherwise comes with
the scanner as it is then left.  What goes on over trivia or tokens comes to an end wherever the
scanner is set to, since each piece of them takes bytes from those that are left.
-/

namespace SceneScript

/-- A byte offset into a source. -/
structure Scanner where
  source : List Char
  pos : Nat
  deriving DecidableEq

namespace Scanner

/-- The scanner at an offset, or at the end of the source if that is before it. -/
def atOffset (source : String) (offset : Nat) : Scanner :=
  ⟨source.toList, min offset (Text.byteLength source.toList)⟩

/-- The scanner set to an offset, whatever is there. -/
def reset (s : Scanner) (pos : Nat) : Scanner := { s with pos }

/-- Nothing is left to read. -/
def isEnd (s : Scanner) : Bool := Text.byteLength s.source ≤ s.pos

/-- What is left of the source. -/
def rest? (s : Scanner) : Option (List Char) := Text.sliceFrom? s.pos s.source

/-- The character that stands here, if any is left. -/
def peek (s : Scanner) : Option (Option Char) := do return (← s.rest?).head?

/-- The scanner behind the character that stands here. -/
def advance (s : Scanner) : Option Scanner := do
  match ← s.peek with
  | some c => return s.reset (s.pos + c.utf8Size)
  | none => return s

/-! ## What is left

The scanner may be set to anything, but where it finds a character there are bytes left, and going on
from there leaves fewer.
-/

/-- The bytes that are left to read. -/
def left (s : Scanner) : Nat := Text.byteLength s.source - s.pos

variable {s t : Scanner} {c : Char}

/-- The character that stands here is the first of what is left. -/
theorem peek_eq_some_iff : s.peek = some (some c) ↔ ∃ rest, s.rest? = some (c :: rest) := by
  constructor
  · intro h
    obtain ⟨rest, hrest, hhead⟩ := Option.bind_eq_some_iff.1 h
    obtain ⟨more, rfl⟩ := List.head?_eq_some_iff.1 (Option.some.inj hhead)
    exact ⟨more, hrest⟩
  · rintro ⟨rest, hrest⟩
    rw [peek, hrest]
    rfl

/-- A character stands before the end. -/
theorem pos_lt_of_peek (h : s.peek = some (some c)) : s.pos < Text.byteLength s.source := by
  obtain ⟨rest, hrest⟩ := peek_eq_some_iff.1 h
  obtain ⟨⟨front, _⟩, hsplit, rfl⟩ := Option.map_eq_some_iff.1 hrest
  obtain ⟨hsource, hpos⟩ := Text.eq_of_splitAt? hsplit
  have hc := c.utf8Size_pos
  rw [hsource, hpos, Text.byteLength_append, Text.byteLength_cons]
  omega

/-- Going on from a character leaves fewer bytes. -/
theorem left_reset_lt (h : s.peek = some (some c)) {pos : Nat} (hpos : s.pos < pos) :
    (s.reset pos).left < s.left := by
  have hlt := pos_lt_of_peek h
  simp only [left, reset]
  omega

theorem left_advance_lt (h : s.peek = some (some c)) (hnext : s.advance = some t) :
    t.left < s.left := by
  simp only [advance, h, Option.bind_eq_bind, Option.bind_some] at hnext
  obtain rfl := Option.some.inj hnext
  exact left_reset_lt h (Nat.lt_add_of_pos_right c.utf8Size_pos)

/-! ## Trivia -/

/-- The scanner behind the line feed that ends a comment, or at the end of the source. -/
def skipComment (s : Scanner) : Option Scanner := do
  match Text.find? (· == '\n') (← s.rest?) with
  | some newline => return s.reset (s.pos + (newline + 1))
  | none => return s.reset (Text.byteLength s.source)

theorem left_skipComment_lt (h : s.peek = some (some c)) (hnext : s.skipComment = some t) :
    t.left < s.left := by
  obtain ⟨rest, -, hnext⟩ := Option.bind_eq_some_iff.1 hnext
  split at hnext
  · obtain rfl := Option.some.inj hnext
    exact left_reset_lt h (by omega)
  · obtain rfl := Option.some.inj hnext
    exact left_reset_lt h (pos_lt_of_peek h)

/-- The scanner behind blanks and comments. -/
def skipTrivia (s : Scanner) : Option Scanner :=
  match _ : s.peek with
  | none => none
  | some none => some s
  | some (some c) =>
    if Text.isBlank c then
      match _ : s.advance with
      | none => none
      | some t => t.skipTrivia
    else if c = '/' then
      match s.rest? with
      | none => none
      | some rest =>
        if "//".toList.isPrefixOf rest then
          match _ : s.skipComment with
          | none => none
          | some t => t.skipTrivia
        else some s
    else some s
termination_by s.left
decreasing_by
  · exact left_advance_lt ‹_› ‹_›
  · exact left_skipComment_lt ‹_› ‹_›

/-- What is skipped, without the facts that show that it ends. -/
theorem skipTrivia_eq (s : Scanner) : s.skipTrivia = (do
    match ← s.peek with
    | none => return s
    | some c =>
      if Text.isBlank c then s.advance >>= skipTrivia
      else if c = '/' then
        if "//".toList.isPrefixOf (← s.rest?) then s.skipComment >>= skipTrivia else return s
      else return s) := by
  fun_cases skipTrivia s <;> simp_all

/-! ## Symbols and words -/

/-- Passes a symbol if it stands here. -/
def eatSymbol (symbol : String) (s : Scanner) : Option (Bool × Scanner) := do
  if symbol.toList.isPrefixOf (← s.rest?) then
    return (true, s.reset (s.pos + Text.byteLength symbol.toList))
  else return (false, s)

/-- Passes a keyword if it stands here as a whole word. -/
def eatKeyword (keyword : String) (s : Scanner) : Option (Bool × Scanner) := do
  let rest ← s.rest?
  if keyword.toList.isPrefixOf rest then
    let behind ← Text.sliceFrom? (Text.byteLength keyword.toList) rest
    if behind.head?.any isWordChar then return (false, s)
    else return (true, s.reset (s.pos + Text.byteLength keyword.toList))
  else return (false, s)

/-- The word that stands here, reserved or not. -/
def peekWord (s : Scanner) : Option (Option String) := do
  let rest ← s.rest?
  if rest.head?.any isWordStart then
    let length := (Text.find? (!isWordChar ·) rest).getD (Text.byteLength rest)
    return some (String.ofList (← Text.sliceTo? length rest))
  else return none

/-- Passes a word that is not reserved. -/
def eatIdentifier (s : Scanner) : Option (Option String × Scanner) := do
  match ← s.peekWord with
  | some word =>
    if isReserved word then return (none, s)
    else return (some word, s.reset (s.pos + Text.byteLength word.toList))
  | none => return (none, s)

/-! ## Literals -/

/-- The length of a number that begins with so many bytes of digits.  A point is part of it only
with a digit behind. -/
def numberLength (whole : Nat) (rest : List Char) : Option Nat := do
  match ← Text.sliceFrom? whole rest with
  | '.' :: behind =>
    let fraction := (Text.find? (!Char.isDigit ·) behind).getD (Text.byteLength behind)
    return if 0 < fraction then whole + (1 + fraction) else whole
  | _ => return whole

/-- Passes a number that does not run into a letter and is not past the largest one. -/
def scanNumber (s : Scanner) : Option (Except LexicalError (Option Binary64) × Scanner) := do
  let rest ← s.rest?
  let whole := (Text.find? (!Char.isDigit ·) rest).getD (Text.byteLength rest)
  if whole = 0 then return (.ok none, s)
  else
    let length ← numberLength whole rest
    let behind ← Text.sliceFrom? length rest
    if behind.head?.any Char.isAlpha then
      let stop := ((Text.find? (!isWordChar ·) behind).map (length + ·)).getD (Text.byteLength rest)
      let piece ← Text.sliceTo? stop rest
      return (.error (.malformedNumber s.pos (String.ofList piece)), s)
    else
      let digits ← Text.sliceTo? length rest
      let value := (Numeral.leading digits).value
      if value.isFinite then return (.ok (some value), s.reset (s.pos + length))
      else return (.error (.malformedNumber s.pos (String.ofList digits)), s)

/-- Passes what stands between two equal quotes. -/
def scanString (s : Scanner) : Option (Except LexicalError (Option String) × Scanner) := do
  match ← s.peek with
  | none => return (.ok none, s)
  | some quote =>
    if quote = '"' ∨ quote = '\'' then
      let body ← Text.sliceFrom? 1 (← s.rest?)
      match Text.find? (· == quote) body with
      | some length =>
        let inside ← Text.sliceTo? length body
        return (.ok (some (String.ofList inside)), s.reset (s.pos + (length + 2)))
      | none => return (.error (.unterminatedString s.pos), s)
    else return (.ok none, s)

/-! ## Tokens -/

/-- Passes the token that stands right here.  The kinds of tokens are tried in this order. -/
def scanToken (s : Scanner) : Option (Except LexicalError (Option Token) × Scanner) := do
  let start := s.pos
  match ← s.peek with
  | none => return (.ok none, s)
  | some c =>
    match ← s.scanString with
    | (.error e, s) => return (.error e, s)
    | (.ok (some text), s) => return (.ok (some (.text text)), s)
    | (.ok none, s) =>
      match ← s.scanNumber with
      | (.error e, s) => return (.error e, s)
      | (.ok (some value), s) => return (.ok (some (.number value)), s)
      | (.ok none, s) =>
        match ← s.peekWord with
        | some word =>
          return (.ok (some (Token.ofWord word)), s.reset (s.pos + Text.byteLength word.toList))
        | none =>
          match Token.ofChar? c with
          | some token => return (.ok (some token), ← s.advance)
          | none => return (.error (.unrecognizedCharacter start c), s)

/-- Skips trivia and passes the next token. -/
def nextToken (s : Scanner) : Option (Except LexicalError (Option Lexeme) × Scanner) := do
  let s ← s.skipTrivia
  let start := s.pos
  match ← s.scanToken with
  | (.error e, s) => return (.error e, s)
  | (.ok none, s) => return (.ok none, s)
  | (.ok (some token), s) => return (.ok (some ⟨token, start, s.pos⟩), s)

/-! ## Tokens to the end -/

/-- A scan leaves fewer bytes if it finds something, and stays otherwise. -/
def Shrinks {α : Type} (s : Scanner) : Except LexicalError (Option α) × Scanner → Prop
  | (.ok (some _), t) => t.left < s.left
  | (_, t) => t = s

theorem left_skipTrivia_le (h : s.skipTrivia = some t) : t.left ≤ s.left := by
  fun_induction skipTrivia s with
  | case4 s c hpeek _ next hnext ih =>
    exact Nat.le_trans (ih h) (Nat.le_of_lt (left_advance_lt hpeek hnext))
  | case7 s _ _ _ next hnext hpeek _ ih =>
    exact Nat.le_trans (ih h) (Nat.le_of_lt (left_skipComment_lt hpeek hnext))
  | case2 | case8 | case9 => obtain rfl := Option.some.inj h; exact Nat.le_refl _
  | case1 | case3 | case5 | case6 => cases h

theorem shrinks_scanString {found : Except LexicalError (Option String) × Scanner}
    (h : s.scanString = some found) : s.Shrinks found := by
  obtain ⟨found?, hpeek, h⟩ := Option.bind_eq_some_iff.1 h
  split at h
  · obtain rfl := Option.some.inj h
    rfl
  · rename_i quote
    split at h
    · obtain ⟨rest, -, h⟩ := Option.bind_eq_some_iff.1 h
      obtain ⟨body, -, h⟩ := Option.bind_eq_some_iff.1 h
      split at h
      · obtain ⟨inside, -, h⟩ := Option.bind_eq_some_iff.1 h
        obtain rfl := Option.some.inj h
        exact left_reset_lt hpeek (by omega)
      · obtain rfl := Option.some.inj h
        rfl
    · obtain rfl := Option.some.inj h
      rfl

/-- A point and the digits behind it only make a number longer. -/
theorem le_numberLength {whole length : Nat} {rest : List Char}
    (h : numberLength whole rest = some length) : whole ≤ length := by
  obtain ⟨behind, -, h⟩ := Option.bind_eq_some_iff.1 h
  split at h
  · obtain rfl := Option.some.inj h
    split <;> omega
  · obtain rfl := Option.some.inj h
    exact Nat.le_refl _

theorem shrinks_scanNumber {found : Except LexicalError (Option Binary64) × Scanner}
    (h : s.scanNumber = some found) : s.Shrinks found := by
  obtain ⟨rest, hrest, h⟩ := Option.bind_eq_some_iff.1 h
  dsimp only at h
  split at h
  · obtain rfl := Option.some.inj h
    rfl
  · rename_i hwhole
    obtain ⟨length, hlength, h⟩ := Option.bind_eq_some_iff.1 h
    obtain ⟨behind, -, h⟩ := Option.bind_eq_some_iff.1 h
    split at h
    · obtain ⟨piece, -, h⟩ := Option.bind_eq_some_iff.1 h
      obtain rfl := Option.some.inj h
      rfl
    · obtain ⟨digits, -, h⟩ := Option.bind_eq_some_iff.1 h
      split at h
      · obtain rfl := Option.some.inj h
        have hle := le_numberLength hlength
        cases rest with
        | nil => exact absurd rfl hwhole
        | cons c rest => exact left_reset_lt (peek_eq_some_iff.2 ⟨_, hrest⟩) (by omega)
      · obtain rfl := Option.some.inj h
        rfl

/-- A word has a character at least. -/
theorem left_reset_word_lt {word : String} (h : s.peekWord = some (some word)) :
    (s.reset (s.pos + Text.byteLength word.toList)).left < s.left := by
  obtain ⟨rest, hrest, h⟩ := Option.bind_eq_some_iff.1 h
  split at h
  · rename_i hstart
    obtain ⟨c, more, rfl⟩ : ∃ c more, rest = c :: more := by
      cases rest with
      | nil => cases hstart
      | cons c more => exact ⟨c, more, rfl⟩
    obtain ⟨inside, hslice, h⟩ := Option.bind_eq_some_iff.1 h
    obtain rfl := Option.some.inj (Option.some.inj h)
    obtain ⟨⟨front, back⟩, hsplit, rfl⟩ := Option.map_eq_some_iff.1 hslice
    have hbytes := (Text.eq_of_splitAt? hsplit).2
    have hword : isWordChar c = true := isWordChar_of_isWordStart hstart
    have hc := c.utf8Size_pos
    rw [Text.find?_getD, List.takeWhile_cons_of_pos (by simpa using hword),
      Text.byteLength_cons] at hbytes
    rw [String.toList_ofList, ← hbytes]
    exact left_reset_lt (peek_eq_some_iff.2 ⟨_, hrest⟩) (by omega)
  · cases h

/-- Whatever kind of token is found, it takes bytes, and what is tried in vain before it takes none.
-/
theorem shrinks_scanToken {found : Except LexicalError (Option Token) × Scanner}
    (h : s.scanToken = some found) : s.Shrinks found := by
  obtain ⟨found?, hpeek, h⟩ := Option.bind_eq_some_iff.1 h
  split at h
  · obtain rfl := Option.some.inj h
    rfl
  · -- what is tried in vain leaves the scanner where it is, and the next kind starts there
    obtain ⟨text, htext, h⟩ := Option.bind_eq_some_iff.1 h
    have hshrinks := shrinks_scanString htext
    split at h
    · obtain rfl := Option.some.inj h
      exact hshrinks
    · obtain rfl := Option.some.inj h
      exact hshrinks
    · rw [show _ = s from hshrinks] at h
      obtain ⟨number, hnumber, h⟩ := Option.bind_eq_some_iff.1 h
      have hshrinks := shrinks_scanNumber hnumber
      split at h
      · obtain rfl := Option.some.inj h
        exact hshrinks
      · obtain rfl := Option.some.inj h
        exact hshrinks
      · rw [show _ = s from hshrinks] at h
        obtain ⟨word, hword, h⟩ := Option.bind_eq_some_iff.1 h
        split at h
        · obtain rfl := Option.some.inj h
          exact left_reset_word_lt hword
        · split at h
          · obtain ⟨next, hnext, h⟩ := Option.bind_eq_some_iff.1 h
            obtain rfl := Option.some.inj h
            exact left_advance_lt hpeek hnext
          · obtain rfl := Option.some.inj h
            rfl

/-- Behind a token there are fewer bytes left than before the trivia in front of it. -/
theorem left_nextToken_lt {lexeme : Lexeme} (h : s.nextToken = some (.ok (some lexeme), t)) :
    t.left < s.left := by
  obtain ⟨settled, htrivia, h⟩ := Option.bind_eq_some_iff.1 h
  obtain ⟨token, htoken, h⟩ := Option.bind_eq_some_iff.1 h
  have hshrinks := shrinks_scanToken htoken
  split at h
  · cases h
  · cases h
  · obtain rfl := (Prod.mk.inj (Option.some.inj h)).2
    exact Nat.lt_of_lt_of_le hshrinks (left_skipTrivia_le htrivia)

/-- Passes tokens up to the end of the source. -/
def tokenize (s : Scanner) : Option (Except LexicalError (List Lexeme) × Scanner) :=
  match _ : s.nextToken with
  | none => none
  | some (.error e, t) => some (.error e, t)
  | some (.ok none, t) => some (.ok [], t)
  | some (.ok (some lexeme), t) => do
    let (more, u) ← t.tokenize
    return (more.map (lexeme :: ·), u)
termination_by s.left
decreasing_by exact left_nextToken_lt ‹_›

/-- What is read, without the facts that show that it ends. -/
theorem tokenize_eq (s : Scanner) : s.tokenize = (do
    match ← s.nextToken with
    | (.error e, t) => return (.error e, t)
    | (.ok none, t) => return (.ok [], t)
    | (.ok (some lexeme), t) =>
      let (more, u) ← t.tokenize
      return (more.map (lexeme :: ·), u)) := by
  fun_cases tokenize s <;> simp [*]

/-! ## Steps -/

/-- What a scanned literal or word is as an answer. -/
def scanned {α : Type} (answer : Option α → CursorAnswer) :
    Except LexicalError (Option α) × Scanner → CursorAnswer × Scanner
  | (.ok found, s) => (answer found, s)
  | (.error e, s) => (.failed e, s)

/-- Takes a step. -/
def run (s : Scanner) : CursorStep → Option (CursorAnswer × Scanner)
  | .seek offset => some (.done, s.reset offset)
  | .char => do return (.char (← s.peek), s)
  | .isEnd => some (.flag s.isEnd, s)
  | .trivia => do return (.done, ← s.skipTrivia)
  | .symbol spelling => do
    let (eaten, after) ← s.eatSymbol spelling
    return (.flag eaten, after)
  | .keyword spelling => do
    let (eaten, after) ← s.eatKeyword spelling
    return (.flag eaten, after)
  | .word => do return (.text (← s.peekWord), s)
  | .name => do
    let (word, after) ← s.eatIdentifier
    return (.text word, after)
  | .number => do return scanned .number (← s.scanNumber)
  | .text => do return scanned .text (← s.scanString)
  | .lexeme => do return scanned .lexeme (← s.nextToken)
  | .lexemes => do
    match ← s.tokenize with
    | (.ok found, after) => return (.lexemes found, after)
    | (.error e, after) => return (.failed e, after)

/-- Takes steps one after the other.  Each answer comes with the scanner as it is then left. -/
def runAll (s : Scanner) : List CursorStep → Option (List (CursorAnswer × Scanner))
  | [] => some []
  | step :: steps => do
    let (answer, after) ← s.run step
    return (answer, after) :: (← after.runAll steps)

end Scanner

end SceneScript
