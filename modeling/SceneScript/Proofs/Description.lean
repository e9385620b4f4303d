import SceneScript.Proofs.Cursor.Errors
import SceneScript.Proofs.Cursor.Runs

/-!
# Descriptions quote what stands there

A description is of the end of the source, of a string that is not closed, or it quotes the source.
What it quotes is the front of the token that comes next, cut off after so many characters; a
malformed number alone is quoted in full.  Only strings have blanks in them, so only in the
description of a string there can be a line feed.
-/

namespace SceneScript

namespace Cursor

/-- The text quotes a piece of the source that stands at the place. -/
structure Quotes (place : Cursor) (piece : List Char) (text : String) : Prop where
  stands : piece <+: place.rest
  text_eq : text = "`" ++ String.ofList piece ++ "`" ∨ text = "`" ++ String.ofList piece ++ "...`"
  /-- Only a malformed number is quoted in full, however long it is. -/
  short : piece.length ≤ describedWidth
    ∨ place.token? = .error (.malformedNumber place.pos (String.ofList piece))
  /-- Only of a string blanks are quoted. -/
  blank : (∃ x ∈ piece, Text.isBlank x = true) → ∃ value after,
    place.token? = .ok (some (.text value, after))
      ∧ piece = (place.textTo after).take describedWidth

/-- What stands at the place, in a few words. -/
inductive Described (place : Cursor) : String → Prop
  | endOfInput : place.isEnd = true → Described place "end of input"
  | unterminated : place.token? = .error (.unterminatedString place.pos) →
      Described place "an unterminated string"
  | quoted {piece : List Char} {text : String} : place.Quotes piece text → Described place text

/-- A string stands at the place that is broken by a line feed within what a description quotes. -/
def AtBrokenString (place : Cursor) : Prop :=
  ∃ value after, place.token? = .ok (some (.text value, after))
    ∧ '\n' ∈ (place.textTo after).take describedWidth

/-- A number stands at the place that runs into a letter or is too large. -/
def AtMalformedNumber (place : Cursor) : Prop :=
  ∃ start text, place.token? = .error (.malformedNumber start text)

/-- The text says what stands at the place, and is broken by a line feed only with a string. -/
structure ShortlyDescribed (place : Cursor) (text : String) : Prop where
  described : place.Described text
  lineFeed : '\n' ∈ text.toList ↔ place.AtBrokenString

variable {c d : Cursor} {text : List Char} {t : Token}

/-! ## Tokens have no blanks in them -/

theorem textTo_of_passes (h : c.Passes text d) : c.textTo d = text := by
  rw [textTo, h.1, List.length_append, Nat.add_sub_cancel, List.take_left]

theorem isBlank_of_mem_numeral {n : Numeral} (h : n.Proper) :
    ∀ x ∈ n.text, Text.isBlank x = false :=
  h.forall_mem_text (fun _ hx => isBlank_of_isWordChar (isWordChar_of_isDigit hx)) (by decide)

/-- A token is passed by its text, and one that is not a string has no blanks. -/
theorem exists_passes_of_token? (h : c.token? = .ok (some (t, d))) :
    ∃ text, c.Passes text d
      ∧ ((∃ value, t = .text value) ∨ ∀ x ∈ text, Text.isBlank x = false) := by
  obtain ⟨value, rfl, htext⟩ | ⟨x, rfl, hnumber⟩ | ⟨word, rfl, hword, rfl⟩
    | ⟨x, rest, hrest, hchar, rfl⟩ := token?_cases h
  · obtain ⟨quote, _, _, hpasses⟩ := passes_of_text? htext
    exact ⟨_, hpasses, .inl ⟨value, rfl⟩⟩
  · obtain ⟨n, hn, _, hpasses⟩ := passes_of_number? hnumber
    exact ⟨_, hpasses, .inr (isBlank_of_mem_numeral hn)⟩
  · have hlist := toList_of_word? hword
    refine ⟨word.toList, passes_advance (hlist ▸ List.takeWhile_prefix _), .inr fun x hx => ?_⟩
    rw [hlist] at hx
    exact isBlank_of_isWordChar (List.all_eq_true.1 List.all_takeWhile x hx)
  · exact ⟨[x], passes_advance (hrest ▸ List.prefix_append [x] rest),
      .inr (List.forall_mem_singleton.2 (isBlank_of_ofChar? hchar))⟩

/-! ## Errors are about what stands there -/

theorem malformed_of_number? {e : LexicalError} (h : c.number? = .error e) :
    ∃ piece, e = .malformedNumber c.pos (String.ofList piece) ∧ piece <+: c.rest
      ∧ ∀ x ∈ piece, Text.isBlank x = false := by
  -- A number is malformed in two ways: it runs into a word, which is then quoted with it, or its
  -- own digits are too large.
  have hsplit := List.prefix_iff_eq_append.1 (leading_prefix_text c.rest)
  simp only [number?] at h
  split at h
  · cases h
  · rename_i hwhole
    have hblank := isBlank_of_mem_numeral (proper_leading hwhole)
    split at h
    · cases h
      refine ⟨_, rfl, ?_, ?_⟩
      · have hprefix := (List.prefix_append_right_inj (Numeral.leading c.rest).text).2
          (List.takeWhile_prefix (l := c.rest.drop (Numeral.leading c.rest).text.length) isWordChar)
        rwa [hsplit] at hprefix
      · intro x hx
        rcases List.mem_append.1 hx with hx | hx
        · exact hblank x hx
        · exact isBlank_of_isWordChar (List.all_eq_true.1 List.all_takeWhile x hx)
    · split at h
      · cases h
      · cases h
        exact ⟨_, rfl, leading_prefix_text c.rest, hblank⟩

/-! ## Descriptions -/

theorem quotes_token (h : c.token? = .ok (some (t, d))) :
    c.Quotes ((c.textTo d).take describedWidth)
      (if describedWidth < (c.textTo d).length then
        "`" ++ String.ofList ((c.textTo d).take describedWidth) ++ "...`"
      else "`" ++ String.ofList (c.textTo d) ++ "`") := by
  obtain ⟨text, hpasses, htext⟩ := exists_passes_of_token? h
  rw [textTo_of_passes hpasses]
  constructor
  case stands => exact (List.take_prefix _ _).trans ⟨d.rest, hpasses.1.symm⟩
  case text_eq =>
    split
    · exact .inr rfl
    · rw [List.take_of_length_le (by omega)]
      exact .inl rfl
  case short => exact .inl (List.length_take_le _ _)
  case blank =>
    rintro ⟨x, hx, hblank⟩
    rcases htext with ⟨value, rfl⟩ | hnone
    · exact ⟨value, d, h, by rw [textTo_of_passes hpasses]⟩
    · rw [hnone x (List.mem_of_mem_take hx)] at hblank
      cases hblank

theorem described_error {e : LexicalError} (hc : c.Settled) (h : c.token? = .error e) :
    c.Described (match e with
      | .unterminatedString _ => "an unterminated string"
      | .malformedNumber _ text => "`" ++ text ++ "`"
      | .unrecognizedCharacter _ char => "`" ++ char.toString ++ "`") := by
  obtain rfl | hnumber | ⟨x, rest, hrest, rfl⟩ := token?_error_cases h
  · exact .unterminated h
  · obtain ⟨piece, rfl, hstands, hblank⟩ := malformed_of_number? hnumber
    refine .quoted ⟨hstands, .inl rfl, .inr h, ?_⟩
    rintro ⟨x, hx, hyes⟩
    rw [hblank x hx] at hyes
    cases hyes
  · have hwidth : [x].length ≤ describedWidth := Nat.succ_le_succ (Nat.zero_le _)
    refine .quoted ⟨hrest ▸ List.prefix_append [x] rest, .inl rfl, .inl hwidth, ?_⟩
    rintro ⟨y, hy, hyes⟩
    rw [List.mem_singleton.1 hy, hc.isBlank_eq_false hrest] at hyes
    cases hyes

theorem Quotes.describe {d : Cursor} (h : c.afterTrivia.token? = .ok (some (t, d))) :
    c.afterTrivia.Quotes ((c.afterTrivia.textTo d).take describedWidth) c.describe := by
  rw [Cursor.describe, h]
  exact quotes_token h

theorem described_describe (c : Cursor) : c.afterTrivia.Described c.describe := by
  have hsettled := settled_afterTrivia c
  unfold describe
  dsimp only
  cases htoken : c.afterTrivia.token? with
  | ok found =>
    cases found with
    | none => exact .endOfInput (isEnd_of_token? hsettled htoken)
    | some found => exact .quoted (quotes_token htoken)
  | error e =>
    have hdescribed := described_error hsettled htoken
    cases e <;> exact hdescribed

/-- A quotation is broken by a line feed only with what it quotes. -/
theorem Quotes.lineFeed_mem_iff {piece : List Char} {text : String} (h : c.Quotes piece text) :
    '\n' ∈ text.toList ↔ '\n' ∈ piece := by
  have hopening : '\n' ∉ "`".toList := by decide
  have hcut : '\n' ∉ "...`".toList := by decide
  rcases h.text_eq with rfl | rfl <;>
    simp only [String.toList_append, String.toList_ofList, List.mem_append, hopening, hcut,
      false_or, or_false]

/-- A description is broken by a line feed only with the string that it quotes. -/
theorem lineFeed_mem_describe_iff (c : Cursor) :
    '\n' ∈ c.describe.toList ↔ c.afterTrivia.AtBrokenString := by
  constructor
  · intro hfeed
    have hdescribed := described_describe c
    generalize c.describe = text at hfeed hdescribed
    cases hdescribed with
    | endOfInput => exact absurd hfeed (by decide)
    | unterminated => exact absurd hfeed (by decide)
    | quoted hquotes =>
      have hpiece := hquotes.lineFeed_mem_iff.1 hfeed
      obtain ⟨value, after, htoken, rfl⟩ := hquotes.blank ⟨_, hpiece, isBlank_lineFeed⟩
      exact ⟨value, after, htoken, hpiece⟩
  · rintro ⟨value, after, htoken, hfeed⟩
    exact (Quotes.describe htoken).lineFeed_mem_iff.2 hfeed

theorem shortlyDescribed_describe (c : Cursor) : c.afterTrivia.ShortlyDescribed c.describe :=
  ⟨described_describe c, lineFeed_mem_describe_iff c⟩

/-- Two quotation marks and three points are put to what is quoted. -/
theorem Described.length_le {text : String} (h : c.Described text) (hc : ¬c.AtMalformedNumber) :
    text.length ≤ describedWidth + 5 := by
  cases h with
  | endOfInput => decide +kernel
  | unterminated => decide +kernel
  | @quoted piece _ hquotes =>
    have hpiece : piece.length ≤ describedWidth :=
      hquotes.short.resolve_right fun hnumber => hc ⟨_, _, hnumber⟩
    rcases hquotes.text_eq with rfl | rfl <;> simp [← String.length_toList] <;> omega

end Cursor

end SceneScript
