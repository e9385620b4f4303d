import SceneScript.Cursor.Step
import SceneScript.Proofs.Cursor.Append
import SceneScript.Proofs.Cursor.Places
import SceneScript.Proofs.Number.ReadBack

/-!
# Steps of a cursor, one by one

Some steps fail after they have looked far ahead.  Whatever a cursor does, it goes back only if it is
sent back.  What eats or scans something passes just that, or nothing; what meets an error stays
where the error is, and meets it again.
-/

namespace SceneScript

open Cursor

/-! ## What a step promises -/

/-- The second place is behind the text. -/
def Cursor.Passes (c : Cursor) (text : List Char) (d : Cursor) : Prop :=
  c.rest = text ++ d.rest ∧ d.pos = c.pos + Text.byteLength text

namespace CursorStep

/-- The step eats a symbol or a word, or scans a literal, if there is one. -/
inductive Eats : CursorStep → Prop
  | symbol (spelling : String) : Eats (.symbol spelling)
  | keyword (spelling : String) : Eats (.keyword spelling)
  | name : Eats .name
  | number : Eats .number
  | text : Eats .text

/-- The step reads tokens. -/
inductive Reads : CursorStep → Prop
  | lexeme : Reads .lexeme
  | lexemes : Reads .lexemes

/-- By its answer the step has found the text. -/
inductive Finds : CursorStep → CursorAnswer → List Char → Prop
  | symbol (spelling : String) : Finds (.symbol spelling) (.flag true) spelling.toList
  | keyword (spelling : String) : Finds (.keyword spelling) (.flag true) spelling.toList
  | name (word : String) : Finds .name (.text (some word)) word.toList
  | number (n : Numeral) : n.Proper → Finds .number (.number (some n.value)) n.text
  | text (quote : Char) (body : String) : quote = '"' ∨ quote = '\'' → quote ∉ body.toList →
      Finds .text (.text (some body)) (quote :: body.toList ++ [quote])

/-- By its answer the step has found nothing, or an error. -/
inductive Misses : CursorStep → CursorAnswer → Prop
  | symbol (spelling : String) : Misses (.symbol spelling) (.flag false)
  | keyword (spelling : String) : Misses (.keyword spelling) (.flag false)
  | name : Misses .name (.text none)
  | number : Misses .number (.number none)
  | malformed (e : LexicalError) : Misses .number (.failed e)
  | text : Misses .text (.text none)
  | unterminated (e : LexicalError) : Misses .text (.failed e)

end CursorStep

variable {source : String} {c d : Cursor} {text : List Char}

/-! ## Eating and scanning -/

namespace Cursor

theorem passes_advance (h : text <+: c.rest) : c.Passes text (c.advance text.length) := by
  obtain ⟨more, hmore⟩ := h
  rw [Passes, rest_advance, pos_advance, ← hmore, List.drop_left, List.take_left]
  exact ⟨rfl, rfl⟩

theorem Passes.onward (h : c.Passes text d) : c.Onward d := by
  obtain ⟨hrest, hpos⟩ := h
  obtain ⟨rest, pos⟩ := d
  obtain rfl : pos = _ := hpos
  refine ⟨text.length, ?_⟩
  rw [advance, hrest, List.drop_left, List.take_left]

theorem passes_of_afterSymbol? {symbol : String} (h : c.afterSymbol? symbol = some d) :
    c.Passes symbol.toList d := by
  unfold afterSymbol? at h
  split at h
  · rename_i hprefix
    cases h
    exact passes_advance (List.isPrefixOf_iff_prefix.1 hprefix)
  · cases h

theorem passes_of_afterKeyword? {word : String} (h : c.afterKeyword? word = some d) :
    c.Passes word.toList d := by
  unfold afterKeyword? at h
  dsimp only at h
  split at h
  · rename_i hprefix
    cases h
    exact passes_advance (List.isPrefixOf_iff_prefix.1 (Bool.and_eq_true_iff.1 hprefix).1)
  · cases h

theorem passes_of_name? {word : String} (h : c.name? = some (word, d)) :
    c.Passes word.toList d := by
  unfold name? at h
  split at h
  · rename_i hword
    split at h
    · cases h
    · cases h
      refine passes_advance ?_
      rw [toList_of_word? hword]
      exact List.takeWhile_prefix _
  · cases h

/-- A numeral that starts with a digit is one that can be read. -/
theorem proper_leading {text : List Char} (h : (Numeral.leading text).whole ≠ []) :
    (Numeral.leading text).Proper where
  whole_ne_nil := h
  whole_digits := List.all_eq_true.1 List.all_takeWhile
  fraction_digits := by
    unfold Numeral.leading
    split
    · exact List.all_eq_true.1 List.all_takeWhile
    · simp

theorem passes_of_number? {value : Binary64} (h : c.number? = .ok (some (value, d))) :
    ∃ n : Numeral, n.Proper ∧ n.value = value ∧ c.Passes n.text d := by
  simp only [number?] at h
  split at h
  · cases h
  · rename_i hwhole
    split at h
    · cases h
    · split at h
      · cases h
        exact ⟨Numeral.leading c.rest, proper_leading hwhole, rfl,
          passes_advance (leading_prefix_text _)⟩
      · cases h

theorem passes_of_text? {body : String} (h : c.text? = .ok (some (body, d))) :
    ∃ quote, (quote = '"' ∨ quote = '\'') ∧ quote ∉ body.toList
      ∧ c.Passes (quote :: body.toList ++ [quote]) d := by
  obtain ⟨quote, rest, hrest, hquote, hnot, rfl⟩ := eq_of_text? h
  refine ⟨quote, hquote, hnot, ?_⟩
  have hclosed : quote :: body.toList ++ [quote] <+: c.rest := by
    rw [text?, hrest] at h
    simp only [if_pos hquote] at h
    split at h
    · rename_i hlt
      obtain ⟨rfl, _⟩ := Prod.mk.inj (Option.some.inj (Except.ok.inj h))
      have hsplit := List.takeWhile_append_dropWhile (p := (· != quote)) (l := rest)
      have hstop := List.head?_dropWhile_not (· != quote) rest
      -- the body is shorter than what follows the quote, so something ends it
      cases hmore : rest.dropWhile (· != quote) with
      | nil =>
        rw [hmore, List.append_nil] at hsplit
        rw [hsplit] at hlt
        exact absurd hlt (Nat.lt_irrefl _)
      | cons x more =>
        rw [hmore] at hsplit hstop
        obtain rfl : x = quote := by simpa using hstop
        rw [String.toList_ofList, hrest, List.cons_append]
        refine List.cons_prefix_cons.2 ⟨rfl, more, ?_⟩
        rw [List.append_assoc, List.singleton_append, hsplit]
    · cases h
  have hlength : (quote :: body.toList ++ [quote]).length = body.toList.length + 2 := by simp
  rw [← hlength]
  exact passes_advance hclosed

/-! ## Reading tokens -/

theorem onward_nextLexeme (c : Cursor) : c.Onward c.nextLexeme.2 := by
  obtain ⟨t, d, hnext⟩ | ⟨_, hend⟩ | ⟨e, herror⟩ := nextLexeme_cases c
  · rw [nextLexeme_of_next? hnext]
    exact onward_of_next? hnext
  · rw [hend]
    exact onward_afterTrivia c
  · rw [herror]
    exact onward_afterTrivia c

theorem onward_lexemes (c : Cursor) : c.Onward c.lexemes.2 := by
  induction hn : c.rest.length using Nat.strongRecOn generalizing c with
  | ind n ih =>
    obtain ⟨t, d, hnext⟩ | ⟨_, hend⟩ | ⟨e, herror⟩ := nextLexeme_cases c
    · have hmore := ih _ (hn ▸ length_rest_lt_of_next? hnext) d rfl
      have honward := (onward_of_next? hnext).trans hmore
      rw [lexemes_of_next? hnext]
      split <;> simp_all
    · rw [lexemes, hend]
      exact onward_afterTrivia c
    · rw [lexemes, herror]
      exact onward_afterTrivia c

/-- A malformed token is met wherever tokens are read from it. -/
theorem token?_of_nextLexeme_error {e : LexicalError} (h : c.nextLexeme = (.error e, d)) :
    d.Settled ∧ d.token? = .error e := by
  unfold nextLexeme at h
  dsimp only at h
  split at h
  · cases h
  · cases h
  · rename_i htoken
    cases h
    exact ⟨settled_afterTrivia c, htoken⟩

theorem token?_of_lexemes_error {e : LexicalError} (h : c.lexemes = (.error e, d)) :
    d.Settled ∧ d.token? = .error e := by
  obtain ⟨ts, place, hreads, hsettled, herror⟩ :=
    reads_of_lexemes_error (congrArg Prod.fst h)
  rw [lexemes_eq_of_token?_error hreads hsettled herror] at h
  cases h
  exact ⟨hsettled, herror⟩

end Cursor

namespace CursorStep

/-! ## Steps -/

/-- What eats or scans something has found it and is behind it, or has not moved. -/
theorem eats_run {step : CursorStep} (h : step.Eats) :
    (∃ text, step.Finds (step.run source c).1 text ∧ c.Passes text (step.run source c).2)
      ∨ step.Misses (step.run source c).1 ∧ (step.run source c).2 = c := by
  cases h with
  | symbol spelling =>
    rw [run]
    cases hfound : c.afterSymbol? spelling with
    | none => exact .inr ⟨.symbol spelling, rfl⟩
    | some d => exact .inl ⟨_, .symbol spelling, passes_of_afterSymbol? hfound⟩
  | keyword spelling =>
    rw [run]
    cases hfound : c.afterKeyword? spelling with
    | none => exact .inr ⟨.keyword spelling, rfl⟩
    | some d => exact .inl ⟨_, .keyword spelling, passes_of_afterKeyword? hfound⟩
  | name =>
    rw [run]
    cases hfound : c.name? with
    | none => exact .inr ⟨.name, rfl⟩
    | some found => exact .inl ⟨_, .name found.1, passes_of_name? hfound⟩
  | number =>
    rw [run]
    rcases hfound : c.number? with e | _ | ⟨value, d⟩
    · exact .inr ⟨.malformed e, rfl⟩
    · exact .inr ⟨.number, rfl⟩
    · obtain ⟨n, hproper, rfl, hpasses⟩ := passes_of_number? hfound
      exact .inl ⟨_, .number n hproper, hpasses⟩
  | text =>
    rw [run]
    rcases hfound : c.text? with e | _ | ⟨body, d⟩
    · exact .inr ⟨.unterminated e, rfl⟩
    · exact .inr ⟨.text, rfl⟩
    · obtain ⟨quote, hquote, hnot, hpasses⟩ := passes_of_text? hfound
      exact .inl ⟨_, .text quote body hquote hnot, hpasses⟩

theorem onward_of_eats {step : CursorStep} (h : step.Eats) : c.Onward (step.run source c).2 := by
  rcases eats_run h with ⟨text, _, hpasses⟩ | ⟨_, hstays⟩
  · exact hpasses.onward
  · rw [hstays]
    exact .refl c

/-- No step goes back, unless it is told where to. -/
theorem onward_run {step : CursorStep} (h : ∀ offset, step ≠ .seek offset) :
    c.Onward (step.run source c).2 := by
  cases step with
  | seek offset => exact absurd rfl (h offset)
  | char => exact .refl c
  | isEnd => exact .refl c
  | word => exact .refl c
  | trivia => exact onward_afterTrivia c
  | symbol spelling => exact onward_of_eats (.symbol spelling)
  | keyword spelling => exact onward_of_eats (.keyword spelling)
  | name => exact onward_of_eats .name
  | number => exact onward_of_eats .number
  | text => exact onward_of_eats .text
  | lexeme =>
    have honward := onward_nextLexeme c
    rw [run]
    split <;> simp_all
  | lexemes =>
    have honward := onward_lexemes c
    rw [run]
    split <;> simp_all

/-- A malformed token is met by whatever reads tokens from it. -/
theorem run_of_token?_error {step : CursorStep} {e : LexicalError} (h : step.Reads)
    (hd : d.Settled) (herror : d.token? = .error e) : step.run source d = (.failed e, d) := by
  have hplace : d.afterTrivia = d := hd
  cases h with
  | lexeme => simp only [run, nextLexeme, hplace, herror]
  | lexemes => simp only [run, lexemes_eq_of_token?_error (.refl d) hd herror]

theorem token?_of_failed {step : CursorStep} {e : LexicalError} (h : step.Reads)
    (hfailed : (step.run source c).1 = .failed e) :
    (step.run source c).2.Settled ∧ (step.run source c).2.token? = .error e := by
  cases h with
  | lexeme =>
    rw [run] at hfailed ⊢
    split at hfailed
    · cases hfailed
    · rename_i hlexeme
      cases hfailed
      exact token?_of_nextLexeme_error hlexeme
  | lexemes =>
    rw [run] at hfailed ⊢
    split at hfailed
    · cases hfailed
    · rename_i hlexemes
      cases hfailed
      exact token?_of_lexemes_error hlexemes

/-- A step in a source leaves the cursor at a place of the source. -/
theorem onward_start_run {step : CursorStep} (hc : (start source).Onward c)
    (h : ∀ offset, step = .seek offset → String.Pos.Raw.IsValid source ⟨offset⟩) :
    (start source).Onward (step.run source c).2 := by
  by_cases hseek : ∃ offset, step = .seek offset
  · obtain ⟨offset, rfl⟩ := hseek
    exact onward_seek (h offset rfl)
  · exact hc.trans (onward_run (not_exists.1 hseek))

end CursorStep

end SceneScript
