import SceneScript.Proofs.Parser.Reached

/-!
# Lexical errors

The parser and the tokenizer agree about what is no token.  The parser scans wherever its rules take
it, but it never scans at a place that is not between two tokens of the tokenizer.
-/

namespace SceneScript

open Cursor SceneScript.Parser

/-- A lexical error of the parser is the one of the tokenizer; the parser fails where the tokenizer
does, or before; and what is parsed consists of tokens. -/
theorem parse_agrees_with_tokenize (source : String) :
    (∀ e error, parse source = .error e → e.kind = .lexical error → tokenize source = .error error)
      ∧ (∀ error, tokenize source = .error error →
        ∃ e, parse source = .error e ∧ e.position.offset ≤ error.offset)
      ∧ ∀ p, parse source = .ok p → ∃ ls, tokenize source = .ok ls := by
  have hparse : parse source = parseWith .nothing source := parseWith_tables source
  rw [hparse]
  have hok : ∀ p, parseWith .nothing source = .ok p → ∃ ls, tokenize source = .ok ls := by
    intro p hp
    obtain ⟨ts, hahead, _⟩ := isProgram_of_parseWith hp
    obtain ⟨ls, hls, _⟩ := lexemes_of_ahead hahead
    exact ⟨ls, hls⟩
  refine ⟨?lexical, ?before, hok⟩
  case lexical =>
    intro e error he hkind
    obtain ⟨place, ⟨ts, hreads, hsettled, _⟩, _, hlexical⟩ := reached_of_parseWith he
    exact lexemes_of_token?_error hreads hsettled (hlexical error hkind)
  case before =>
    intro error herror
    -- no token is read at the place of the error, so the parser cannot have got past it
    obtain ⟨us, d, hreadsd, hd, htoken⟩ := reads_of_lexemes_error herror
    cases hresult : parseWith .nothing source with
    | ok p =>
      obtain ⟨ls, hls⟩ := hok p hresult
      rw [herror] at hls
      cases hls
    | error e =>
      obtain ⟨place, ⟨ts, hreads, _⟩, hposition, _⟩ := reached_of_parseWith hresult
      refine ⟨e, rfl, ?_⟩
      calc e.position.offset = place.pos := by rw [hposition, offset_ofOffset hreads.onward]
        _ ≤ d.pos := hreads.pos_le_of_next?_eq_none hreadsd hd (next?_of_token?_error hd htoken)
        _ = error.offset := (offset_of_token?_error htoken).symm

/-- A string that is not closed is what parser and tokenizer stop at, and with its quote there are
tokens. -/
theorem parse_agrees_with_tokenize_on_open_string :
    (∃ e error, parse "x = 'a" = .error e ∧ e.kind = .lexical error
        ∧ tokenize "x = 'a" = .error error
        ∧ ∃ e', parse "x = 'a" = .error e' ∧ e'.position.offset ≤ error.offset)
      ∧ ∃ p, parse "x = 'a'" = .ok p ∧ ∃ ls, tokenize "x = 'a'" = .ok ls := by
  have hlaw := parse_agrees_with_tokenize "x = 'a"
  have hopen : ∃ e, parse "x = 'a" = .error e ∧ e.kind = .lexical (.unterminatedString 4) :=
    exists_error_of_decide (by decide +kernel)
  obtain ⟨e, he, hkind⟩ := hopen
  have htokens := hlaw.1 e _ he hkind
  have hclosed : parse "x = 'a'" = .ok ⟨[.assignment false "x" (.text "a")]⟩ :=
    eq_ok_of_toOption (by decide +kernel)
  exact ⟨⟨e, _, he, hkind, htokens, hlaw.2.1 _ htokens⟩, _, hclosed,
    (parse_agrees_with_tokenize "x = 'a'").2.2 _ hclosed⟩

end SceneScript
