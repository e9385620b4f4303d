import SceneScript.Proofs.Memory
import SceneScript.Proofs.Parser.StatementComplete

/-!
# The language of the parser

The parser accepts what the grammar derives and nothing else, but for the limit on nesting.  What
it accepts is read as a syntax tree of the grammar, and no order in which it tries alternatives
makes it miss a program.
-/

namespace SceneScript

open Grammar

namespace Parser

open Rule

/-- The statements of a program are all that is read. -/
theorem exists_many_of_parseWith {source : String} {p : Program}
    (h : parseWith .nothing source = .ok p) :
    ∃ s, (level .nothing nestingLimit).statement.many (State.start source)
        = .matched p.statements s ∧ s.cursor.afterTrivia.isEnd = true := by
  unfold parseWith at h
  split at h
  · rename_i statements s hmany
    dsimp only at h
    split at h
    · rename_i hend
      cases h
      exact ⟨s, hmany, hend⟩
    · cases h
  · cases h
  · cases h

/-- The whole source is read. -/
theorem isProgram_of_parseWith {source : String} {p : Program}
    (h : parseWith .nothing source = .ok p) :
    ∃ ts, (Cursor.start source).Ahead ts ∧ IsProgram ts p ∧ p.WellFormed
      ∧ p.depth ≤ nestingLimit := by
  obtain ⟨s, hmany, hend⟩ := exists_many_of_parseWith h
  obtain ⟨ts, hts, hbody, hwell, hdepth⟩ := body_sound (within_level nestingLimit) _ _ _ hmany
  have hahead : (Cursor.start source).Ahead (ts ++ []) := hts.ahead hend
  rw [List.append_nil] at hahead
  exact ⟨ts, hahead, hbody, hwell, hdepth⟩

/-- The same of the parser that remembers. -/
theorem isProgram_of_parse {source : String} {p : Program} (h : parse source = .ok p) :
    ∃ ts, (Cursor.start source).Ahead ts ∧ IsProgram ts p ∧ p.WellFormed
      ∧ p.depth ≤ nestingLimit := by
  rw [parse, parseWith_tables] at h
  exact isProgram_of_parseWith h

/-- A sentence of the grammar is parsed to its end unless it is nested too deep. -/
theorem parseWith_of_isSentence {source : String} {ts : List Token}
    (hahead : (Cursor.start source).Ahead ts) (h : IsSentence ts) :
    (∃ p, parseWith .nothing source = .ok p)
      ∨ ∃ place, parseWith .nothing source
          = .error (errorAt source (.nestingTooDeep nestingLimit) place) := by
  obtain ⟨p, hbody⟩ := h
  have hparse := (completeStatement_level nestingLimit).body ts p.statements hbody []
    (.inl rfl) bounds_nil
  rw [List.append_nil] at hparse
  unfold parseWith
  rcases hparse (State.start source) hahead with ⟨vs, t, us, hm, hus, _, rfl⟩ | ⟨_, place, hdeep⟩
  · have hend : t.cursor.afterTrivia.isEnd = true := hus
    rw [hm]
    exact .inl ⟨⟨vs⟩, by simp only [hend, if_true]⟩
  · rw [hdeep]
    exact .inr ⟨place, rfl⟩

end Parser

/-- Results are compared by their values, so that they can be evaluated. -/
theorem eq_ok_of_toOption {ε α : Type} {x : Except ε α} {a : α} (h : x.toOption = some a) :
    x = .ok a := by
  cases x with
  | ok b => rw [Option.some.inj h]
  | error e => cases h

/-- A law of an error that can be evaluated. -/
theorem exists_error_of_decide {ε α : Type} {x : Except ε α} {P : ε → Prop} [DecidablePred P]
    (h : (match x with
      | .ok _ => false
      | .error e => decide (P e)) = true) : ∃ e, x = .error e ∧ P e := by
  cases x with
  | ok a => cases h
  | error e => exact ⟨e, rfl, of_decide_eq_true h⟩

/-- What is parsed is derived from the grammar with the program as its tree, and what can be derived
is parsed, unless it is nested too deep. -/
theorem parse_accepts_grammar (source : String) :
    (∀ p, parse source = .ok p →
        ∃ ls, tokenize source = .ok ls ∧ IsProgram (ls.map Lexeme.token) p)
      ∧ ∀ ls, tokenize source = .ok ls → IsSentence (ls.map Lexeme.token) →
        (∃ p, parse source = .ok p)
          ∨ ∃ e, parse source = .error e ∧ e.kind = .nestingTooDeep Parser.nestingLimit := by
  have hparse : parse source = Parser.parseWith .nothing source := Parser.parseWith_tables source
  rw [hparse]
  constructor
  · intro p hp
    obtain ⟨ts, hahead, hprogram, _⟩ := Parser.isProgram_of_parseWith hp
    obtain ⟨ls, hls, rfl⟩ := Cursor.lexemes_of_ahead hahead
    exact ⟨ls, hls, hprogram⟩
  · intro ls hls hsentence
    have hahead := Cursor.ahead_of_lexemes hls
    rcases Parser.parseWith_of_isSentence hahead hsentence with hok | ⟨place, herror⟩
    · exact .inl hok
    · exact .inr ⟨_, herror, rfl⟩

/-- The arguments `rgb`, `(a)` and `-b` are derived, and two arguments are read. -/
theorem parse_accepts_adjacent_arguments :
    parse "draw(rgb (a) -b)" = .ok ⟨[.command .draw [.identifier "rgb",
        .binary (.paren (.identifier "a")) .subtract (.identifier "b")]]⟩
      ∧ ∃ ls, tokenize "draw(rgb (a) -b)" = .ok ls ∧ IsSentence (ls.map Lexeme.token)
        ∧ ((∃ p, parse "draw(rgb (a) -b)" = .ok p)
          ∨ ∃ e, parse "draw(rgb (a) -b)" = .error e
            ∧ e.kind = .nestingTooDeep Parser.nestingLimit) := by
  have hlaw := parse_accepts_grammar "draw(rgb (a) -b)"
  have hparse : parse "draw(rgb (a) -b)" = .ok ⟨[.command .draw [.identifier "rgb",
      .binary (.paren (.identifier "a")) .subtract (.identifier "b")]]⟩ :=
    eq_ok_of_toOption (by decide +kernel)
  obtain ⟨ls, hls, hprogram⟩ := hlaw.1 _ hparse
  exact ⟨hparse, ls, hls, ⟨_, hprogram⟩, hlaw.2 ls hls ⟨_, hprogram⟩⟩

end SceneScript
