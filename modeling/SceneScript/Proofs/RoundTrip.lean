import SceneScript.Proofs.Language
import SceneScript.Proofs.Parser.StatementExact
import SceneScript.Proofs.Source.Canonical

/-!
# Programs are read back from their canonical source

The canonical source of a well-formed program spells the tokens of the program, and these are read
as the program again.  Every program that was read from some source is well formed and within the
limit on nesting, so none is lost or changed by writing it down.
-/

namespace SceneScript

open Grammar

/-- A text that spells some tokens is a source of just these tokens. -/
theorem Spells.ahead {source : String} {ts : List Token} (h : Spells source.toList ts) :
    (Cursor.start source).Ahead ts := by
  obtain ⟨d, hd, hrest⟩ := h (Cursor.start source) [] (List.append_nil _).symm breaks_nil
  have hafter : d.afterTrivia.rest = [] := by
    rw [Cursor.afterTrivia, Cursor.rest_advance, hrest, List.drop_nil]
  have hend : d.Ahead [] := List.isEmpty_iff.2 hafter
  have hahead := hd.ahead hend
  rwa [List.append_nil] at hahead

namespace Parser

open Rule

/-- With levels enough, the statements of a well-formed program are read from its tokens. -/
theorem many_of_tokens {source : String} {p : Program} {levels : Nat}
    (hahead : (Cursor.start source).Ahead p.tokens) (hwell : p.WellFormed)
    (hdepth : p.depth ≤ levels) :
    ∃ t, (level .nothing levels).statement.many (State.start source) = .matched p.statements t
      ∧ t.cursor.afterTrivia.isEnd = true := by
  have hparse := (exactStatement_level levels).body p.statements hwell hdepth []
    (.inl rfl) bounds_nil
  rw [List.append_nil] at hparse
  rcases hparse (State.start source) hahead with ⟨vs, t, us, hm, hus, ⟨rfl, rfl⟩⟩ | ⟨hfalse, _⟩
  · exact ⟨t, hm, hus⟩
  · exact hfalse.elim

/-- A source of the tokens of a well-formed program that is not nested too deep is that program. -/
theorem parseWith_of_tokens {source : String} {p : Program}
    (hahead : (Cursor.start source).Ahead p.tokens) (hwell : p.WellFormed)
    (hdepth : p.depth ≤ nestingLimit) : parseWith .nothing source = .ok p := by
  obtain ⟨t, hm, hend⟩ := many_of_tokens hahead hwell hdepth
  unfold parseWith
  rw [hm]
  simp only [hend, if_true]

end Parser

/-- Written back in canonical form, a program that was parsed is parsed as the same program. -/
theorem parse_source_of_parse (source : String) (p : Program) (h : parse source = .ok p) :
    parse p.source = .ok p := by
  obtain ⟨_, _, _, hwell, hdepth⟩ := Parser.isProgram_of_parse h
  have hagain := Parser.parseWith_of_tokens (Program.spells hwell).ahead hwell hdepth
  rw [parse, Parser.parseWith_tables]
  exact hagain

/-- A scene that is set out in canonical source otherwise than here: arguments get their comma, an
operator its blanks, and a number its shortest spelling. -/
theorem parse_source_of_rotated_draw :
    ∃ p : Program, p = ⟨[.transformation .rotate (.number (Numeral.mk ['1'] []).value)
        (.number (Numeral.mk ['2'] []).value) (.identifier "end") (.command .draw [.identifier "rgb",
          .binary (.paren (.identifier "a")) .subtract (.number (Numeral.mk ['2'] ['5']).value)])]⟩
      ∧ parse "rotate(1, 2, end) draw(rgb (a) -2.50)" = .ok p
      ∧ p.source = "rotate(1, 2, end) draw(rgb, (a) - 2.5)\n"
      ∧ parse p.source = .ok p := by
  have hparse : parse "rotate(1, 2, end) draw(rgb (a) -2.50)" = .ok ⟨[.transformation .rotate
      (.number (Numeral.mk ['1'] []).value) (.number (Numeral.mk ['2'] []).value)
      (.identifier "end") (.command .draw [.identifier "rgb",
        .binary (.paren (.identifier "a")) .subtract
          (.number (Numeral.mk ['2'] ['5']).value)])]⟩ :=
    eq_ok_of_toOption (by decide +kernel)
  exact ⟨_, rfl, hparse, by decide +kernel, parse_source_of_parse _ _ hparse⟩

end SceneScript
