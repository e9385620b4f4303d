import SceneScript.Proofs.Parser.Limit
import SceneScript.Proofs.RoundTrip

/-!
# Well-formed programs and the limit on nesting

What is read from a source is a well-formed program within the limit on nesting.  Conversely every
well-formed program within the limit is read from its canonical source, and one past the limit is
refused for that reason.  So the limit is on the depth of programs, however the parser goes about
its alternatives.
-/

namespace SceneScript

namespace Parser

open Rule

/-- A source of the tokens of a well-formed program is that program, or it is nested too deep. -/
theorem parseWith_of_tokens_or_deep {source : String} {p : Program}
    (hahead : (Cursor.start source).Ahead p.tokens) (hwell : p.WellFormed) :
    (p.depth ≤ nestingLimit ∧ parseWith .nothing source = .ok p)
      ∨ (nestingLimit < p.depth ∧ ∃ place,
        parseWith .nothing source = .error (errorAt source (.nestingTooDeep nestingLimit) place)) := by
  rcases Nat.lt_or_ge nestingLimit p.depth with hdeep | hdepth
  · -- with as many levels as the program has, it would be read
    obtain ⟨t, hm, hend⟩ := many_of_tokens hahead hwell (Nat.le_refl p.depth)
    have hlimited := (limited_level (Nat.le_of_lt hdeep)).1
    have hmany : Limited (level .nothing nestingLimit).statement.many
        (level .nothing p.depth).statement.many := limited_many
    rcases hmany.eq_or_deep (State.start source) with heq | ⟨place, htoo⟩
    · -- then the program would be read, and what is read is within the limit
      have hparse : parseWith .nothing source = .ok p := by
        unfold parseWith
        rw [heq, hm]
        simp only [hend, if_true]
      obtain ⟨_, _, _, _, hdepth⟩ := isProgram_of_parseWith hparse
      exact absurd hdepth (Nat.not_le_of_lt hdeep)
    · refine .inr ⟨hdeep, place, ?_⟩
      unfold parseWith
      rw [htoo]
      rfl
  · exact .inl ⟨hdepth, parseWith_of_tokens hahead hwell hdepth⟩

end Parser

/-! ## Programs that are read -/

/-- Whatever the source, a program that is read from it is well formed, and its statements and
expressions are nested within the limit. -/
theorem wellFormed_of_parse (source : String) (p : Program) (h : parse source = .ok p) :
    p.WellFormed ∧ p.depth ≤ Parser.nestingLimit := by
  obtain ⟨_, _, _, hwell, hdepth⟩ := Parser.isProgram_of_parse h
  exact ⟨hwell, hdepth⟩

/-- Operators are grouped to the left, a comparison stands in a condition, and a keyword that is
not reserved is a name. -/
theorem wellFormed_of_counting_loop :
    parse "while light < 10 - 1 - 2 do end = -light * (2 + 'a') end" = .ok ⟨[.loop
        (.binary (.identifier "light") .lessThan
          (.binary (.binary (.number (Numeral.mk ['1', '0'] []).value) .subtract
            (.number (Numeral.mk ['1'] []).value)) .subtract
              (.number (Numeral.mk ['2'] []).value)))
        [.assignment false "end" (.binary (.negate (.identifier "light")) .multiply
          (.paren (.binary (.number (Numeral.mk ['2'] []).value) .add (.text "a"))))]]⟩
      ∧ ∃ p, parse "while light < 10 - 1 - 2 do end = -light * (2 + 'a') end" = .ok p
        ∧ p.WellFormed ∧ p.depth ≤ Parser.nestingLimit := by
  have hparse : parse "while light < 10 - 1 - 2 do end = -light * (2 + 'a') end" = .ok ⟨[.loop
      (.binary (.identifier "light") .lessThan
        (.binary (.binary (.number (Numeral.mk ['1', '0'] []).value) .subtract
          (.number (Numeral.mk ['1'] []).value)) .subtract
            (.number (Numeral.mk ['2'] []).value)))
      [.assignment false "end" (.binary (.negate (.identifier "light")) .multiply
        (.paren (.binary (.number (Numeral.mk ['2'] []).value) .add (.text "a"))))]]⟩ :=
    eq_ok_of_toOption (by decide +kernel)
  exact ⟨hparse, _, hparse, wellFormed_of_parse _ _ hparse⟩

/-! ## The limit -/

/-- From its canonical source a well-formed program is read if it is within the limit on nesting,
and refused for being nested too deep if it is not. -/
theorem parse_source_of_wellFormed (p : Program) (hwell : p.WellFormed) :
    (p.depth ≤ Parser.nestingLimit → parse p.source = .ok p)
      ∧ (Parser.nestingLimit < p.depth →
        ∃ e, parse p.source = .error e ∧ e.kind = .nestingTooDeep Parser.nestingLimit) := by
  have hahead := (Program.spells hwell).ahead
  rw [parse, Parser.parseWith_tables]
  rcases Parser.parseWith_of_tokens_or_deep hahead hwell with ⟨hdepth, hok⟩ | ⟨hdeep, _, herror⟩
  · exact ⟨fun _ => hok, fun hdeep => absurd hdepth (Nat.not_le_of_lt hdeep)⟩
  · exact ⟨fun hdepth => absurd hdepth (Nat.not_le_of_lt hdeep), fun _ => ⟨_, herror, rfl⟩⟩

/-- An empty block inside so many blocks. -/
def nestedBlock : Nat → Statement
  | 0 => .block []
  | n + 1 => .block [nestedBlock n]

theorem wellFormed_nestedBlock (n : Nat) : (nestedBlock n).WellFormed := by
  induction n with
  | zero => exact trivial
  | succ n ih => exact ⟨ih, trivial⟩

/-- The body of the innermost block is a level of its own. -/
theorem depth_nestedBlock (n : Nat) : (nestedBlock n).depth = n + 2 := by
  induction n with
  | zero => rfl
  | succ n ih => simp only [nestedBlock, Statement.depth, Statement.bodyDepth, ih]; omega

theorem parse_source_of_nested_blocks :
    Program.WellFormed ⟨[nestedBlock 98]⟩ ∧ Program.WellFormed ⟨[nestedBlock 99]⟩
      ∧ parse (Program.source ⟨[nestedBlock 98]⟩) = .ok ⟨[nestedBlock 98]⟩
      ∧ ∃ e, parse (Program.source ⟨[nestedBlock 99]⟩) = .error e
        ∧ e.kind = .nestingTooDeep Parser.nestingLimit := by
  have hwell (n : Nat) : Program.WellFormed ⟨[nestedBlock n]⟩ :=
    ⟨wellFormed_nestedBlock n, trivial⟩
  have hdepth (n : Nat) : Program.depth ⟨[nestedBlock n]⟩ = n + 2 := by
    simp only [Program.depth, Statement.bodyDepth, depth_nestedBlock]; omega
  refine ⟨hwell 98, hwell 99, ?_, ?_⟩
  · exact (parse_source_of_wellFormed _ (hwell 98)).1 (by rw [hdepth]; decide)
  · exact (parse_source_of_wellFormed _ (hwell 99)).2 (by rw [hdepth]; decide)

end SceneScript
