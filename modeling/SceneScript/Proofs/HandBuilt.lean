import SceneScript.Proofs.NestingLimit
import SceneScript.Proofs.Source.Grouped

/-!
# Hand-built programs are read back with the same meaning

A program that was not read from a source may be grouped in any way.  Its canonical source is also
that of the program with the parentheses put in, which is well formed.  So that program is read,
unless these parentheses nest too deep, and it has the same normal form.
-/

namespace SceneScript

/-- Written back, any program that can be written down is read as one of the same normal form,
unless with the parentheses of its source it is nested too deep. -/
theorem parse_source_of_writable (p : Program) (h : p.Writable) :
    (p.grouped.depth ≤ Parser.nestingLimit
        ∧ ∃ q, parse p.source = .ok q ∧ q.normal = p.normal)
      ∨ (Parser.nestingLimit < p.grouped.depth
        ∧ ∃ e, parse p.source = .error e ∧ e.kind = .nestingTooDeep Parser.nestingLimit) := by
  have hwell := Program.wellFormed_grouped h
  have hahead := (Program.spells hwell).ahead
  rw [parse, Parser.parseWith_tables, ← p.source_grouped]
  rcases Parser.parseWith_of_tokens_or_deep hahead hwell with ⟨hdepth, hok⟩ | ⟨hdeep, place, herror⟩
  · exact .inl ⟨hdepth, p.grouped, hok, p.normal_grouped⟩
  · exact .inr ⟨hdeep, _, herror, rfl⟩

/-- A difference on the right of a difference, two minus signs, and a number below zero. -/
theorem parse_source_of_difference_of_difference :
    ∃ p : Program, p.statements = [.assignment false "a" (.binary (.identifier "b") .subtract
        (.binary (.identifier "c") .subtract
          (.negate (.negate (.number (Numeral.mk ['2'] []).value.negate)))))]
      ∧ p.Writable ∧ p.source = "a = b - (c - -(-((-2))))\n"
      ∧ ∃ q, parse p.source = .ok q ∧ q.normal = p.normal := by
  have ha : IsValidName "a" := ⟨⟨'a', [], rfl, by decide, nofun⟩, by decide⟩
  have hb : IsValidName "b" := ⟨⟨'b', [], rfl, by decide, nofun⟩, by decide⟩
  have hc : IsValidName "c" := ⟨⟨'c', [], rfl, by decide, nofun⟩, by decide⟩
  have htwo : (Numeral.mk ['2'] []).value.negate.IsWritable :=
    ⟨by decide +kernel, by decide +kernel⟩
  have hwritable : Program.Writable ⟨[.assignment false "a" (.binary (.identifier "b") .subtract
      (.binary (.identifier "c") .subtract
        (.negate (.negate (.number (Numeral.mk ['2'] []).value.negate)))))]⟩ :=
    ⟨⟨ha, rfl, ⟨hb, fun color => by cases color <;> decide⟩, rfl,
      ⟨hc, fun color => by cases color <;> decide⟩, htwo⟩, trivial⟩
  refine ⟨_, rfl, hwritable, by decide +kernel, ?_⟩
  rcases parse_source_of_writable _ hwritable with ⟨_, hparse⟩ | ⟨hdeep, _⟩
  · exact hparse
  · exact absurd hdeep (by decide +kernel)

end SceneScript
