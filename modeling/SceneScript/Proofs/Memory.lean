import SceneScript.Parser
import SceneScript.Proofs.Parser.RememberedChoice

/-!
# Remembering is of no account

A parser that remembers its answers finds the same program as one that does not, or fails with the
same error.
-/

namespace SceneScript

namespace Parser

open Rule

theorem fair_start (source : String) : Fair (State.start source) (State.start source) := by
  have hunseen : ∀ {α : Type} (c : Cursor), Unseen ({} : Memo α) c := by
    intro α c p _
    exact Std.TreeMap.getElem?_emptyc
  exact ⟨rfl, rfl, hunseen _, .inl (hunseen _)⟩

theorem parseWith_tables (source : String) :
    parseWith .tables source = parseWith .nothing source := by
  have hpair := body_halts (level_tables_halts nestingLimit) _ _ (fair_start source)
  unfold parseWith
  cases hx : (level .tables nestingLimit).statement.many (State.start source) <;>
    cases hy : (level .nothing nestingLimit).statement.many (State.start source) <;>
    simp only [hx, hy, Reply.Paired] at hpair
  · rename_i statements s statements' t
    obtain ⟨rfl, hhalted⟩ := hpair
    dsimp only
    rw [hhalted.cursor, hhalted.farthest]
  · exact absurd hx (many_ne_unmatched _ _ _)
  · rename_i a b
    rw [hpair]

end Parser

/-- Whether answers are remembered makes no difference, to programs or to errors. -/
theorem parse_eq_parseAfresh (source : String) : parse source = parseAfresh source :=
  Parser.parseWith_tables source

end SceneScript
