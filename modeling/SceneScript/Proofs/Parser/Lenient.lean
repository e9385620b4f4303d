import SceneScript.Proofs.Parser.Yields
import SceneScript.Parser.Nesting

/-!
# Rules that take any word

Most rules have no quarrel with a reserved word: where one does not fit, they do not match.  The
only thing that ends a parse in them is the nesting.  Such a rule is `Lenient`, which is a class, so
that it is found for a rule from the way it is put together.
-/

namespace SceneScript.Parser

open Rule

variable {α β : Type} {s t : State} {a : Abort}

namespace Rule

/-! ## Taking the end of a parse apart -/

variable {x y : Rule α} {f : α → Rule β}

theorem aborted_bind_cases (h : (x >>= f) s = .aborted a) :
    x s = .aborted a ∨ ∃ v u, x s = .matched v u ∧ f v u = .aborted a := by
  have h' : andThen x f s = .aborted a := h
  unfold andThen at h'
  split at h'
  · exact .inr ⟨_, _, by assumption, h'⟩
  · cases h'
  · cases h'
    exact .inl (by assumption)

theorem aborted_attempt (h : attempt x s = .aborted a) : x s = .aborted a := by
  unfold attempt at h
  split at h
  · cases h
  · exact h

theorem aborted_orElse_cases (h : x.orElse y s = .aborted a) :
    x s = .aborted a ∨ ∃ u, x s = .unmatched u ∧ y (u.moveTo s.cursor) = .aborted a := by
  unfold orElse at h
  split at h
  · rename_i u hu
    obtain ⟨u', hu', rfl⟩ := unmatched_attempt hu
    exact .inr ⟨u', hu', h⟩
  · exact .inl (aborted_attempt h)

theorem aborted_optionally {x : Rule Unit} (h : optionally x s = .aborted a) :
    x s = .aborted a := by
  unfold optionally at h
  split at h
  · cases h
  · exact h

theorem aborted_map {r : Reply α} {g : α → β} (h : r.map g = .aborted a) : r = .aborted a := by
  cases r <;> cases h
  rfl

/-! ## Lenient rules -/

/-- The rule ends the parse only where the nesting is too deep. -/
class Lenient (x : Rule α) : Prop where
  tooDeep {s : State} {a : Abort} : x s = .aborted a → ∃ place, a = .tooDeep place

/-- A rule that always answers is lenient. -/
theorem lenient_of_ne_aborted (h : ∀ s a, x s ≠ .aborted a) : Lenient x :=
  ⟨fun hx => absurd hx (h _ _)⟩

instance lenient_pure (v : α) : Lenient (pure v : Rule α) := lenient_of_ne_aborted fun _ _ => nofun

instance lenient_trivia : Lenient trivia := lenient_of_ne_aborted fun _ _ => nofun

instance lenient_here : Lenient here := lenient_of_ne_aborted fun _ _ => nofun

instance lenient_unmet (e : Expectation) : Lenient (unmet e : Rule α) :=
  lenient_of_ne_aborted fun _ _ => nofun

instance lenient_stop : Lenient (stop .tooDeep : Rule α) where
  tooDeep h := by
    cases h
    exact ⟨_, rfl⟩

instance lenient_move (g : Cursor → Option Cursor) : Lenient (move g) := by
  refine lenient_of_ne_aborted fun s a h => ?_
  unfold move at h
  split at h <;> cases h

instance lenient_literal (scan : Cursor → Except LexicalError (Option (α × Cursor))) :
    Lenient (literal scan) := by
  refine lenient_of_ne_aborted fun s a h => ?_
  unfold literal at h
  split at h <;> cases h

instance lenient_name : Lenient name := by
  refine lenient_of_ne_aborted fun s a h => ?_
  unfold name at h
  split at h <;> cases h

instance lenient_bind [hx : Lenient x] [hf : ∀ v, Lenient (f v)] : Lenient (x >>= f) where
  tooDeep h := by
    rcases aborted_bind_cases h with h | ⟨v, u, _, h⟩
    · exact hx.tooDeep h
    · exact (hf v).tooDeep h

instance lenient_attempt [hx : Lenient x] : Lenient (attempt x) where
  tooDeep h := hx.tooDeep (aborted_attempt h)

instance lenient_orElse [hx : Lenient x] [hy : Lenient y] : Lenient (x.orElse y) where
  tooDeep h := by
    rcases aborted_orElse_cases h with h | ⟨u, _, h⟩
    · exact hx.tooDeep h
    · exact hy.tooDeep h

instance lenient_optionally {x : Rule Unit} [hx : Lenient x] : Lenient (optionally x) where
  tooDeep h := hx.tooDeep (aborted_optionally h)

instance lenient_firstOf_nil : Lenient (firstOf ([] : List (Rule α))) :=
  lenient_of_ne_aborted fun _ _ => nofun

instance lenient_firstOf_cons {rules : List (Rule α)} [Lenient x] [Lenient (firstOf rules)] :
    Lenient (firstOf (x :: rules)) := lenient_orElse

instance lenient_firstOf_map {ι : Type} (choices : List ι) (rule : ι → Rule α)
    [∀ i, Lenient (rule i)] : Lenient (firstOf (choices.map rule)) := by
  induction choices with
  | nil => exact lenient_firstOf_nil
  | cons i choices ih => exact lenient_firstOf_cons

instance lenient_many [hx : Lenient x] : Lenient x.many where
  tooDeep {s a} h := by
    fun_induction Rule.many x s with
    | case1 s v u hv hlt ih => exact ih (aborted_map h)
    | case2 | case3 => cases h
    | case4 s b hb =>
      cases h
      exact hx.tooDeep hb

instance lenient_many_bind {g : List α → Rule β} [Lenient x] [∀ vs, Lenient (g vs)] :
    Lenient (x.many >>= g) := lenient_bind (x := x.many)

/-! ## Tokens -/

instance lenient_symbol (text : String) : Lenient (symbol text) := by
  unfold symbol
  infer_instance

instance lenient_keyword (word : String) : Lenient (keyword word) := by
  unfold keyword
  infer_instance

instance lenient_dueSymbol (text : String) : Lenient (dueSymbol text) := by
  unfold dueSymbol
  infer_instance

instance lenient_dueKeyword (word : String) : Lenient (dueKeyword word) := by
  unfold dueKeyword
  infer_instance

instance lenient_oneOf (choices : List α) (word : α → String) : Lenient (oneOf choices word) := by
  unfold oneOf
  infer_instance

instance lenient_opening (word : String) : Lenient (opening word) := by
  unfold opening
  infer_instance

instance lenient_closing (word : String) (opened : Cursor) : Lenient (closing word opened) := by
  have hend : @Lenient Unit fun s => .unmatched ((s.expect (.literal "end")).blame
      (.unclosed word opened)) := lenient_of_ne_aborted fun _ _ => nofun
  have hclosing := @lenient_orElse _ (move (Cursor.afterKeyword? "end")) _ _ hend
  unfold closing
  infer_instance

end Rule

/-! ## Expressions -/

section

variable {expression : Rule Expr} [Lenient expression]

instance lenient_arguments : Lenient (arguments expression) := by
  unfold arguments argument
  infer_instance

instance lenient_triple (close : String) : Lenient (triple expression close) := by
  unfold triple
  infer_instance

instance lenient_rgb : Lenient (rgb expression) := by
  unfold rgb
  infer_instance

instance lenient_vector : Lenient (vector expression) := by
  unfold vector
  infer_instance

instance lenient_texture : Lenient (texture expression) := by
  unfold texture
  infer_instance

instance lenient_paren : Lenient (paren expression) := by
  unfold paren
  infer_instance

instance lenient_solid : Lenient (solid expression) := by
  unfold solid
  infer_instance

instance lenient_value : Lenient (value expression) := by
  unfold value number color text identifier
  infer_instance

instance lenient_signed : Lenient (signed expression) := by
  have hvalue : Lenient (value expression) := inferInstance
  have hnegate : Lenient (do return .negate (← value expression) : Rule Expr) := inferInstance
  refine @lenient_bind _ _ _ _ _ fun _ => @lenient_attempt _ _ ⟨fun h => ?_⟩
  split at h
  · exact hnegate.tooDeep h
  · exact hvalue.tooDeep h
  · rename_i hmove
    cases h
    exact Lenient.tooDeep hmove

instance lenient_operator (operators : List Operator) : Lenient (operator operators) := by
  unfold operator
  infer_instance

instance lenient_chain {operand : Rule Expr} [Lenient operand] (operators : List Operator) :
    Lenient (chain operators operand) := by
  unfold chain operation
  infer_instance

instance lenient_sum : Lenient (sum expression) := by
  unfold sum product
  infer_instance

instance lenient_condition : Lenient (condition expression) := by
  unfold condition
  infer_instance

/-! ## Statements -/

instance lenient_camera : Lenient (camera expression) := by
  unfold camera
  infer_instance

instance lenient_light : Lenient (light expression) := by
  unfold light
  infer_instance

instance lenient_command : Lenient (command expression) := by
  unfold command
  infer_instance

end

instance lenient_localKeyword : Lenient localKeyword := by
  unfold localKeyword
  infer_instance

/-! ## All levels -/

/-- The expressions of the parser that remembers nothing are lenient. -/
instance lenient_level_expression (levels : Nat) : Lenient (level .nothing levels).expression := by
  induction levels with
  | zero => exact lenient_bind (f := fun _ => stop _)
  | succ levels ih => exact lenient_bind (f := fun _ => sum _)

end SceneScript.Parser
