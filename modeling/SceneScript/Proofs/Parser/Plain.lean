import SceneScript.Parser.Nesting
import SceneScript.Proofs.Cursor.Runs
import SceneScript.Proofs.Parser.Yields

/-!
# Rules that remember nothing

The tables of the parser change only where a statement or an expression is tried.  All other rules
take the cursor on, if they do anything to it, and leave the tables as they are.  Such a rule is
`Plain`, which is a class, so that it is found for a rule from the way it is put together.
-/

namespace SceneScript.Parser

open Rule Cursor

variable {α β : Type} {s t u : State}

/-- The reply leaves the parser in the state. -/
inductive Reply.Leaves : Reply α → State → Prop
  | matched (v : α) (t : State) : Leaves (.matched v t) t
  | unmatched (t : State) : Leaves (.unmatched t) t

theorem Reply.leaves_of_map {r : Reply α} {f : α → β} (h : (r.map f).Leaves t) : r.Leaves t := by
  cases r <;> cases h
  · exact .matched _ _
  · exact .unmatched _

/-- The second state is the first one further on, with the same tables. -/
structure State.Onward (s t : State) : Prop where
  cursor : s.cursor.Onward t.cursor
  statements : t.statements = s.statements
  expressions : t.expressions = s.expressions

theorem State.Onward.refl (s : State) : s.Onward s := ⟨.refl _, rfl, rfl⟩

theorem State.Onward.trans (h : s.Onward t) (k : t.Onward u) : s.Onward u :=
  ⟨h.cursor.trans k.cursor, k.statements.trans h.statements, k.expressions.trans h.expressions⟩

/-- The cursor is put back where it was. -/
theorem State.Onward.back (h : s.Onward t) : s.Onward (t.moveTo s.cursor) :=
  ⟨.refl _, h.statements, h.expressions⟩

theorem State.onward_moveTo {c : Cursor} (h : s.cursor.Onward c) : s.Onward (s.moveTo c) :=
  ⟨h, rfl, rfl⟩

namespace Rule

variable {x y : Rule α} {f : α → Rule β}

/-! ## Where a rule leaves the parser -/

theorem leaves_bind (h : ((x >>= f) s).Leaves t) :
    x s = .unmatched t ∨ ∃ v u, x s = .matched v u ∧ (f v u).Leaves t := by
  have h' : (andThen x f s).Leaves t := h
  unfold andThen at h'
  split at h'
  · exact .inr ⟨_, _, by assumption, h'⟩
  · cases h'
    exact .inl (by assumption)
  · cases h'

theorem leaves_orElse (h : (x.orElse y s).Leaves t) :
    (∃ v, x s = .matched v t) ∨ ∃ u, x s = .unmatched u ∧ (y (u.moveTo s.cursor)).Leaves t := by
  cases hx : x s with
  | matched v u =>
    rw [orElse_of_matched hx] at h
    cases h
    exact .inl ⟨v, rfl⟩
  | unmatched u =>
    rw [orElse_of_unmatched hx] at h
    exact .inr ⟨u, rfl, h⟩
  | aborted a =>
    rw [orElse_of_aborted hx] at h
    cases h

theorem leaves_optionally {x : Rule Unit} (h : (optionally x s).Leaves t) : (x s).Leaves t := by
  unfold optionally at h
  split at h
  · cases h
    rename_i hx
    rw [hx]
    exact .unmatched _
  · exact h

/-! ## Plain rules -/

/-- The rule takes the cursor on and does not touch the tables. -/
class Plain (x : Rule α) : Prop where
  onward {s t : State} : (x s).Leaves t → s.Onward t

theorem Plain.matched [Plain x] {v : α} (h : x s = .matched v t) : s.Onward t :=
  Plain.onward (x := x) (by rw [h]; exact .matched v t)

theorem Plain.unmatched [Plain x] (h : x s = .unmatched t) : s.Onward t :=
  Plain.onward (x := x) (by rw [h]; exact .unmatched t)

instance plain_pure (v : α) : Plain (pure v : Rule α) where
  onward h := by
    cases h
    exact .refl _

instance plain_trivia : Plain trivia where
  onward h := by
    cases h
    exact State.onward_moveTo (onward_afterTrivia _)

instance plain_here : Plain here where
  onward h := by
    cases h
    exact .refl _

instance plain_unmet (e : Expectation) : Plain (unmet e : Rule α) where
  onward h := by
    cases h
    exact ⟨.refl _, rfl, rfl⟩

instance plain_bind [Plain x] [∀ v, Plain (f v)] : Plain (x >>= f) where
  onward h := by
    rcases leaves_bind h with hx | ⟨v, u, hx, hf⟩
    · exact Plain.unmatched hx
    · exact (Plain.matched hx).trans (Plain.onward hf)

instance plain_orElse [Plain x] [Plain y] : Plain (x.orElse y) where
  onward h := by
    rcases leaves_orElse h with ⟨v, hx⟩ | ⟨u, hx, hy⟩
    · exact Plain.matched hx
    · exact (Plain.unmatched hx).back.trans (Plain.onward hy)

instance plain_optionally {x : Rule Unit} [Plain x] : Plain (optionally x) where
  onward h := Plain.onward (leaves_optionally h)

instance plain_firstOf_nil : Plain (firstOf ([] : List (Rule α))) where
  onward h := by
    cases h
    exact .refl _

instance plain_firstOf_cons {rules : List (Rule α)} [Plain x] [Plain (firstOf rules)] :
    Plain (firstOf (x :: rules)) := plain_orElse

instance plain_firstOf_map {ι : Type} (choices : List ι) (rule : ι → Rule α)
    [∀ i, Plain (rule i)] : Plain (firstOf (choices.map rule)) := by
  induction choices with
  | nil => exact plain_firstOf_nil
  | cons i choices ih => exact plain_firstOf_cons

/-! ## Tokens -/

theorem move_of_some {g : Cursor → Option Cursor} {c : Cursor} (h : g s.cursor = some c) :
    move g s = .matched () (s.moveTo c) := by
  simp only [move, h]

theorem plain_move {g : Cursor → Option Cursor} (hg : ∀ c d, g c = some d → c.Onward d) :
    Plain (move g) where
  onward {s t} h := by
    unfold move at h
    split at h
    · rename_i c hc
      cases h
      exact State.onward_moveTo (hg _ c hc)
    · cases h
      exact .refl _

instance plain_move_symbol (symbol : String) : Plain (move (afterSymbol? symbol)) :=
  plain_move fun _ _ h => (passes_of_afterSymbol? h).onward

instance plain_move_keyword (word : String) : Plain (move (afterKeyword? word)) :=
  plain_move fun _ _ h => (passes_of_afterKeyword? h).onward

theorem plain_literal {scan : Cursor → Except LexicalError (Option (α × Cursor))}
    (hscan : ∀ c v d, scan c = .ok (some (v, d)) → c.Onward d) : Plain (literal scan) where
  onward {s t} h := by
    unfold literal at h
    split at h
    · rename_i v c hc
      cases h
      exact State.onward_moveTo (hscan _ v c hc)
    · cases h
      exact .refl _
    · cases h
      exact ⟨.refl _, rfl, rfl⟩

instance plain_number : Plain (literal number?) :=
  plain_literal fun _ _ _ h => (beyond_of_token? (token?_of_number? h)).onward

instance plain_text : Plain (literal text?) :=
  plain_literal fun _ _ _ h => (beyond_of_token? (token?_of_text? h)).onward

instance plain_name : Plain name where
  onward h := by
    unfold name at h
    split at h
    · rename_i word c hname
      cases h
      exact State.onward_moveTo (passes_of_name? hname).onward
    · cases h
      exact .refl _

instance plain_symbol (symbol : String) : Plain (Rule.symbol symbol) := by
  unfold Rule.symbol
  infer_instance

instance plain_keyword (word : String) : Plain (Rule.keyword word) := by
  unfold Rule.keyword
  infer_instance

instance plain_dueSymbol (symbol : String) : Plain (dueSymbol symbol) := by
  unfold dueSymbol
  infer_instance

instance plain_dueKeyword (word : String) : Plain (dueKeyword word) := by
  unfold dueKeyword
  infer_instance

instance plain_oneOf (choices : List α) (word : α → String) : Plain (oneOf choices word) := by
  unfold oneOf
  infer_instance

instance plain_opening (word : String) : Plain (opening word) := by
  unfold opening
  infer_instance

instance plain_dueName (what : Expectation) : Plain (dueName what) := by
  have hword : @Plain String fun s =>
      match s.cursor.word? with
      | some word => .aborted (.reservedWord s.cursor word)
      | none => unmet what s := by
    refine @Plain.mk _ _ fun h => ?_
    split at h
    · cases h
    · exact Plain.onward h
  have hname := @plain_orElse _ name _ _ hword
  unfold dueName
  infer_instance

instance plain_closing (word : String) (opened : Cursor) : Plain (closing word opened) := by
  have hend : @Plain Unit fun s => .unmatched ((s.expect (.literal "end")).blame
      (.unclosed word opened)) := by
    refine @Plain.mk _ _ fun h => ?_
    cases h
    exact ⟨.refl _, rfl, rfl⟩
  have hclosing := @plain_orElse _ (move (afterKeyword? "end")) _ _ hend
  unfold closing
  infer_instance

end Rule

/-! ## Parts of expressions and statements -/

instance plain_operator (operators : List Operator) : Plain (operator operators) := by
  unfold operator
  infer_instance

instance plain_parameter : Plain parameter := by
  unfold parameter
  infer_instance

instance plain_unnamed (place : Option Cursor) : Plain (unnamed place) where
  onward {s t} h := by
    unfold unnamed at h
    dsimp only at h
    split at h
    · cases h
    · split at h
      · cases h
      · cases h
        exact .refl _
    · split at h
      · cases h
      · exact Plain.onward h
    · cases h
      exact .refl _

instance plain_localKeyword : Plain localKeyword := by
  unfold localKeyword
  infer_instance

instance plain_assignee : Plain assignee := by
  unfold assignee
  infer_instance

end SceneScript.Parser
