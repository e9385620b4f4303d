import SceneScript.Parser.Nesting
import SceneScript.Proofs.Parser.Farthest
import SceneScript.Proofs.Parser.Yields

/-!
# Rules go forward

No rule takes the cursor or the farthest failure back: every rule is `Steady`.  Most rules are also
`Loud`: where they do not match, a failure has been noted at the place where they started or behind
it.  What a loud rule has looked at and not matched is therefore never lost.

Both are classes, so that they are found for a rule from the way it is put together.
-/

namespace SceneScript.Parser

open Rule Cursor

variable {α β : Type} {s t u : State}

/-- The second state is not before the first, in its cursor and in its farthest failure. -/
structure State.Upto (s t : State) : Prop where
  cursor : s.cursor.pos ≤ t.cursor.pos
  farthest : s.farthest.place.pos ≤ t.farthest.place.pos

theorem State.Upto.refl (s : State) : s.Upto s := ⟨Nat.le_refl _, Nat.le_refl _⟩

/-- A state that is led to from a later state is led to from the earlier one. -/
theorem State.Upto.trans (h : s.Upto t) (k : t.Upto u) : s.Upto u :=
  ⟨Nat.le_trans h.cursor k.cursor, Nat.le_trans h.farthest k.farthest⟩

/-- A step forward leaves what has been learned. -/
theorem State.upto_moveTo {c : Cursor} (h : s.cursor.pos ≤ c.pos) : s.Upto (s.moveTo c) :=
  ⟨h, Nat.le_refl _⟩

/-- The farthest place only moves on. -/
theorem Farthest.Within.pos_le {f g : Farthest} (h : f.Within g) : f.place.pos ≤ g.place.pos := by
  rcases h with hlt | ⟨heq, _⟩
  · exact Nat.le_of_lt hlt
  · exact Nat.le_of_eq heq

/-- What is expected at a place moves the farthest place on, if at all. -/
theorem State.upto_expect (s : State) (e : Expectation) : s.Upto (s.expect e) :=
  ⟨Nat.le_refl _, (Farthest.within_expect s.farthest s.cursor e).pos_le⟩

theorem State.upto_blame (s : State) (reason : Reason) : s.Upto (s.blame reason) :=
  ⟨Nat.le_refl _, (Farthest.within_blame s.farthest s.cursor reason).pos_le⟩

/-- What is expected is noted no earlier than where it is expected. -/
theorem State.pos_le_expect (s : State) (e : Expectation) :
    s.cursor.pos ≤ (s.expect e).farthest.place.pos := by
  rcases Farthest.mem_expected_expect s.farthest s.cursor e with hlt | ⟨heq, _⟩
  · exact Nat.le_of_lt hlt
  · exact Nat.le_of_eq heq.symm

namespace Rule

/-- The rule takes neither the cursor nor the farthest failure back. -/
class Steady (x : Rule α) : Prop where
  matched {s t : State} {v : α} : x s = .matched v t → s.Upto t
  unmatched {s t : State} : x s = .unmatched t → s.Upto t

/-- Where the rule does not match, a failure is noted there or behind. -/
class Loud (x : Rule α) : Prop extends Steady x where
  loud {s t : State} : x s = .unmatched t → s.cursor.pos ≤ t.farthest.place.pos

variable {x y : Rule α} {f : α → Rule β}

/-! ## Sequence and choice -/

instance loud_pure (v : α) : Loud (pure v : Rule α) where
  matched h := by
    obtain ⟨_, rfl⟩ := matched_pure h
    exact .refl _
  unmatched h := by cases h
  loud h := by cases h

instance steady_bind [Steady x] [∀ v, Steady (f v)] : Steady (x >>= f) where
  matched h := by
    obtain ⟨v, u, hx, hf⟩ := matched_bind h
    exact (Steady.matched hx).trans (Steady.matched hf)
  unmatched h := by
    rcases unmatched_bind h with hx | ⟨v, u, hx, hf⟩
    · exact Steady.unmatched hx
    · exact (Steady.matched hx).trans (Steady.unmatched hf)

instance loud_bind [Loud x] [∀ v, Loud (f v)] : Loud (x >>= f) where
  loud h := by
    rcases unmatched_bind h with hx | ⟨v, u, hx, hf⟩
    · exact Loud.loud hx
    · exact Nat.le_trans (Steady.matched hx).cursor (Loud.loud hf)

/-- The second rule starts where the first one did, with what that one noted. -/
theorem upto_back (h : s.Upto u) : s.Upto (u.moveTo s.cursor) := ⟨Nat.le_refl _, h.farthest⟩

instance steady_attempt [Steady x] : Steady (attempt x) where
  matched h := Steady.matched (matched_attempt.1 h)
  unmatched h := by
    obtain ⟨u, hx, rfl⟩ := unmatched_attempt h
    exact upto_back (Steady.unmatched hx)

instance loud_attempt [Loud x] : Loud (attempt x) where
  loud h := by
    obtain ⟨u, hx, rfl⟩ := unmatched_attempt h
    show _ ≤ u.farthest.place.pos
    exact Loud.loud hx

instance steady_orElse [Steady x] [Steady y] : Steady (x.orElse y) where
  matched h := by
    rcases matched_orElse h with hx | ⟨u, hx, hy⟩
    · exact Steady.matched hx
    · exact (upto_back (Steady.unmatched hx)).trans (Steady.matched hy)
  unmatched h := by
    obtain ⟨u, hx, hy⟩ := unmatched_orElse h
    exact (upto_back (Steady.unmatched hx)).trans (Steady.unmatched hy)

instance loud_orElse_left [Loud x] [Steady y] : Loud (x.orElse y) where
  loud h := by
    obtain ⟨u, hx, hy⟩ := unmatched_orElse h
    exact Nat.le_trans (Loud.loud hx) (Steady.unmatched hy).farthest

instance loud_orElse_right [Steady x] [Loud y] : Loud (x.orElse y) where
  loud h := by
    obtain ⟨u, hx, hy⟩ := unmatched_orElse h
    exact Loud.loud (s := u.moveTo _) hy

instance steady_firstOf_nil : Steady (firstOf ([] : List (Rule α))) where
  matched h := by cases h
  unmatched h := by
    cases h
    exact .refl _

instance steady_firstOf_cons {rules : List (Rule α)} [Steady x] [Steady (firstOf rules)] :
    Steady (firstOf (x :: rules)) := steady_orElse

instance loud_firstOf_head {rules : List (Rule α)} [Loud x] [Steady (firstOf rules)] :
    Loud (firstOf (x :: rules)) := loud_orElse_left

instance loud_firstOf_tail {rules : List (Rule α)} [Steady x] [Loud (firstOf rules)] :
    Loud (firstOf (x :: rules)) := loud_orElse_right

/-- A choice among steady rules is steady. -/
theorem steady_firstOf {rules : List (Rule α)} (h : ∀ rule ∈ rules, Steady rule) :
    Steady (firstOf rules) := by
  induction rules with
  | nil => exact steady_firstOf_nil
  | cons rule rules ih =>
    have := h rule (List.mem_cons_self ..)
    have := ih fun other hmem => h other (List.mem_cons_of_mem _ hmem)
    exact steady_firstOf_cons

instance loud_unmet (e : Expectation) : Loud (unmet e : Rule α) where
  matched h := by cases h
  unmatched h := by
    cases h
    exact State.upto_expect _ e
  loud h := by
    cases h
    exact State.pos_le_expect _ e

instance loud_stop (why : Cursor → Abort) : Loud (stop why : Rule α) where
  matched h := by cases h
  unmatched h := by cases h
  loud h := by cases h

/-! ## Repetition -/

instance loud_optionally {x : Rule Unit} [Steady x] : Loud (optionally x) where
  matched h := by
    rcases matched_optionally h with hx | hx
    · exact Steady.matched hx
    · exact Steady.unmatched hx
  unmatched h := absurd h (optionally_ne_unmatched _ _ _)
  loud h := absurd h (optionally_ne_unmatched _ _ _)

/-- So is what is read any number of times. -/
theorem upto_of_matched_many [Steady x] {vs : List α} (h : x.many s = .matched vs t) :
    s.Upto t := by
  fun_induction Rule.many x s generalizing vs with
  | case1 s v u hx hlt ih =>
    obtain ⟨ws, hmore, _⟩ := matched_map h
    exact (Steady.matched hx).trans (ih hmore)
  | case2 s v u hx hlt =>
    cases h
    exact Steady.matched hx
  | case3 s u hx =>
    cases h
    exact Steady.unmatched hx
  | case4 s a hx => cases h

instance loud_many [Steady x] : Loud (Rule.many x) where
  matched := upto_of_matched_many
  unmatched h := absurd h (many_ne_unmatched _ _ _)
  loud h := absurd h (many_ne_unmatched _ _ _)

instance loud_many_bind {f : List α → Rule β} [Steady x] [∀ vs, Loud (f vs)] :
    Loud (x.many >>= f) := loud_bind (x := x.many)

/-! ## Tokens -/

instance loud_trivia : Loud trivia where
  matched h := by
    cases h
    exact State.upto_moveTo (onward_afterTrivia _).pos_le
  unmatched h := by cases h
  loud h := by cases h

instance loud_here : Loud here where
  matched h := by
    cases h
    exact .refl _
  unmatched h := by cases h
  loud h := by cases h

/-- A step that never goes back is steady. -/
theorem steady_move {f : Cursor → Option Cursor} (hf : ∀ c d, f c = some d → c.pos ≤ d.pos) :
    Steady (move f) where
  matched h := by
    unfold move at h
    split at h
    · rename_i c hc
      cases h
      exact State.upto_moveTo (hf _ c hc)
    · cases h
  unmatched h := by
    unfold move at h
    split at h
    · cases h
    · cases h
      exact .refl _

instance steady_move_symbol (symbol : String) : Steady (move (afterSymbol? symbol)) := by
  refine steady_move fun c d h => ?_
  unfold afterSymbol? at h
  split at h
  · cases h
    exact Onward.pos_le ⟨_, rfl⟩
  · cases h

instance steady_move_keyword (word : String) : Steady (move (afterKeyword? word)) := by
  refine steady_move fun c d h => ?_
  unfold afterKeyword? at h
  dsimp only at h
  split at h
  · cases h
    exact Onward.pos_le ⟨_, rfl⟩
  · cases h

/-- A literal is steady if it never ends before it starts. -/
theorem steady_literal {scan : Cursor → Except LexicalError (Option (α × Cursor))}
    (hscan : ∀ c v d, scan c = .ok (some (v, d)) → c.pos ≤ d.pos) : Steady (literal scan) where
  matched h := State.Upto.mk (hscan _ _ _ (matched_literal h)) (by
    unfold literal at h
    split at h <;> cases h
    exact Nat.le_refl _)
  unmatched h := by
    unfold literal at h
    split at h <;> cases h
    · exact .refl _
    · exact State.upto_blame _ _

instance steady_number : Steady (literal number?) :=
  steady_literal fun _ _ _ h => (beyond_of_token? (token?_of_number? h)).onward.pos_le

instance steady_text : Steady (literal text?) :=
  steady_literal fun _ _ _ h => (beyond_of_token? (token?_of_text? h)).onward.pos_le

instance steady_name : Steady name where
  matched h := by
    unfold name at h
    split at h
    · rename_i word c hname
      cases h
      obtain ⟨_, _, rfl, _⟩ := reads_of_name? hname
      exact State.upto_moveTo (Onward.pos_le ⟨_, rfl⟩)
    · cases h
  unmatched h := by
    unfold name at h
    split at h
    · cases h
    · cases h
      exact .refl _

instance steady_symbol (symbol : String) : Steady (Rule.symbol symbol) := by
  unfold Rule.symbol
  infer_instance

instance steady_keyword (word : String) : Steady (Rule.keyword word) := by
  unfold Rule.keyword
  infer_instance

instance loud_dueSymbol (symbol : String) : Loud (dueSymbol symbol) := by
  unfold dueSymbol
  infer_instance

instance loud_dueKeyword (word : String) : Loud (dueKeyword word) := by
  unfold dueKeyword
  infer_instance

instance steady_oneOf (choices : List α) (word : α → String) : Steady (oneOf choices word) := by
  refine steady_firstOf fun rule hmem => ?_
  obtain ⟨choice, _, rfl⟩ := List.mem_map.1 hmem
  infer_instance

instance steady_opening (word : String) : Steady (opening word) := by
  unfold opening
  infer_instance

instance loud_dueName (what : Expectation) : Loud (dueName what) := by
  have hword : @Loud String fun s =>
      match s.cursor.word? with
      | some word => .aborted (.reservedWord s.cursor word)
      | none => unmet what s := by
    refine @Loud.mk _ _ ⟨fun h => ?_, fun h => ?_⟩ fun h => ?_
    all_goals split at h
    · cases h
    · exact Steady.matched h
    · cases h
    · exact Steady.unmatched h
    · cases h
    · exact Loud.loud h
  have hname := @loud_orElse_right _ name _ _ hword
  unfold dueName
  infer_instance

instance loud_closing (word : String) (opened : Cursor) : Loud (closing word opened) := by
  have hend : @Loud Unit fun s => .unmatched ((s.expect (.literal "end")).blame
      (.unclosed word opened)) := by
    refine @Loud.mk _ _ ⟨nofun, fun h => ?_⟩ fun h => ?_
    · cases h
      exact (State.upto_expect _ _).trans (State.upto_blame _ _)
    · cases h
      exact Nat.le_trans (State.pos_le_expect _ _) (State.upto_blame _ _).farthest
  have hclosing := @loud_orElse_right _ (move (afterKeyword? "end")) _ _ hend
  unfold closing
  infer_instance

end Rule

/-! ## Expressions -/

section Expressions

variable {expression : Rule Expr}

instance steady_operator (operators : List Operator) : Steady (operator operators) := by
  have hchoice : Steady (firstOf (operators.map fun op => do
      move (Cursor.afterSymbol? op.symbol); return op)) := by
    refine steady_firstOf fun rule hmem => ?_
    obtain ⟨op, _, rfl⟩ := List.mem_map.1 hmem
    infer_instance
  unfold operator
  infer_instance

instance loud_argument [Loud expression] : Loud (argument expression) := by
  unfold argument
  infer_instance

instance loud_arguments [Loud expression] : Loud (arguments expression) := by
  unfold arguments
  infer_instance

instance loud_triple [Loud expression] (close : String) : Loud (triple expression close) := by
  unfold triple
  infer_instance

instance steady_rgb [Loud expression] : Steady (rgb expression) := by
  unfold rgb
  infer_instance

instance steady_vector [Loud expression] : Steady (vector expression) := by
  unfold vector
  infer_instance

instance steady_texture [Loud expression] : Steady (texture expression) := by
  unfold texture
  infer_instance

instance steady_paren [Loud expression] : Steady (paren expression) := by
  unfold paren
  infer_instance

instance steady_solid [Loud expression] : Steady (solid expression) := by
  unfold solid
  infer_instance

instance loud_value [Loud expression] : Loud (value expression) := by
  unfold value number color text identifier
  infer_instance

instance loud_signed [Loud expression] : Loud (signed expression) := by
  have hsigned : @Loud Expr fun s =>
      match move (Cursor.afterSymbol? "-") s with
      | .matched _ s => (do return .negate (← value expression) : Rule Expr) s
      | .unmatched s => value expression s
      | .aborted a => .aborted a := by
    refine @Loud.mk _ _ ⟨fun h => ?_, fun h => ?_⟩ fun h => ?_
    all_goals split at h
    · rename_i hmove
      exact (Steady.matched hmove).trans (Steady.matched h)
    · rename_i hmove
      exact (Steady.unmatched hmove).trans (Steady.matched h)
    · cases h
    · rename_i hmove
      exact (Steady.matched hmove).trans (Steady.unmatched h)
    · rename_i hmove
      exact (Steady.unmatched hmove).trans (Steady.unmatched h)
    · cases h
    · rename_i hmove
      exact Nat.le_trans (Steady.matched hmove).cursor (Loud.loud h)
    · rename_i hmove
      exact Nat.le_trans (Steady.unmatched hmove).cursor (Loud.loud h)
    · cases h
  have hattempt := @loud_attempt Expr _ hsigned
  unfold signed
  infer_instance

instance steady_operation {operand : Rule Expr} [Loud operand] (operators : List Operator) :
    Steady (operation operators operand) := by
  unfold operation
  infer_instance

instance loud_chain {operand : Rule Expr} [Loud operand] (operators : List Operator) :
    Loud (chain operators operand) := by
  unfold chain
  infer_instance

instance loud_sum [Loud expression] : Loud (sum expression) := by
  unfold sum product
  infer_instance

instance loud_condition [Loud expression] : Loud (condition expression) := by
  unfold condition
  infer_instance

end Expressions

/-! ## Statements -/

section Statements

variable {statement : Rule Statement} {expression : Rule Expr}

instance steady_unnamed (place : Option Cursor) : Steady (unnamed place) := by
  constructor
  all_goals
    intro s t
    intros
    rename_i h
    unfold unnamed at h
    dsimp only at h
    split at h
  · cases h
  · split at h <;> cases h
  · split at h <;> cases h
  · cases h
  · cases h
  · split at h <;> cases h
    exact .refl _
  · split at h
    · cases h
    · exact Steady.unmatched h
  · cases h
    exact .refl _

/-- Behind a `local` it is noted that a name could have stood here. -/
instance loud_unnamed_some (place : Cursor) : Loud (unnamed (some place)) where
  loud := by
    intro s t h
    unfold unnamed at h
    cases hword : s.cursor.word? <;> simp only [hword] at h
    · split at h
      · cases h
      · exact Loud.loud h
    · cases h

instance loud_localKeyword : Loud localKeyword := by
  unfold localKeyword
  infer_instance

instance steady_assignment [Loud expression] : Steady (assignment expression) := by
  unfold assignment assignee
  infer_instance

instance steady_camera [Loud expression] : Steady (camera expression) := by
  unfold camera
  infer_instance

instance steady_light [Loud expression] : Steady (light expression) := by
  unfold light
  infer_instance

instance steady_block [Loud statement] : Steady (block statement) := by
  unfold block
  infer_instance

instance steady_conditional [Loud statement] [Loud expression] :
    Steady (conditional statement expression) := by
  unfold conditional
  infer_instance

instance steady_loop [Loud statement] [Loud expression] : Steady (loop statement expression) := by
  unfold loop
  infer_instance

instance steady_call [Loud expression] : Steady (call expression) := by
  unfold call
  infer_instance

instance steady_definition [Loud statement] : Steady (definition statement) := by
  unfold definition parameter
  infer_instance

instance steady_command [Loud expression] : Steady (command expression) := by
  unfold command
  infer_instance

instance steady_transformation [Loud statement] [Loud expression] :
    Steady (transformation statement expression) := by
  unfold transformation
  infer_instance

instance loud_anyStatement [Loud statement] [Loud expression] :
    Loud (anyStatement statement expression) := by
  unfold anyStatement
  infer_instance

end Statements

/-- All rules of the parser that remembers nothing are loud. -/
theorem loud_level (levels : Nat) : Loud (level .nothing levels).statement ∧
    Loud (level .nothing levels).expression := by
  induction levels with
  | zero => exact ⟨loud_bind (f := fun _ => stop _), loud_bind (f := fun _ => stop _)⟩
  | succ levels ih =>
    obtain ⟨_, _⟩ := ih
    exact ⟨loud_bind (f := fun _ => anyStatement _ _), loud_bind (f := fun _ => sum _)⟩

instance loud_level_statement (levels : Nat) : Loud (level .nothing levels).statement :=
  (loud_level levels).1

instance loud_level_expression (levels : Nat) : Loud (level .nothing levels).expression :=
  (loud_level levels).2

end SceneScript.Parser
