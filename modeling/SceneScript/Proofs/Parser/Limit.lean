import SceneScript.Proofs.Parser.Parses

/-!
# The limit on nesting

With fewer levels to go the parser does what it does with more of them, or it gives up because the
nesting is too deep.  So the limit never changes what a source is read as.

`Limited x y` says that of two rules.  It is a class, so that it is found for two rules that are
put together in the same way.
-/

namespace SceneScript.Parser

open Rule

namespace Rule

variable {α β : Type}

/-- The first rule does what the second one does, or the nesting is too deep for it. -/
class Limited (x y : Rule α) : Prop where
  eq_or_deep (s : State) : x s = y s ∨ x.Deep s

variable {x y : Rule α}

instance limited_refl : Limited x x := ⟨fun _ => .inl rfl⟩

instance limited_bind {f g : α → Rule β} [hx : Limited x y] [hf : ∀ v, Limited (f v) (g v)] :
    Limited (x >>= f) (y >>= g) where
  eq_or_deep s := by
    rcases hx.eq_or_deep s with heq | hdeep
    · cases hy : y s with
      | matched v t =>
        rw [hy] at heq
        have hmore := (hf v).eq_or_deep t
        unfold Deep at hmore ⊢
        rw [bind_of_matched heq, bind_of_matched hy]
        exact hmore
      | unmatched t =>
        rw [hy] at heq
        exact .inl (by rw [bind_of_unmatched heq, bind_of_unmatched hy])
      | aborted a =>
        rw [hy] at heq
        exact .inl (by rw [aborted_bind heq, aborted_bind hy])
    · exact .inr hdeep.bind

instance limited_attempt [hx : Limited x y] : Limited (attempt x) (attempt y) where
  eq_or_deep s := by
    rcases hx.eq_or_deep s with heq | ⟨c, hdeep⟩
    · exact .inl (by rw [Rule.attempt, Rule.attempt, heq])
    · exact .inr ⟨c, by rw [Rule.attempt, hdeep]⟩

instance limited_orElse {x' y' : Rule α} [hx : Limited x y] [hx' : Limited x' y'] :
    Limited (x.orElse x') (y.orElse y') where
  eq_or_deep s := by
    rcases hx.eq_or_deep s with heq | hdeep
    · cases hy : y s with
      | matched v t =>
        rw [hy] at heq
        exact .inl (by rw [orElse_of_matched heq, orElse_of_matched hy])
      | unmatched t =>
        rw [hy] at heq
        have hmore := hx'.eq_or_deep (t.moveTo s.cursor)
        unfold Deep at hmore ⊢
        rw [orElse_of_unmatched heq, orElse_of_unmatched hy]
        exact hmore
      | aborted a =>
        rw [hy] at heq
        exact .inl (by rw [orElse_of_aborted heq, orElse_of_aborted hy])
    · exact .inr hdeep.orElse

instance limited_firstOf_cons {rules others : List (Rule α)} [Limited x y]
    [Limited (firstOf rules) (firstOf others)] :
    Limited (firstOf (x :: rules)) (firstOf (y :: others)) := limited_orElse

instance limited_many [hx : Limited x y] : Limited x.many y.many where
  eq_or_deep s := by
    induction hn : s.cursor.rest.length using Nat.strongRecOn generalizing s with
    | ind n ih =>
      rcases hx.eq_or_deep s with heq | ⟨c, hdeep⟩
      · cases hy : y s with
        | matched v t =>
          rw [hy] at heq
          unfold Deep
          rw [Rule.many, Rule.many, heq, hy]
          dsimp only
          split
          · rename_i hlt
            rcases ih _ (hn ▸ hlt) t rfl with hmore | ⟨c, hmore⟩
            · exact .inl (by rw [hmore])
            · exact .inr ⟨c, by rw [hmore]; rfl⟩
          · exact .inl rfl
        | unmatched t =>
          rw [hy] at heq
          exact .inl (by rw [Rule.many, Rule.many, heq, hy])
        | aborted a =>
          rw [hy] at heq
          exact .inl (by rw [Rule.many, Rule.many, heq, hy])
      · exact .inr ⟨c, by rw [Rule.many, hdeep]⟩

instance limited_many_bind {f g : List α → Rule β} [Limited x y] [∀ vs, Limited (f vs) (g vs)] :
    Limited (x.many >>= f) (y.many >>= g) := limited_bind (x := x.many) (y := y.many)

end Rule

/-! ## Expressions -/

variable {inner inner' : Rule Expr} {statement statement' : Rule Statement}

section

variable [Limited inner inner']

instance limited_argument : Limited (argument inner) (argument inner') := by
  unfold argument
  infer_instance

instance limited_arguments : Limited (arguments inner) (arguments inner') := by
  unfold arguments
  infer_instance

instance limited_triple (close : String) : Limited (triple inner close) (triple inner' close) := by
  unfold triple
  infer_instance

instance limited_rgb : Limited (rgb inner) (rgb inner') := by
  unfold rgb
  infer_instance

instance limited_vector : Limited (vector inner) (vector inner') := by
  unfold vector
  infer_instance

instance limited_texture : Limited (texture inner) (texture inner') := by
  unfold texture
  infer_instance

instance limited_paren : Limited (paren inner) (paren inner') := by
  unfold paren
  infer_instance

instance limited_solid : Limited (solid inner) (solid inner') := by
  unfold solid
  infer_instance

instance limited_value : Limited (value inner) (value inner') := by
  unfold value
  infer_instance

instance limited_signed : Limited (signed inner) (signed inner') := by
  have hnegate : Limited (do return Expr.negate (← value inner) : Rule Expr)
      (do return Expr.negate (← value inner')) := inferInstance
  have hvalue : Limited (value inner) (value inner') := inferInstance
  refine @limited_bind _ _ _ _ _ _ _ fun _ => @limited_attempt _ _ _ ⟨fun s => ?_⟩
  -- a minus is read or not, and then both rules go on from the same state
  unfold Deep
  dsimp only
  cases move (Cursor.afterSymbol? "-") s with
  | matched v t => exact hnegate.eq_or_deep t
  | unmatched t => exact hvalue.eq_or_deep t
  | aborted a => exact .inl rfl

instance limited_operation (operators : List Operator) :
    Limited (operation operators inner) (operation operators inner') := by
  unfold operation
  infer_instance

instance limited_chain (operators : List Operator) :
    Limited (chain operators inner) (chain operators inner') := by
  unfold chain
  infer_instance

instance limited_sum : Limited (sum inner) (sum inner') := by
  unfold sum product
  infer_instance

instance limited_condition : Limited (condition inner) (condition inner') := by
  unfold condition
  infer_instance

end

/-! ## Statements -/

section

variable [Limited statement statement'] [Limited inner inner']

instance limited_camera : Limited (camera inner) (camera inner') := by
  unfold camera
  infer_instance

instance limited_light : Limited (light inner) (light inner') := by
  unfold light
  infer_instance

instance limited_block : Limited (block statement) (block statement') := by
  unfold block
  infer_instance

instance limited_conditional :
    Limited (conditional statement inner) (conditional statement' inner') := by
  unfold conditional
  infer_instance

instance limited_loop : Limited (loop statement inner) (loop statement' inner') := by
  unfold loop
  infer_instance

instance limited_call : Limited (call inner) (call inner') := by
  unfold call
  infer_instance

instance limited_definition : Limited (definition statement) (definition statement') := by
  unfold definition
  infer_instance

instance limited_command : Limited (command inner) (command inner') := by
  unfold command
  infer_instance

instance limited_assignment : Limited (assignment inner) (assignment inner') := by
  unfold assignment
  infer_instance

instance limited_transformation :
    Limited (transformation statement inner) (transformation statement' inner') := by
  unfold transformation
  infer_instance

instance limited_anyStatement :
    Limited (anyStatement statement inner) (anyStatement statement' inner') := by
  unfold anyStatement
  infer_instance

end

/-! ## All levels -/

/-- The rules with fewer levels to go are those with more of them, up to their limit. -/
theorem limited_level {n m : Nat} (h : n ≤ m) :
    Limited (level .nothing n).statement (level .nothing m).statement
      ∧ Limited (level .nothing n).expression (level .nothing m).expression := by
  induction n generalizing m with
  | zero =>
    exact ⟨⟨fun s => .inr ⟨s.cursor.afterTrivia, rfl⟩⟩, ⟨fun s => .inr ⟨s.cursor.afterTrivia, rfl⟩⟩⟩
  | succ n ih =>
    obtain ⟨m, rfl⟩ := Nat.exists_eq_add_one.2 (Nat.zero_lt_of_lt h)
    obtain ⟨hstatement, hexpression⟩ := ih (Nat.le_of_succ_le_succ h)
    refine ⟨@limited_bind _ _ _ _ _ _ _ fun _ => ?_, @limited_bind _ _ _ _ _ _ _ fun _ => ?_⟩
    · exact limited_anyStatement
    · exact limited_sum

end SceneScript.Parser
