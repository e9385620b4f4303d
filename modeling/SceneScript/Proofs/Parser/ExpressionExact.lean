import SceneScript.Proofs.Parser.ExpressionComplete
import SceneScript.Proofs.Source.Tokens

/-!
# The tokens of an expression are read as that expression

A well-formed expression that is not nested too deep is read from its own tokens, and from nothing
else, if nothing behind them goes on it.  With the commas of the canonical source there is only one
way to read a list.
-/

namespace SceneScript.Parser

open Rule Grammar Cursor

variable {levels : Nat} {expression : Rule Expr} {k : List Token} {e : Expr}

/-- The rule reads well-formed expressions with so many levels from their tokens. -/
structure Exact (levels : Nat) (x : Rule Expr) : Prop where
  sum : ∀ e : Expr, e.WellFormed → e.depth ≤ levels → ParsesSum False x e.tokens (· = e)
  arguments : ∀ es, Expr.AllWellFormed es → Expr.argumentDepth es ≤ levels →
    ParsesArguments False x (Expr.argumentTokens es) (· = es)

/-! ## Values -/

/-- The expression is a value, without a minus or an operation. -/
def IsPlain (e : Expr) : Prop := ¬e.IsNegated ∧ ¬e.IsBinary

theorem value_exact (hx : Exact levels expression) (hplain : IsPlain e) (hwell : e.WellFormed)
    (hdepth : e.innerDepth ≤ levels) (hk : k.head? ≠ some leftParen) :
    Parses False (value expression) (Facing (e.tokens ++ k)) fun v us => v = e ∧ us = k := by
  cases e with
  | number x => exact value_parses_number x
  | color c => exact value_parses_color c rfl
  | rgb r g b =>
    obtain ⟨hr, hg, hb⟩ := hwell
    simp only [Expr.innerDepth] at hdepth
    have hparse := value_parses_rgb (k := k) (hx.sum r hr (by unfold Expr.depth; omega))
      (hx.sum g hg (by unfold Expr.depth; omega)) (hx.sum b hb (by unfold Expr.depth; omega))
    simp only [Expr.tokens, List.cons_append, List.append_assoc, List.nil_append]
    exact hparse.of_triple
  | vector x y z =>
    obtain ⟨hfirst, hsecond, hthird⟩ := hwell
    simp only [Expr.innerDepth] at hdepth
    have hparse := value_parses_vector (k := k) (hx.sum x hfirst (by unfold Expr.depth; omega))
      (hx.sum y hsecond (by unfold Expr.depth; omega))
      (hx.sum z hthird (by unfold Expr.depth; omega))
    simp only [Expr.tokens, List.cons_append, List.append_assoc, List.nil_append]
    exact hparse.of_triple
  | texture path =>
    simp only [Expr.innerDepth] at hdepth
    have hparse := value_parses_texture (k := k) (t := word "texture") rfl
      (hx.sum path hwell (by unfold Expr.depth; omega))
    simp only [Expr.tokens, List.cons_append, List.append_assoc, List.nil_append]
    exact hparse.of_part
  | solid kind args =>
    simp only [Expr.innerDepth] at hdepth
    have hparse := value_parses_solid (k := k) kind
      (hx.arguments args hwell (by unfold Expr.argumentDepth; omega))
    simp only [Expr.tokens, List.cons_append, List.append_assoc, List.nil_append]
    exact hparse.of_part
  | paren inner =>
    simp only [Expr.innerDepth] at hdepth
    have hparse := value_parses_paren (k := k) (hx.sum inner hwell (by unfold Expr.depth; omega))
    simp only [Expr.tokens, List.cons_append, List.append_assoc, List.nil_append]
    exact hparse.of_part
  | text value => exact value_parses_text value
  | identifier name =>
    -- a name in front of a parenthesis would be tried as a solid or a color first
    have hcall : ∀ {β : Type} {f : Unit → Rule β}, Fails False (symbol "(" >>= f) (Facing k) :=
      (fails_symbol isSymbol_leftParen hk).bind
    exact value_parses_identifier (isName_ofWord hwell.1.2) hwell.2
      (fails_behind_word (by decide) hcall) (fails_behind_word (by decide) hcall)
  | negate operand => exact absurd trivial hplain.1
  | binary left op right => exact absurd trivial hplain.2

theorem head?_ne_minus_of_isPlain (hplain : IsPlain e) (k : List Token) :
    (e.tokens ++ k).head? ≠ some minus := by
  cases e with
  | negate operand => exact absurd trivial hplain.1
  | binary left op right => exact absurd trivial hplain.2
  | identifier name => exact head?_ne_of_word? (Token.word?_ofWord name) rfl k
  | _ => simp [Expr.tokens, word, minus, leftAngle, leftParen]

/-- The expression is an operand of a product. -/
structure IsFactor (levels : Nat) (e : Expr) : Prop where
  wellFormed : e.WellFormed
  not_isBinary : ¬e.IsBinary
  innerDepth_le : e.innerDepth ≤ levels

theorem signed_exact (hx : Exact levels expression) (h : IsFactor levels e)
    (hk : k.head? ≠ some leftParen) :
    Parses False (signed expression) (Facing (e.tokens ++ k)) fun v us => v = e ∧ us = k := by
  by_cases hneg : e.IsNegated
  · cases e with
    | negate operand =>
      obtain ⟨hwell, hnot⟩ := h.wellFormed
      have hvalue := value_exact hx hnot hwell h.innerDepth_le hk
      refine (signed_parses_minus hvalue).mono ?_
      rintro v us ⟨_, rfl, rfl, hus⟩
      exact ⟨rfl, hus⟩
    | _ => exact hneg.elim
  · have hplain : IsPlain e := ⟨hneg, h.not_isBinary⟩
    exact signed_parses_value (head?_ne_minus_of_isPlain hplain k)
      (value_exact hx hplain h.wellFormed h.innerDepth_le hk)

/-! ## Chains -/

/-- The tokens of operations on an operand. -/
def operationTokens (more : List (Operator × Expr)) : List Token :=
  more.flatMap fun part => operatorToken part.1 :: part.2.tokens

section Chain

variable {operators : List Operator} {operand : Rule Expr} {F : List Token → Prop}
  {O : Expr → Prop}

/-- The rule reads the expressions `O` from their tokens where `F` holds of what is behind them. -/
def ReadsOperand (operand : Rule Expr) (O : Expr → Prop) (F : List Token → Prop) : Prop :=
  ∀ e k, O e → F k →
    Parses False operand (Facing (e.tokens ++ k)) fun v us => v = e ∧ us = k

theorem follow_operations (hF : ∀ op ∈ operators, ∀ ts, F (operatorToken op :: ts)) (hk : F k)
    {more : List (Operator × Expr)} (hmore : ∀ part ∈ more, part.1 ∈ operators ∧ O part.2) :
    F (operationTokens more ++ k) := by
  cases more with
  | nil => exact hk
  | cons part more =>
    have hmem := (hmore part (List.mem_cons_self ..)).1
    simpa [operationTokens] using hF part.1 hmem _

theorem operations_exact (hoperand : ReadsOperand operand O F)
    (hF : ∀ op ∈ operators, ∀ ts, F (operatorToken op :: ts))
    (hadv : Advances (attempt (operation operators operand))) (hk : F k)
    (hnone : Without operators k) {more : List (Operator × Expr)}
    (hmore : ∀ part ∈ more, part.1 ∈ operators ∧ O part.2) :
    Parses False (attempt (operation operators operand)).many (Facing (operationTokens more ++ k))
      fun vs us => vs = more ∧ us = k := by
  induction more with
  | nil => exact (fails_operation hnone).attempt.many stays_attempt
  | cons part more ih =>
    obtain ⟨op, right⟩ := part
    have hrest : ∀ part ∈ more, part.1 ∈ operators ∧ O part.2 :=
      fun part hmem => hmore part (List.mem_cons_of_mem _ hmem)
    obtain ⟨hmem, hright⟩ := hmore (op, right) (List.mem_cons_self ..)
    -- behind each operand stands another operator or the end of the chain, and it takes in neither
    have hfollow := follow_operations hF hk hrest
    have htokens : operationTokens ((op, right) :: more) ++ k
        = operatorToken op :: (right.tokens ++ (operationTokens more ++ k)) := by
      simp [operationTokens]
    rw [htokens]
    refine Parses.many hadv (operation_parses hmem (hoperand right _ hright hfollow)).attempt ?_
    rintro part us ⟨hop, hright', rfl⟩
    have hpart : part = (op, right) := Prod.ext hop hright'
    refine (ih hrest).mono ?_
    rintro vs ws ⟨rfl, hws⟩
    exact ⟨by rw [hpart], hws⟩

theorem chain_exact (hoperand : ReadsOperand operand O F)
    (hF : ∀ op ∈ operators, ∀ ts, F (operatorToken op :: ts))
    (hadv : Advances (attempt (operation operators operand))) (hk : F k)
    (hnone : Without operators k) {first : Expr} (hfirst : O first)
    {more : List (Operator × Expr)} (hmore : ∀ part ∈ more, part.1 ∈ operators ∧ O part.2) :
    Parses False (chain operators operand)
      (Facing (first.tokens ++ (operationTokens more ++ k)))
      fun v us => v = more.foldl (fun left (op, right) => .binary left op right) first ∧ us = k := by
  refine (hoperand first _ hfirst (follow_operations hF hk hmore)).bind ?_
  rintro v us ⟨rfl, rfl⟩
  refine (operations_exact hoperand hF hadv hk hnone hmore).bind ?_
  rintro vs us ⟨rfl, hus⟩
  exact parses_pure ⟨rfl, hus⟩

/-- An expression that is an operand, or an operation on such an expression and an operand, is a
chain. -/
theorem exists_chain {C : Expr → Prop}
    (hC : ∀ e, C e → O e ∨ ∃ left op right, e = .binary left op right ∧ op ∈ operators ∧
      C left ∧ O right) {e : Expr} (h : C e) :
    ∃ first more, O first ∧ (∀ part ∈ more, part.1 ∈ operators ∧ O part.2) ∧
      e = more.foldl (fun left (op, right) => .binary left op right) first ∧
      e.tokens = first.tokens ++ operationTokens more := by
  -- operators group to the left, so the outermost operation is the last one of the chain
  induction hn : e.height using Nat.strongRecOn generalizing e with
  | ind n ih =>
    rcases hC e h with hoperand | ⟨left, op, right, rfl, hop, hleft, hright⟩
    · exact ⟨e, [], hoperand, nofun, rfl, by simp [operationTokens]⟩
    · have hlt : left.height < n := by
        rw [← hn, Expr.height]
        omega
      obtain ⟨first, more, hfirst, hmore, rfl, htokens⟩ := ih _ hlt hleft rfl
      refine ⟨first, more ++ [(op, right)], hfirst, ?_, by simp, ?_⟩
      · intro part hmem
        rcases List.mem_append.1 hmem with hmem | hmem
        · exact hmore part hmem
        · rw [List.mem_singleton.1 hmem]
          exact ⟨hop, hright⟩
      · rw [Expr.tokens, htokens]
        simp [operationTokens]

end Chain

/-! ## Products and sums -/

/-- The expression is an operand of a sum. -/
structure IsTerm (levels : Nat) (e : Expr) : Prop where
  wellFormed : e.WellFormed
  not_isSum : ¬e.IsSum
  innerDepth_le : e.innerDepth ≤ levels

theorem factor_or_times (h : IsTerm levels e) : IsFactor levels e ∨
    ∃ left op right, e = .binary left op right ∧ op ∈ [Operator.multiply, .divide, .modulo] ∧
      IsTerm levels left ∧ IsFactor levels right := by
  by_cases hbinary : e.IsBinary
  · cases e with
    | binary left op right =>
      obtain ⟨hleft, hright, hop⟩ := h.wellFormed
      have hdepth := h.innerDepth_le
      rw [Expr.innerDepth] at hdepth
      obtain ⟨hprec, hnotLeft, hnotRight⟩ := hop.resolve_left fun hsum => h.not_isSum hsum.1
      have hmem : op ∈ [Operator.multiply, .divide, .modulo] := by
        revert hprec
        cases op <;> decide
      exact .inr ⟨left, op, right, rfl, hmem, ⟨hleft, hnotLeft, by omega⟩,
        ⟨hright, hnotRight, by omega⟩⟩
    | _ => exact hbinary.elim
  · exact .inl ⟨h.wellFormed, hbinary, h.innerDepth_le⟩

theorem term_or_plus (hwell : e.WellFormed) (hdepth : e.innerDepth ≤ levels) :
    IsTerm levels e ∨ ∃ left op right, e = .binary left op right ∧
      op ∈ [Operator.add, .subtract] ∧ (left.WellFormed ∧ left.innerDepth ≤ levels) ∧
      IsTerm levels right := by
  by_cases hsum : e.IsSum
  · cases e with
    | binary left op right =>
      obtain ⟨hleft, hright, hop⟩ := hwell
      rw [Expr.innerDepth] at hdepth
      have hprec : op.precedence = 2 := hsum
      have hnotRight : ¬right.IsSum := by
        rcases hop with ⟨_, hnot⟩ | ⟨hthree, _⟩
        · exact hnot
        · omega
      have hmem : op ∈ [Operator.add, .subtract] := by
        revert hprec
        cases op <;> decide
      exact .inr ⟨left, op, right, rfl, hmem, ⟨hleft, by omega⟩, ⟨hright, hnotRight, by omega⟩⟩
    | _ => exact hsum.elim
  · exact .inl ⟨hwell, hsum, hdepth⟩

/-- A product ends where neither an operator of a product nor a parenthesis comes. -/
theorem product_exact (hx : Exact levels expression) (hin : Inside levels expression) :
    ReadsOperand (product expression) (IsTerm levels)
      fun k => k.head? ≠ some leftParen ∧ Without [.multiply, .divide, .modulo] k := by
  rintro e k hterm ⟨hparen, hnone⟩
  obtain ⟨first, more, hfirst, hmore, heq, htokens⟩ := exists_chain (fun e => factor_or_times) hterm
  have hoperand : ReadsOperand (signed expression) (IsFactor levels)
      fun k => k.head? ≠ some leftParen := fun e k h hk => signed_exact hx h hk
  have hF : ∀ op ∈ [Operator.multiply, .divide, .modulo], ∀ ts,
      (operatorToken op :: ts).head? ≠ some leftParen := by
    intro op _ ts
    cases op <;> simp [operatorToken, leftParen]
  rw [htokens, heq, List.append_assoc]
  exact chain_exact hoperand hF (advances_operation (signed_sound hin)) hparen hnone hfirst hmore

theorem sum_exact (hx : Exact levels expression) (hin : Inside levels expression)
    (hwell : e.WellFormed) (hdepth : e.innerDepth ≤ levels) (hk : Stops k) :
    Parses False (sum expression) (Facing (e.tokens ++ k)) fun v us => v = e ∧ us = k := by
  obtain ⟨first, more, hfirst, hmore, heq, htokens⟩ :=
    exists_chain (C := fun e => e.WellFormed ∧ e.innerDepth ≤ levels)
      (fun e h => term_or_plus h.1 h.2) ⟨hwell, hdepth⟩
  have hF : ∀ op ∈ [Operator.add, .subtract], ∀ ts,
      (operatorToken op :: ts).head? ≠ some leftParen ∧
        Without [.multiply, .divide, .modulo] (operatorToken op :: ts) := by
    intro op hmem ts
    simp only [List.mem_cons, List.not_mem_nil, or_false] at hmem
    rcases hmem with rfl | rfl <;> simp [Without, operatorToken, leftParen]
  have hnone : ∀ {operators : List Operator}, (∀ op ∈ operators, op.isComparison = false) →
      Without operators k := by
    intro operators hops op hmem heq
    exact (hk _ heq).2 op (hops op hmem) rfl
  rw [htokens, heq, List.append_assoc]
  exact chain_exact (product_exact hx hin) hF (advances_operation (product_sound hin))
    ⟨hk.head?_ne_leftParen, hnone (by decide)⟩ (hnone (by decide)) hfirst hmore

/-! ## Lists -/

theorem innerDepth_le_of_mem {es : List Expr} (h : e ∈ es) :
    e.innerDepth ≤ Expr.innerDepths es := by
  induction es with
  | nil => cases h
  | cons e' es ih =>
    rw [Expr.innerDepths]
    rcases List.mem_cons.1 h with rfl | h
    · exact Nat.le_max_left _ _
    · exact Nat.le_trans (ih h) (Nat.le_max_right _ _)

/-- With commas between them expressions are read one by one. -/
theorem arguments_exact {es : List Expr} (hin : Inside levels expression)
    (hend : ∀ k, Fails False expression (Facing (rightParen :: k)))
    (hx : ∀ e ∈ es, ParsesSum False expression e.tokens (· = e)) :
    ParsesArguments False expression (Expr.argumentTokens es) (· = es) := by
  -- each argument but the last is followed by a comma, and the last by none
  intro k
  induction es with
  | nil => exact (hend k).bind.many (stays_argument hin)
  | cons e es ih =>
    have hfirst := hx e (List.mem_cons_self ..)
    have hmore := ih fun e' hmem => hx e' (List.mem_cons_of_mem _ hmem)
    cases es with
    | nil =>
      have harg : Parses False (argument expression) (Facing (e.tokens ++ rightParen :: k))
          fun v us => v = e ∧ us = rightParen :: k := by
        refine (hfirst _ (stops_cons stop_rightParen)).bind ?_
        rintro v us ⟨rfl, rfl⟩
        exact (parses_no_comma (by simp [rightParen, comma])).bind
          fun _ us hus => parses_pure ⟨rfl, hus⟩
      simp only [Expr.argumentTokens, Expr.tokensOfAll, commaSeparated_singleton]
      refine Parses.many (advances_argument hin) harg ?_
      rintro v us ⟨rfl, rfl⟩
      refine hmore.mono ?_
      rintro vs us ⟨rfl, hus⟩
      exact ⟨rfl, hus⟩
    | cons e' es =>
      have harg : ∀ ts, Parses False (argument expression) (Facing (e.tokens ++ comma :: ts))
          fun v us => v = e ∧ us = ts := by
        intro ts
        refine (hfirst _ (stops_cons stop_comma)).bind ?_
        rintro v us ⟨rfl, rfl⟩
        exact parses_comma.bind fun _ us hus => parses_pure ⟨rfl, hus⟩
      simp only [Expr.argumentTokens, Expr.tokensOfAll, commaSeparated_cons_cons, List.append_assoc,
        List.cons_append] at hmore ⊢
      refine Parses.many (advances_argument hin) (harg _) ?_
      rintro v us ⟨rfl, rfl⟩
      refine hmore.mono ?_
      rintro vs us ⟨rfl, hus⟩
      exact ⟨rfl, hus⟩

/-! ## All levels -/

/-- The rule for expressions of the parser that remembers nothing. -/
theorem exact_level (levels : Nat) : Exact levels (level .nothing levels).expression := by
  induction levels with
  | zero =>
    refine ⟨fun e _ h => ?_, fun es _ h => ?_⟩
    · rw [Expr.depth] at h
      omega
    · rw [Expr.argumentDepth] at h
      omega
  | succ levels ih =>
    have hsum : ∀ e : Expr, e.WellFormed → e.innerDepth ≤ levels →
        ParsesSum False (level .nothing (levels + 1)).expression e.tokens (· = e) :=
      fun e hwell hdepth k hk => (sum_exact ih (inside_level levels) hwell hdepth hk).settled.behind
    refine ⟨fun e hwell hdepth => ?_, fun es hwell hdepth => ?_⟩
    · rw [Expr.depth] at hdepth
      exact hsum e hwell (by omega)
    · have hend : ∀ k, Fails False (level .nothing (levels + 1)).expression
          (Facing (rightParen :: k)) := fun k => (fails_sum (.inl rfl)).settled.behind
      refine arguments_exact (inside_level (levels + 1)) hend fun e hmem => ?_
      have hle := innerDepth_le_of_mem hmem
      rw [Expr.argumentDepth] at hdepth
      exact hsum e (Expr.allWellFormed_iff.1 hwell e hmem) (by omega)

end SceneScript.Parser
