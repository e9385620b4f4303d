import SceneScript.Proofs.Parser.ExpressionParses

/-!
# Every expression of the grammar is parsed

The grammar is ambiguous where expressions stand side by side: `a -b` may be one argument or two,
and so may `texture (a)`.  The parser takes the longest one.  So what is proved of a list is not
that it is read as derived, but that whatever has been read, the rest is again operations and
expressions up to the end of the list.  A list is then never given up halfway.
-/

namespace SceneScript

namespace Grammar

variable {ts us : List Token} {e : Expr}

/-! ## How operands start -/

/-- The token can be the first of a value. -/
def StartsValue (t : Token) : Prop :=
  (∃ x, t = .number x) ∨ (∃ text, t = .text text) ∨ (∃ word, t.word? = some word)
    ∨ t = leftParen ∨ t = leftAngle

theorem startsValue_of_isValue (h : IsValue us e) : ∃ t rest, us = t :: rest ∧ StartsValue t := by
  cases h with
  | number x => exact ⟨_, _, rfl, .inl ⟨x, rfl⟩⟩
  | color c => exact ⟨_, _, rfl, .inr (.inr (.inl ⟨_, rfl⟩))⟩
  | rgb _ _ _ => exact ⟨_, _, rfl, .inr (.inr (.inl ⟨_, rfl⟩))⟩
  | vector _ _ _ => exact ⟨_, _, rfl, .inr (.inr (.inr (.inr rfl)))⟩
  | texture _ => exact ⟨_, _, rfl, .inr (.inr (.inl ⟨_, rfl⟩))⟩
  | paren _ => exact ⟨_, _, rfl, .inr (.inr (.inr (.inl rfl)))⟩
  | solid _ _ => exact ⟨_, _, rfl, .inr (.inr (.inl ⟨_, rfl⟩))⟩
  | text value => exact ⟨_, _, rfl, .inr (.inl ⟨value, rfl⟩)⟩
  | identifier hname => exact ⟨_, _, rfl, .inr (.inr (.inl ⟨_, hname.word?⟩))⟩

theorem StartsValue.ne_operator {t : Token} (h : StartsValue t) {op : Operator}
    (hop : op.isComparison = false) : t ≠ operatorToken op := by
  rintro rfl
  rcases h with ⟨x, h⟩ | ⟨text, h⟩ | ⟨word, h⟩ | h | h
  · cases op <;> cases h
  · cases op <;> cases h
  · cases op <;> cases h
  · cases op <;> cases h
  · revert h hop
    cases op <;> decide

theorem StartsValue.ne_comma {t : Token} (h : StartsValue t) : t ≠ comma := by
  rintro rfl
  rcases h with ⟨x, h⟩ | ⟨text, h⟩ | ⟨word, h⟩ | h | h <;> cases h

/-- Behind a minus at the start of an operand stands its value. -/
theorem IsNegation.of_operator {op : Operator} (hop : op.isComparison = false)
    (h : IsNegation (operatorToken op :: ts) e) : ∃ e', IsNegation ts e' := by
  generalize hts : operatorToken op :: ts = us at h
  cases h with
  | value hvalue =>
    obtain ⟨t, rest, rfl, hstart⟩ := startsValue_of_isValue hvalue
    exact absurd (List.cons.inj hts).1.symm (hstart.ne_operator hop)
  | minus hvalue =>
    obtain ⟨_, rfl⟩ := List.cons.inj hts
    exact ⟨_, .value hvalue⟩

theorem IsNegation.ne_nil (h : IsNegation us e) : us ≠ [] := by
  cases h with
  | value hvalue =>
    obtain ⟨t, rest, rfl, _⟩ := startsValue_of_isValue hvalue
    exact List.cons_ne_nil t rest
  | minus _ => exact List.cons_ne_nil _ _

theorem IsNegation.ne_comma (h : IsNegation us e) : us.head? ≠ some comma := by
  cases h with
  | value hvalue =>
    obtain ⟨t, rest, rfl, hstart⟩ := startsValue_of_isValue hvalue
    exact fun heq => hstart.ne_comma (Option.some.inj heq)
  | minus _ => exact fun heq => by cases heq

end Grammar

namespace Parser

open Rule Grammar Cursor

/-! ## What stands behind an operand -/

/-- What can stand behind an operand up to a stop: operations on it, and in a list more operands,
with or without a comma before them. -/
inductive Tail (inList : Prop) (k : List Token) : List Token → Prop
  | stop : Tail inList k k
  | operation {us ts : List Token} {e : Expr} (op : Operator) : op.isComparison = false →
      IsNegation us e → Tail inList k ts → Tail inList k (operatorToken op :: (us ++ ts))
  | another {us ts : List Token} {e : Expr} : inList → IsNegation us e → Tail inList k ts →
      Tail inList k (us ++ ts)
  | comma {us ts : List Token} {e : Expr} : inList → IsNegation us e → Tail inList k ts →
      Tail inList k (Grammar.comma :: (us ++ ts))
  | lastComma : inList → Tail inList k (Grammar.comma :: k)

/-- An operand and what stands behind it. -/
def Operand (inList : Prop) (k ts : List Token) : Prop :=
  ∃ us rest e, ts = us ++ rest ∧ IsNegation us e ∧ Tail inList k rest

variable {inList : Prop} {k ts : List Token}

theorem Tail.of_operand (hlist : inList) (h : Operand inList k ts) : Tail inList k ts := by
  obtain ⟨us, rest, e, rfl, hneg, htail⟩ := h
  exact .another hlist hneg htail

/-! ## How tails start -/

/-- Behind an operator stands an operand. -/
theorem Tail.of_operator {op : Operator} (hop : op.isComparison = false) (hk : Stops k)
    (h : Tail inList k (operatorToken op :: ts)) : Operand inList k ts := by
  generalize hts : operatorToken op :: ts = us at h
  cases h with
  | stop =>
    subst hts
    exact absurd rfl ((hk _ rfl).2 op hop)
  | operation op' _ hneg htail =>
    obtain ⟨_, rfl⟩ := List.cons.inj hts
    exact ⟨_, _, _, rfl, hneg, htail⟩
  | @another vs rest e' _ hneg htail =>
    cases vs with
    | nil => exact absurd rfl hneg.ne_nil
    | cons v vs =>
      obtain ⟨rfl, rfl⟩ := List.cons.inj hts
      obtain ⟨e'', hneg⟩ := IsNegation.of_operator hop hneg
      exact ⟨vs, rest, e'', rfl, hneg, htail⟩
  | comma _ _ _ =>
    obtain ⟨hcomma, _⟩ := List.cons.inj hts
    cases op <;> cases hcomma
  | lastComma _ =>
    obtain ⟨hcomma, _⟩ := List.cons.inj hts
    cases op <;> cases hcomma

/-- A parenthesis behind an operand opens an expression in parentheses. -/
theorem Tail.of_leftParen (hk : Stops k) (h : Tail inList k (leftParen :: ts)) :
    ∃ inner rest e, ts = inner ++ rightParen :: rest ∧ IsSum inner e ∧ Tail inList k rest := by
  generalize hts : leftParen :: ts = us at h
  cases h with
  | stop =>
    subst hts
    exact absurd rfl (hk _ rfl).1
  | operation op _ _ _ =>
    obtain ⟨hop, _⟩ := List.cons.inj hts
    cases op <;> cases hop
  | @another vs rest e' _ hneg htail =>
    cases hneg with
    | value hvalue =>
      cases hvalue with
      | @paren inner ts' hsum =>
        obtain ⟨_, rfl⟩ := List.cons.inj hts
        exact ⟨ts', rest, inner, by simp, hsum, htail⟩
      | identifier hname =>
        obtain ⟨rfl, _⟩ := List.cons.inj hts
        cases hname
      | _ => cases hts
    | minus _ => cases hts
  | comma _ _ _ => cases hts
  | lastComma _ => cases hts

/-! ## Expressions as operands and tails -/

theorem isComparison_eq_false {op : Operator} {n : Nat} (h : op.precedence = n) (hn : n ≠ 1) :
    op.isComparison = false := by
  rw [Operator.isComparison, h]
  exact beq_eq_false_iff_ne.2 hn

/-- Products group from the left, so the last factor meets the tail first. -/
theorem operand_of_isProduct : {ts : List Token} → {e : Expr} → {rest : List Token} →
    IsProduct ts e → Tail inList k rest → Operand inList k (ts ++ rest)
  | _, _, _, .factor h, htail => ⟨_, _, _, rfl, h, htail⟩
  | _, _, _, .times op hop hleft hright, htail => by
    have hnot := isComparison_eq_false hop (by decide)
    have hoperand := operand_of_isProduct hleft (.operation op hnot hright htail)
    simpa using hoperand

theorem operand_of_isSum : {ts : List Token} → {e : Expr} → {rest : List Token} →
    IsSum ts e → Tail inList k rest → Operand inList k (ts ++ rest)
  | _, _, _, .term h, htail => operand_of_isProduct h htail
  | _, _, _, .plus op hop hleft hright, htail => by
    have hnot := isComparison_eq_false hop (by decide)
    obtain ⟨us, rest, e, hsplit, hneg, hrest⟩ := operand_of_isProduct hright htail
    have hoperand := operand_of_isSum hleft (.operation op hnot hneg hrest)
    rw [← hsplit] at hoperand
    simpa using hoperand

/-- The end of a list, or an expression of it. -/
def Items (k ts : List Token) : Prop := ts = k ∨ Operand True k ts

theorem Items.tail {sep : List Token} (h : Items k ts) (hsep : IsSeparator sep) :
    Tail True k (sep ++ ts) := by
  cases hsep with
  | none =>
    rcases h with rfl | h
    · exact .stop
    · exact .of_operand trivial h
  | comma =>
    rcases h with rfl | ⟨us, rest, e, rfl, hneg, htail⟩
    · exact .lastComma trivial
    · show Tail True k (comma :: (us ++ rest))
      exact .comma trivial hneg htail

theorem items_of_isArguments {es : List Expr} (h : IsArguments ts es) : Items k (ts ++ k) := by
  induction es generalizing ts with
  | nil =>
    cases h
    exact .inl rfl
  | cons e es ih =>
    cases h with
    | cons hsum hsep hmore =>
      have htail := (ih hmore).tail hsep
      rw [List.append_assoc, List.append_assoc]
      exact .inr (operand_of_isSum hsum htail)

/-- Where no operator stands, a list goes on after perhaps a comma. -/
theorem Tail.items (h : Tail True k ts)
    (hne : ∀ op : Operator, op.isComparison = false → ts.head? ≠ some (operatorToken op)) :
    ∃ sep rest, ts = sep ++ rest ∧ IsSeparator sep ∧ Items k rest ∧
      (sep = [] → rest = k ∨ rest.head? ≠ some Grammar.comma) := by
  cases h with
  | stop => exact ⟨[], k, rfl, .none, .inl rfl, fun _ => .inl rfl⟩
  | operation op hop _ _ => exact absurd rfl (hne op hop)
  | @another us rest e _ hneg htail =>
    refine ⟨[], us ++ rest, rfl, .none, .inr ⟨us, rest, e, rfl, hneg, htail⟩, fun _ => .inr ?_⟩
    cases us with
    | nil => exact absurd rfl hneg.ne_nil
    | cons u us => exact hneg.ne_comma
  | comma _ hneg htail =>
    exact ⟨_, _, rfl, .comma, .inr ⟨_, _, _, rfl, hneg, htail⟩, nofun⟩
  | lastComma _ => exact ⟨_, k, rfl, .comma, .inl rfl, nofun⟩

/-- Outside a list a tail without an operator is at its end. -/
theorem Tail.eq_stop (h : Tail False k ts)
    (hne : ∀ op : Operator, op.isComparison = false → ts.head? ≠ some (operatorToken op)) :
    ts = k := by
  cases h with
  | stop => rfl
  | operation op hop _ _ => exact absurd rfl (hne op hop)
  | another h _ _ => exact h.elim
  | comma h _ _ => exact h.elim
  | lastComma h => exact h.elim

/-! ## The rules inside -/

/-- The rule parses all expressions and argument lists of the grammar, or gives up on their depth. -/
structure Complete (x : Rule Expr) : Prop where
  sum : ∀ ts e, IsSum ts e → ParsesSum True x ts fun _ => True
  arguments : ∀ ts es, IsArguments ts es → ParsesArguments True x ts fun _ => True

variable {expression : Rule Expr}

/-- A rule that leaves a tail alone has one behind it. -/
theorem Tail.untouched {P : Expr → Prop} (h : Tail inList k ts) (v : Expr) (rs : List Token)
    (hrs : P v ∧ rs = ts) : Tail inList k rs ∧ rs.length ≤ ts.length := by
  obtain ⟨_, rfl⟩ := hrs
  exact ⟨h, Nat.le_refl _⟩

/-- A name takes in the parenthesis behind it if it makes a texture, and else leaves it alone. -/
theorem identifier_complete {t : Token} {name : String} (hx : Complete expression) (hk : Stops k)
    (hname : IsName t name) (htail : Tail inList k ts) :
    Parses True (value expression) (Facing (t :: ts))
      fun _ rs => Tail inList k rs ∧ rs.length ≤ ts.length := by
  by_cases hcolor : ∃ c : Color, name = c.text
  · obtain ⟨c, rfl⟩ := hcolor
    exact (value_parses_color c hname.word?).mono htail.untouched
  have hcolor' : ∀ c : Color, name ≠ c.text := fun c hc => hcolor ⟨c, hc⟩
  -- a parenthesis behind a name opens an expression of the tail, so `rgb` fails on it for want of
  -- commas, and `texture` takes it in
  by_cases hparen : ts.head? = some leftParen
  · obtain ⟨ts', rfl⟩ := List.head?_eq_some_iff.1 hparen
    obtain ⟨inner, rest, e, rfl, hsum, hrest⟩ := htail.of_leftParen hk
    have hinner := hx.sum _ _ hsum
    by_cases htexture : name = "texture"
    · refine (value_parses_texture (htexture ▸ hname.word?) hinner).mono ?_
      rintro v rs ⟨_, rfl⟩
      refine ⟨hrest, ?_⟩
      rw [List.length_cons, List.length_append, List.length_cons]
      omega
    · have hfails : Fails True (texture expression)
          (Facing (t :: leftParen :: (inner ++ rightParen :: rest))) :=
        fails_texture (by simp [hname.word?, htexture])
      exact (value_parses_identifier hname hcolor' (fails_rgb_paren hinner) hfails).mono
        htail.untouched
  · have hcall : ∀ {β : Type} {f : Unit → Rule β}, Fails True (symbol "(" >>= f) (Facing ts) :=
      (fails_symbol isSymbol_leftParen hparen).bind
    exact (value_parses_identifier hname hcolor' (fails_behind_word (by decide) hcall)
      (fails_behind_word (by decide) hcall)).mono htail.untouched

/-- What is behind a value that was read is still a tail. -/
theorem value_complete {us : List Token} {e : Expr} (hx : Complete expression) (hk : Stops k)
    (h : IsValue us e) (htail : Tail inList k ts) :
    Parses True (value expression) (Facing (us ++ ts))
      fun _ rs => Tail inList k rs ∧ rs.length ≤ ts.length := by
  cases h with
  | number x => exact (value_parses_number x).mono htail.untouched
  | color c => exact (value_parses_color c rfl).mono htail.untouched
  | rgb hr hg hb =>
    have hparse := value_parses_rgb (k := ts) (hx.sum _ _ hr) (hx.sum _ _ hg) (hx.sum _ _ hb)
    simpa using hparse.mono htail.untouched
  | vector hfirst hsecond hthird =>
    have hparse := value_parses_vector (k := ts) (hx.sum _ _ hfirst) (hx.sum _ _ hsecond)
      (hx.sum _ _ hthird)
    simpa using hparse.mono htail.untouched
  | texture hpath =>
    have hparse := value_parses_texture (k := ts) (t := word "texture") rfl (hx.sum _ _ hpath)
    simpa using hparse.mono htail.untouched
  | paren hinner =>
    have hparse := value_parses_paren (k := ts) (hx.sum _ _ hinner)
    simpa using hparse.mono htail.untouched
  | solid kind hargs =>
    have hparse := value_parses_solid (k := ts) kind (hx.arguments _ _ hargs)
    simpa using hparse.mono htail.untouched
  | text value => exact (value_parses_text value).mono htail.untouched
  | identifier hname => exact identifier_complete hx hk hname htail

theorem signed_complete {us : List Token} {e : Expr} (hx : Complete expression) (hk : Stops k)
    (h : IsNegation us e) (htail : Tail inList k ts) :
    Parses True (signed expression) (Facing (us ++ ts))
      fun _ rs => Tail inList k rs ∧ rs.length ≤ ts.length := by
  cases h with
  | value hvalue =>
    obtain ⟨t, rest, rfl, hstart⟩ := startsValue_of_isValue hvalue
    have hne : t ≠ minus := hstart.ne_operator (show Operator.subtract.isComparison = false from rfl)
    exact signed_parses_value (fun heq => hne (Option.some.inj heq))
      (value_complete hx hk hvalue htail)
  | minus hvalue =>
    refine (signed_parses_minus (value_complete hx hk hvalue htail)).mono ?_
    rintro v rs ⟨e, _, hrs⟩
    exact hrs

/-! ## Chains of operations -/

section Chain

variable {operators : List Operator} {operand : Rule Expr} {T : List Token → Prop}

/-- The operand is parsed, and `T` holds of what is behind it. -/
def ParsesOperand (inList : Prop) (k : List Token) (operand : Rule Expr)
    (T : List Token → Prop) : Prop :=
  ∀ us ts e, IsNegation us e → Tail inList k ts →
    Parses True operand (Facing (us ++ ts))
      fun _ rs => (Tail inList k rs ∧ T rs) ∧ rs.length ≤ ts.length

/-- None of the operators comes next. -/
def Without (operators : List Operator) (ts : List Token) : Prop :=
  ∀ op ∈ operators, ts.head? ≠ some (operatorToken op)

/-- Operations are read until none of their operators comes next. -/
theorem operations_complete (hops : ∀ op ∈ operators, op.isComparison = false) (hk : Stops k)
    (hoperand : ParsesOperand inList k operand T)
    (hadv : Advances (attempt (operation operators operand))) :
    ∀ ts, Tail inList k ts → T ts →
      Parses True (attempt (operation operators operand)).many (Facing ts)
        fun _ rs => (Tail inList k rs ∧ T rs ∧ Without operators rs) ∧ rs.length ≤ ts.length := by
  intro ts
  induction hn : ts.length using Nat.strongRecOn generalizing ts with
  | ind n ih =>
    intro htail hT
    by_cases hnone : Without operators ts
    · refine ((fails_operation hnone).attempt.many stays_attempt).mono ?_
      rintro vs us ⟨_, rfl⟩
      exact ⟨⟨htail, hT, hnone⟩, Nat.le_of_eq hn⟩
    · obtain ⟨op, hmem, hhead⟩ : ∃ op ∈ operators, ts.head? = some (operatorToken op) := by
        simpa [Without] using hnone
      obtain ⟨ts', rfl⟩ := List.head?_eq_some_iff.1 hhead
      obtain ⟨us, rest, e, rfl, hneg, hrest⟩ := htail.of_operator (hops op hmem) hk
      have hlen : (us ++ rest).length + 1 = n := by simpa using hn
      rw [List.length_append] at hlen
      refine Parses.many hadv (operation_parses hmem (hoperand us rest e hneg hrest)).attempt ?_
      rintro v rs ⟨_, ⟨htail', hT'⟩, hle⟩
      refine (ih rs.length (by omega) rs rfl htail' hT').mono ?_
      rintro vs ws ⟨hws, hle'⟩
      exact ⟨hws, by omega⟩

theorem chain_complete (hops : ∀ op ∈ operators, op.isComparison = false) (hk : Stops k)
    (hoperand : ParsesOperand inList k operand T)
    (hadv : Advances (attempt (operation operators operand))) :
    ParsesOperand inList k (chain operators operand)
      fun rs => T rs ∧ Without operators rs := by
  intro us ts e hneg htail
  refine (hoperand us ts e hneg htail).bind ?_
  rintro first rs ⟨⟨htail', hT⟩, hle⟩
  refine (operations_complete hops hk hoperand hadv rs htail' hT).bind ?_
  rintro more ws ⟨hws, hle'⟩
  exact parses_pure ⟨hws, Nat.le_trans hle' hle⟩

end Chain

variable {levels : Nat}

theorem product_complete (hx : Complete expression) (hin : Inside levels expression)
    (hk : Stops k) : ParsesOperand inList k (product expression)
      fun rs => True ∧ Without [.multiply, .divide, .modulo] rs := by
  refine chain_complete (by decide) hk ?_ (advances_operation (signed_sound hin))
  intro us ts e hneg htail
  refine (signed_complete hx hk hneg htail).mono ?_
  rintro v rs ⟨hrs, hle⟩
  exact ⟨⟨hrs, trivial⟩, hle⟩

/-- Behind a sum no operator of a sum or a product comes next. -/
theorem sum_complete (hx : Complete expression) (hin : Inside levels expression)
    (hk : Stops k) : ParsesOperand inList k (sum expression) fun rs =>
      ∀ op : Operator, op.isComparison = false → rs.head? ≠ some (operatorToken op) := by
  have hops : ∀ op ∈ [Operator.add, .subtract], op.isComparison = false := by decide
  have hproduct : ParsesOperand inList k (product expression) fun rs =>
      True ∧ Without [.multiply, .divide, .modulo] rs := product_complete hx hin hk
  have hchain := chain_complete hops hk hproduct (advances_operation (product_sound hin))
  intro us ts e hneg htail
  refine (hchain us ts e hneg htail).mono ?_
  rintro v rs ⟨⟨htail', ⟨_, hproduct⟩, hsum⟩, hle⟩
  refine ⟨⟨htail', fun op hop => ?_⟩, hle⟩
  cases op with
  | add => exact hsum .add (by decide)
  | subtract => exact hsum .subtract (by decide)
  | multiply => exact hproduct .multiply (by decide)
  | divide => exact hproduct .divide (by decide)
  | modulo => exact hproduct .modulo (by decide)
  | lessThan => cases hop
  | greaterThan => cases hop

/-! ## Lists -/

theorem isSum_ne_nil (h : IsSum ts e) : ts ≠ [] := by
  have hstop : Tail False [] [] := .stop
  obtain ⟨us, rest, e', hsplit, hneg, _⟩ := operand_of_isSum h hstop
  rw [List.append_nil] at hsplit
  rw [hsplit]
  exact fun heq => hneg.ne_nil (List.append_eq_nil_iff.1 heq).1

theorem advances_argument (hin : Inside levels expression) : Advances (argument expression) := by
  refine (yields_argument hin).advances ?_
  rintro ts e ⟨us, sep, rfl, hsum, _⟩
  exact fun heq => isSum_ne_nil hsum (List.append_eq_nil_iff.1 heq).1

/-- The rule leaves a tail without an operator behind each operand. -/
def ParsesItem (k : List Token) (x : Rule Expr) : Prop :=
  ParsesOperand True k x fun rs =>
    ∀ op : Operator, op.isComparison = false → rs.head? ≠ some (operatorToken op)

/-- Behind an argument and its comma the list goes on or ends. -/
theorem argument_complete (hx : ParsesItem (rightParen :: k) expression)
    (h : Operand True (rightParen :: k) ts) :
    Parses True (argument expression) (Facing ts)
      fun _ us => Items (rightParen :: k) us ∧ us.length < ts.length := by
  obtain ⟨us, rest, e, rfl, hneg, htail⟩ := h
  have hpos := List.length_pos_iff.2 hneg.ne_nil
  refine (hx us rest e hneg htail).bind ?_
  rintro arg rs ⟨⟨htail', hne⟩, hle⟩
  obtain ⟨sep, rs', rfl, hsep, hitems, hnone⟩ := htail'.items hne
  rw [List.length_append] at hle
  have hlt : rs'.length < (us ++ rest).length := by
    rw [List.length_append]
    omega
  cases hsep with
  | comma =>
    refine parses_comma.bind fun _ ws hws => parses_pure ?_
    rw [hws]
    exact ⟨hitems, hlt⟩
  | none =>
    have hcomma : rs'.head? ≠ some comma := by
      rcases hnone rfl with rfl | hcomma
      · simp [rightParen, comma]
      · exact hcomma
    refine (parses_no_comma hcomma).bind fun _ ws hws => parses_pure ?_
    rw [hws]
    exact ⟨hitems, hlt⟩

theorem items_complete (hx : ParsesItem (rightParen :: k) expression)
    (hin : Inside levels expression) (hend : Fails True expression (Facing (rightParen :: k))) :
    ∀ ts, Items (rightParen :: k) ts →
      Parses True (argument expression).many (Facing ts) fun _ us => us = rightParen :: k := by
  intro ts
  induction hn : ts.length using Nat.strongRecOn generalizing ts with
  | ind n ih =>
    intro hitems
    rcases hitems with rfl | hoperand
    · exact (hend.bind.many (stays_argument hin)).mono fun vs us hus => hus.2
    · refine Parses.many (advances_argument hin) (argument_complete hx hoperand) ?_
      rintro v us ⟨hus, hlt⟩
      exact ih us.length (hn ▸ hlt) us rfl hus

/-! ## All levels -/

/-- The rule for expressions of the parser that remembers nothing. -/
theorem complete_level (levels : Nat) : Complete (level .nothing levels).expression := by
  induction levels with
  | zero =>
    refine ⟨fun ts e _ k _ s _ => ?_, fun ts es _ k s _ => ?_⟩
    · exact .inr ⟨trivial, s.cursor.afterTrivia, rfl⟩
    · refine .inr ⟨trivial, s.cursor.afterTrivia, ?_⟩
      rw [Rule.many]
      rfl
  | succ levels ih =>
    have hin := inside_level levels
    have hall : ∀ {inList : Prop} {k : List Token}, Stops k →
        ParsesOperand inList k (level .nothing (levels + 1)).expression fun rs =>
          ∀ op : Operator, op.isComparison = false → rs.head? ≠ some (operatorToken op) :=
      fun hk us ts e hneg htail => (sum_complete ih hin hk us ts e hneg htail).settled.behind
    refine ⟨fun ts e hsum k hk => ?_, fun ts es hargs k => ?_⟩
    · have hstop : Tail False k k := .stop
      obtain ⟨us, rest, e', hsplit, hneg, htail⟩ := operand_of_isSum hsum hstop
      rw [hsplit]
      refine (hall hk us rest e' hneg htail).mono ?_
      rintro v rs ⟨⟨htail', hne⟩, _⟩
      exact ⟨trivial, htail'.eq_stop hne⟩
    · have hend : Fails True (level .nothing (levels + 1)).expression (Facing (rightParen :: k)) :=
        (fails_sum (.inl rfl)).settled.behind
      have hitems := items_complete (hall (stops_cons stop_rightParen)) (inside_level (levels + 1))
        hend _ (items_of_isArguments hargs)
      exact hitems.mono fun v us hus => ⟨trivial, hus⟩

end Parser

end SceneScript
