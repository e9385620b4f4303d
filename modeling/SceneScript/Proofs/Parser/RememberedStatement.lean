import SceneScript.Proofs.Parser.Dispatch
import SceneScript.Proofs.Parser.Remembered
import SceneScript.Proofs.Parser.StatementSound

/-!
# Remembered statements

No statement is tried twice at one place: the alternatives for a statement begin with different
words, and the one that begins with any name, the assignment, goes on only over a `=`, where the
others have stopped.  So the table of statements is never of use, and expressions are read where
the table of expressions has nothing yet.
-/

namespace SceneScript.Parser

open Rule

/-! ## Tables with nothing ahead -/

/-- The table has nothing from the place on. -/
def Unseen {α : Type} (memo : Memo α) (c : Cursor) : Prop :=
  ∀ p, c.afterTrivia.pos ≤ p → memo[p]? = none

/-- Places further on are unseen, too. -/
theorem Unseen.mono {α : Type} {memo : Memo α} {c d : Cursor} (h : Unseen memo c)
    (hle : c.afterTrivia.pos ≤ d.afterTrivia.pos) : Unseen memo d :=
  fun p hp => h p (by omega)

/-- An answer for a place before leaves later ones unseen. -/
theorem Unseen.insert {α : Type} {memo : Memo α} {c : Cursor} (h : Unseen memo c) {p : Nat}
    {answer : Option (α × Cursor)} (hlt : p < c.afterTrivia.pos) :
    Unseen (memo.insert p answer) c := by
  intro q hq
  rw [Std.TreeMap.getElem?_insert]
  split
  · rename_i heq
    have hpq : p = q := by simpa using heq
    omega
  · exact h q hq

variable {α β : Type} {s t : State} {c d : Cursor}

/-- The same failure is the farthest. -/
def SameFailure (s t : State) : Prop := s.farthest = t.farthest

/-- The first parser has remembered nothing of what is ahead. -/
structure Clean (s t : State) : Prop where
  cursor : s.cursor = t.cursor
  farthest : SameFailure s t
  statements : Unseen s.statements s.cursor
  expressions : Unseen s.expressions s.cursor

/-- The first parser has remembered nothing of what is ahead, or an expression goes on here. -/
structure Over (s t : State) : Prop where
  cursor : s.cursor = t.cursor
  farthest : SameFailure s t
  statements : Unseen s.statements s.cursor
  expressions : Unseen s.expressions s.cursor ∨
    ∃ tok d m, s.cursor.next? = some (tok, d) ∧ Mode.operator.step tok = some m

/-- The first parser has remembered nothing of what is ahead, or no statement starts here. -/
structure Fair (s t : State) : Prop where
  cursor : s.cursor = t.cursor
  farthest : SameFailure s t
  statements : Unseen s.statements s.cursor
  expressions : Unseen s.expressions s.cursor ∨ s.cursor.afterTrivia.word? = none

/-- No statement starts here, and if a block ends here the first parser has remembered nothing of
what is behind, or no statement starts there. -/
structure Halted (s t : State) : Prop where
  cursor : s.cursor = t.cursor
  farthest : SameFailure s t
  behind : ∀ d, s.cursor.afterTrivia.afterKeyword? "end" = some d →
    Unseen s.statements d ∧ (Unseen s.expressions d ∨ d.afterTrivia.word? = none)

theorem Clean.fair (h : Clean s t) : Fair s t :=
  ⟨h.cursor, h.farthest, h.statements, .inl h.expressions⟩

theorem Fair.afterTrivia (h : Fair s t) :
    Fair (s.moveTo s.cursor.afterTrivia) (t.moveTo t.cursor.afterTrivia) := by
  have hsame := Cursor.afterTrivia_afterTrivia s.cursor
  refine ⟨congrArg Cursor.afterTrivia h.cursor, h.farthest, h.statements.mono ?_, ?_⟩
  · exact Nat.le_of_eq (by rw [State.cursor_moveTo, hsame])
  · rw [State.cursor_moveTo, hsame]
    rcases h.expressions with hunseen | hnone
    · exact .inl (hunseen.mono (Nat.le_of_eq (by rw [hsame])))
    · exact .inr hnone

theorem step_operator_word (word : String) : Mode.operator.step (Token.ofWord word) = none := by
  rcases Token.ofWord_eq word with h | h <;> rw [h] <;> rfl

/-- An expression does not go on with a word. -/
theorem Over.fair (h : Over s t) : Fair s t := by
  refine ⟨h.cursor, h.farthest, h.statements, ?_⟩
  rcases h.expressions with hunseen | ⟨tok, d, m, hnext, hstep⟩
  · exact .inl hunseen
  · right
    rw [Option.eq_none_iff_forall_ne_some]
    intro word hword
    have hword := (Cursor.word?_eq_some_iff (Cursor.settled_afterTrivia s.cursor)).1 hword
    rw [Cursor.next?_afterTrivia, hnext] at hword
    obtain ⟨rfl, _⟩ := Prod.mk.inj (Option.some.inj hword)
    rw [step_operator_word] at hstep
    cases hstep

/-! ## Rules that leave the tables alone -/

/-- The first parser's tables are those of a given state, and it stands no further back. -/
def untouched (given : State) : Together where
  cursors _ c := given.cursor.afterTrivia.pos ≤ c.afterTrivia.pos
  states s t := SameFailure s t ∧ s.statements = given.statements ∧
    s.expressions = given.expressions
  trivia := by
    intro m c hc
    rw [Cursor.afterTrivia_afterTrivia]
    exact hc
  next := by
    intro m m' c d tok hc hnext _
    have hlt := (Cursor.beyond_of_next? hnext).pos_lt
    have hle := (Cursor.onward_afterTrivia d).pos_le
    omega
  moveTo _ _ hst := hst
  expect := by
    rintro s t e hc ⟨hf, htables⟩
    refine ⟨?_, htables⟩
    show s.farthest.expect s.cursor e = t.farthest.expect t.cursor e
    rw [hf, hc]
  blame := by
    rintro s t reason hc ⟨hf, htables⟩
    refine ⟨?_, htables⟩
    show s.farthest.blame s.cursor reason = t.farthest.blame t.cursor reason
    rw [hf, hc]

/-- Any mode will do. -/
abbrev untouchedBlocks (given : State) : Blocks (untouched given).lockstep :=
  (untouched given).blocks fun h => h

variable {x y : Rule α}

theorem at_untouched (hcursor : s.cursor = t.cursor) (hf : SameFailure s t) :
    (untouched s).lockstep.At .operand s t :=
  ⟨⟨hcursor, Nat.le_refl _⟩, hf, rfl, rfl⟩

/-- Rules that leave the tables alone keep them clean. -/
theorem Clean.of_untouched {u : State} (h : Clean s u) {s' t' : State} {m : Mode}
    (k : (untouched s).lockstep.At m s' t') : Clean s' t' := by
  obtain ⟨⟨hcursor, hle⟩, hf, hs, he⟩ := k
  exact ⟨hcursor, hf, hs ▸ h.statements.mono hle, he ▸ h.expressions.mono hle⟩

/-- A rule that leaves the tables alone keeps them clean. -/
def Carries (x y : Rule α) : Prop :=
  Paired Clean (fun v w s t => v = w ∧ Clean s t) SameFailure Eq x y

/-- A rule with an expression at its end, which may have been read too far. -/
def Ends (x y : Rule α) : Prop :=
  Paired Clean (fun v w s t => v = w ∧ Fair s t) SameFailure Eq x y

/-- Rules that agree and leave the tables alone carry on. -/
theorem carries_of_agree
    (h : ∀ given, (untouched given).lockstep.Agree .operand .operand x y) : Carries x y := by
  intro s t hst
  refine (h s s t (at_untouched hst.cursor hst.farthest)).mono ?_ fun _ _ k => k.1
  rintro v w s' t' ⟨hvw, k⟩
  exact ⟨hvw, hst.of_untouched k⟩

/-- A rule that carries on may have any rule behind it that ends well. -/
theorem Carries.bind {f g : α → Rule β} (h : Carries x y) (hfg : ∀ v, Ends (f v) (g v)) :
    Ends (x >>= f) (y >>= g) := by
  refine Paired.bind h fun v w => ?_
  rintro s t ⟨rfl, hst⟩
  exact hfg v s t hst

theorem keyword_untouched {word : String} (hw : Cursor.IsWord word) (given : State) :
    (untouched given).lockstep.Agree .operand .operand (Rule.keyword word) (Rule.keyword word) :=
  ((untouchedBlocks given).uniform.keyword hw).agree

theorem dueKeyword_untouched {word : String} (hw : Cursor.IsWord word) (given : State) :
    (untouched given).lockstep.Agree .operand .operand (dueKeyword word) (dueKeyword word) :=
  ((untouchedBlocks given).uniform.dueKeyword hw).agree

theorem dueName_untouched (what : Expectation) (given : State) :
    (untouched given).lockstep.Agree .operand .operand (dueName what) (dueName what) :=
  ((untouchedBlocks given).dueName_firm what).agree

/-- A keyword leaves the tables alone. -/
theorem keyword_carries {word : String} (hw : Cursor.IsWord word) :
    Carries (Rule.keyword word) (Rule.keyword word) :=
  carries_of_agree (keyword_untouched hw)

theorem dueKeyword_carries {word : String} (hw : Cursor.IsWord word) :
    Carries (dueKeyword word) (dueKeyword word) :=
  carries_of_agree (dueKeyword_untouched hw)

theorem dueName_carries (what : Expectation) : Carries (dueName what) (dueName what) :=
  carries_of_agree (dueName_untouched what)

theorem opening_carries {word : String} (hw : Cursor.IsWord word) :
    Carries (opening word) (opening word) := by
  intro s t hst
  have hopen := (untouchedBlocks s).opening_paired hw (m := .operand) (n := .operand) s t
    (at_untouched hst.cursor hst.farthest)
  refine hopen.mono ?_ fun _ _ k => k.2.1
  rintro v w s' t' ⟨hvw, k⟩
  exact ⟨hvw, hst.of_untouched k⟩

/-! ## Rules with expressions -/

variable {n : Nat}

/-- What is remembered behind an expression is left behind with it. -/
theorem over_of_remembering {u : State} (h : Clean s u) {s' t' : State}
    (k : (remembering s.cursor levels s.statements).lockstep.At .operator s' t') : Over s' t' := by
  obtain ⟨⟨hcursor, hpath⟩, hf, hs, hkept⟩ := k
  refine ⟨hcursor, hf, hs ▸ h.statements.mono hpath.pos_le, ?_⟩
  -- an entry at this place or behind it would have been made by an expression that goes on
  by_cases hgoes : ∃ tok d m, s'.cursor.next? = some (tok, d) ∧ Mode.operator.step tok = some m
  · exact .inr hgoes
  · left
    intro p hp
    rw [Option.eq_none_iff_forall_ne_some]
    intro answer hanswer
    have hle := hpath.pos_le
    obtain ⟨c, m, hc, hrec⟩ := hkept p answer hanswer (by omega)
    rw [← hc, ← hrec.settled] at hp
    rcases hpath.extend hrec.path hp with ⟨_, hm⟩ | ⟨_, tok, e, m', hnext, hstep⟩
    · exact hrec.due hm.symm
    · exact hgoes ⟨tok, e, m', hnext, hstep⟩

theorem Clean.remembering (levels : Nat) (h : Clean s t) :
    (remembering s.cursor levels s.statements).lockstep.At .operand s t := by
  refine ⟨⟨h.cursor, Path.refl s.cursor⟩, h.farthest, rfl, ?_⟩
  intro p answer hp hle
  rw [h.expressions p hle] at hp
  cases hp

theorem over_of_agree (levels : Nat) (h : ∀ base statements,
    (remembering base levels statements).lockstep.Agree .operand .operator x y) :
    Paired Clean (fun v w s t => v = w ∧ Over s t) SameFailure Eq x y := by
  intro s t hst
  refine (h s.cursor s.statements s t (hst.remembering levels)).mono ?_ fun _ _ k => k.1
  rintro v w s' t' ⟨hvw, k⟩
  exact ⟨hvw, over_of_remembering hst k⟩

theorem ends_of_agree (levels : Nat) (h : ∀ base statements,
    (remembering base levels statements).lockstep.Agree .operand .operator x y) : Ends x y := by
  refine Paired.mono (over_of_agree levels h) (fun _ _ hst => hst) ?_ fun _ _ hst => hst
  rintro v w s t ⟨hvw, hst⟩
  exact ⟨hvw, hst.fair⟩

/-- Expressions with tables and without are read alike, and the tables are left behind. -/
theorem expression_over : Paired Clean (fun v w s t => v = w ∧ Over s t) SameFailure Eq
    (level .tables n).expression (level .nothing n).expression :=
  over_of_agree n fun base statements =>
    Lockstep.Firm.agree (level_tables_firm n (m := .operand) (by decide) rfl)

/-- In parentheses an expression is one level further in. -/
theorem inside_firm (base : Cursor) (statements : Memo Statement) :
    (remembering base (n + 1) statements).lockstep.Firm (.inside 0) (.inside 0)
      (level .tables n).expression (level .nothing n).expression :=
  level_tables_firm n (m := .inside 0) (by decide) rfl

/-- So are arguments. -/
theorem arguments_ends :
    Ends (arguments (level .tables n).expression) (arguments (level .nothing n).expression) := by
  refine ends_of_agree (n + 1) fun base statements => ?_
  have hinner := inside_firm (n := n) base statements
  have heven := Lockstep.Firm.even (Together.eq_of_cursors _)
    (Lockstep.argument_firm (m := .operand) hinner)
  exact Lockstep.arguments_agree (m := .operand) hinner heven

theorem Ends.bind_pure {f : α → β} (h : Ends x y) : Ends (do return f (← x)) (do return f (← y)) := by
  refine Paired.bind h fun v w => ?_
  rintro s t ⟨rfl, hst⟩
  exact ⟨rfl, hst⟩

theorem camera_ends :
    Ends (camera (level .tables n).expression) (camera (level .nothing n).expression) := by
  refine (keyword_carries (by decide)).bind fun _ => ?_
  refine (dueKeyword_carries (by decide)).bind fun _ => ?_
  refine ends_of_agree (n + 1) fun base statements => ?_
  refine Lockstep.Keeps.bind (m := .inside 0) (Lockstep.dueSymbol_agree
    Cursor.isSymbol_leftParen rfl) fun _ => ?_
  refine Lockstep.Keeps.bind (Lockstep.Firm.agree (inside_firm base statements)) fun view => ?_
  refine Lockstep.Keeps.bind (m := .operator) (Lockstep.dueSymbol_agree
    Cursor.isSymbol_rightParen rfl) fun _ => ?_
  exact Lockstep.keeps_pure (Statement.camera view)

theorem light_ends :
    Ends (light (level .tables n).expression) (light (level .nothing n).expression) := by
  refine (keyword_carries (by decide)).bind fun _ => ?_
  refine (dueKeyword_carries (by decide)).bind fun _ => ?_
  exact arguments_ends.bind_pure

theorem call_ends :
    Ends (call (level .tables n).expression) (call (level .nothing n).expression) := by
  refine (keyword_carries (by decide)).bind fun _ => ?_
  refine (dueName_carries _).bind fun name => ?_
  exact arguments_ends.bind_pure

theorem command_ends :
    Ends (command (level .tables n).expression) (command (level .nothing n).expression) := by
  have hname : Carries (oneOf Command.all Command.text) (oneOf Command.all Command.text) :=
    carries_of_agree fun given => ((untouchedBlocks given).uniform.oneOf
      fun name _ => Cursor.isWord_command name).agree
  exact hname.bind fun name => arguments_ends.bind_pure

/-! ## Conditions -/

theorem word?_eq_none_of_next? {tok : Token} (h : c.next? = some (tok, d))
    (htok : ∀ word, tok ≠ Token.ofWord word) : c.afterTrivia.word? = none := by
  rw [Option.eq_none_iff_forall_ne_some]
  intro word hword
  have hword := (Cursor.word?_eq_some_iff (Cursor.settled_afterTrivia c)).1 hword
  rw [Cursor.next?_afterTrivia, h] at hword
  exact htok word (Prod.mk.inj (Option.some.inj hword)).1

theorem operatorToken_ne_ofWord (op : Operator) (word : String) :
    Grammar.operatorToken op ≠ Token.ofWord word := by
  intro h
  rcases Token.ofWord_eq word with hw | hw <;> rw [hw] at h <;> cases op <;> cases h

/-- A comparison does not go on a sum. -/
theorem step_operator_comparison {op : Operator} (h : op ∈ [Operator.lessThan, .greaterThan]) :
    Mode.operator.step (Grammar.operatorToken op) = none := by
  revert op
  decide

/-- Where a comparison is found, the tables are clean, and where it is not, they are as they were,
or no statement starts there. -/
theorem comparison_paired (h : Over s t) (left : Expr) :
    Reply.Paired (fun v w s t => v = w ∧ Fair s t)
      (fun s' t' => Fair (s'.moveTo s.cursor) (t'.moveTo t.cursor)) Eq
      ((do
        let op ← operator [.lessThan, .greaterThan]
        let right ← (level .tables n).expression
        return Expr.binary left op right : Rule Expr) s)
      ((do
        let op ← operator [.lessThan, .greaterThan]
        let right ← (level .nothing n).expression
        return Expr.binary left op right : Rule Expr) t) := by
  have hoperator := (untouchedBlocks s).uniform.operator (m := .operand) (n := .operand)
    [.lessThan, .greaterThan] s t (at_untouched h.cursor h.farthest)
  cases hx : operator [.lessThan, .greaterThan] s <;>
    cases hy : operator [.lessThan, .greaterThan] t <;>
    simp only [hx, hy, Reply.Paired] at hoperator <;>
    rw [bind_apply, bind_apply, hx, hy]
  · rename_i op s1 op' t1
    obtain ⟨rfl, hat⟩ := hoperator
    obtain ⟨_, hreads, rfl, hmem⟩ := yields_operator _ _ _ _ hx
    obtain ⟨d, hnext, _⟩ := hreads
    -- no expression goes on with a comparison, so nothing has been read too far
    have hunseen : Unseen s.expressions s.cursor := by
      rcases h.expressions with hunseen | ⟨tok, e, m, hnext', hstep⟩
      · exact hunseen
      · rw [hnext] at hnext'
        cases hnext'
        rw [step_operator_comparison hmem] at hstep
        cases hstep
    have hclean : Clean s t := ⟨h.cursor, h.farthest, h.statements, hunseen⟩
    have hclean1 := hclean.of_untouched hat
    have hright := level_tables_firm n (m := .operand) (by decide) rfl s1 t1
      (hclean1.remembering n)
    refine paired_bind (hright.mono (fun _ _ _ _ hst => hst) ?_) ?_
    · rintro s' t' ⟨_, hf, hs, _⟩
      refine ⟨h.cursor, hf, ?_, .inr ?_⟩
      · show Unseen s'.statements s.cursor
        rw [hs, hat.2.2.1]
        exact h.statements
      · exact word?_eq_none_of_next? hnext (operatorToken_ne_ofWord _)
    · rintro right _ s' t' ⟨rfl, hover⟩
      exact ⟨rfl, (over_of_remembering hclean1 hover).fair⟩
  · rename_i s1 t1
    obtain ⟨_, hf, hs, he⟩ := hoperator
    refine ⟨h.cursor, hf, ?_, ?_⟩
    · show Unseen s1.statements s.cursor
      rw [hs]
      exact h.statements
    · show Unseen s1.expressions s.cursor ∨ _
      rw [he]
      exact h.fair.expressions
  · exact hoperator

/-- Conditions with tables and without are read alike. -/
theorem condition_ends : Ends (condition (level .tables n).expression)
    (condition (level .nothing n).expression) := by
  refine Paired.bind expression_over fun left left' => ?_
  rintro s t ⟨rfl, hover⟩
  exact paired_orElse (comparison_paired hover left) fun u w hfair => ⟨rfl, hfair⟩

/-! ## Bodies -/

theorem pos_le_of_afterKeyword? {word : String} (hw : Cursor.IsWord word)
    (h : c.afterTrivia.afterKeyword? word = some d) :
    c.afterTrivia.pos < d.afterTrivia.pos ∧ c.afterTrivia.word? = some word := by
  have hnext := (Cursor.afterKeyword?_eq_some_iff (Cursor.settled_afterTrivia c) hw).1 h
  have hlt := (Cursor.beyond_of_next? hnext).pos_lt
  have hle := (Cursor.onward_afterTrivia d).pos_le
  rw [Cursor.afterTrivia_afterTrivia] at hlt
  exact ⟨by omega, (Cursor.word?_of_afterKeyword? hw h).1⟩

theorem Fair.halted (h : Fair s t) : Halted s t := by
  refine ⟨h.cursor, h.farthest, fun d hd => ?_⟩
  obtain ⟨hlt, hword⟩ := pos_le_of_afterKeyword? (by decide) hd
  refine ⟨h.statements.mono (by omega), .inl ?_⟩
  rcases h.expressions with hunseen | hnone
  · exact hunseen.mono (by omega)
  · rw [hnone] at hword
    cases hword

/-- Where a keyword stands, nothing has been read too far. -/
theorem dueKeyword_fair {word : String} (hw : Cursor.IsWord word) :
    Paired Fair (fun v w s t => v = w ∧ Clean s t) SameFailure Eq
      (dueKeyword word) (dueKeyword word) := by
  intro s t hst
  have hkeyword := (untouchedBlocks s).uniform.dueKeyword (m := .operand) (n := .operand) hw s t
    (at_untouched hst.cursor hst.farthest)
  cases hx : dueKeyword word s <;> cases hy : dueKeyword word t <;>
    simp only [hx, hy, Reply.Paired] at hkeyword
  · rename_i v s' w t'
    obtain ⟨_, hat⟩ := hkeyword
    obtain ⟨d, hnext, _⟩ : ∃ d, s.cursor.next? = some (Token.ofWord word, d) ∧ _ :=
      matched_dueKeyword hw hx
    refine ⟨rfl, Clean.of_untouched ⟨hst.cursor, hst.farthest, hst.statements, ?_⟩ hat⟩
    rcases hst.expressions with hunseen | hnone
    · exact hunseen
    · rw [← Cursor.next?_afterTrivia] at hnext
      have hd := Cursor.eq_afterWord_of_next? (Cursor.settled_afterTrivia _) hnext
      rw [hd, ← Cursor.word?_eq_some_iff (Cursor.settled_afterTrivia _), hnone] at hnext
      cases hnext
  · exact hkeyword.2.1
  · exact hkeyword

/-- The end of a block is found alike. -/
theorem closing_fair (word : String) (opened : Cursor) :
    Paired Halted (fun v w s t => v = w ∧ Fair s t) SameFailure Eq
      (closing word opened) (closing word opened) := by
  intro s t hst
  have hclosing := (untouchedBlocks s).closing_agree (m := .operand) (n := .operand) word
    (c := opened) (d := opened) rfl s t (at_untouched hst.cursor hst.farthest)
  cases hx : closing word opened s <;> cases hy : closing word opened t <;>
    simp only [hx, hy, Reply.Paired] at hclosing
  · rename_i v s' w t'
    obtain ⟨_, ⟨hcursor, _⟩, hf, hs, he⟩ := hclosing
    have hend : s.cursor.afterTrivia.afterKeyword? "end" = some s'.cursor := by
      rcases matched_orElse (matched_trivia_bind hx) with hmove | ⟨u, _, hnone⟩
      · exact matched_move hmove
      · cases hnone
    obtain ⟨hstatements, hexpressions⟩ := hst.behind _ hend
    exact ⟨rfl, hcursor, hf, hs ▸ hstatements, he ▸ hexpressions⟩
  · exact hclosing.1
  · exact hclosing

/-- Two rules for statements: where nothing has been read too far, nothing is after a statement,
and where there is none they have halted alike. -/
def Halts (first second : Rule Statement) : Prop :=
  Paired Fair (fun v w s t => v = w ∧ Fair s t) Halted Eq first second

section

variable {first second : Rule Statement}

/-- Statements one after the other. -/
theorem body_halts (h : Halts first second) :
    Paired Fair (fun vs ws s t => vs = ws ∧ Halted s t) SameFailure Eq first.many second.many := by
  refine Paired.many h ?_ fun _ _ => Fair.halted
  intro s t v w s' t' hst hs ht
  have hpair := h s t hst
  rw [hs, ht] at hpair
  obtain ⟨_, hfair⟩ := hpair
  rw [hst.cursor, hfair.cursor]

/-- A body up to its `end`. -/
theorem body_fair (h : Halts first second)
    (word : String) (opened : Cursor) (f : List Statement → Statement) :
    Paired Fair (fun v w s t => v = w ∧ Fair s t) SameFailure Eq
      (do let body ← first.many; closing word opened; return f body)
      (do let body ← second.many; closing word opened; return f body) := by
  refine Paired.bind (body_halts h) fun body body' => ?_
  rintro s t ⟨rfl, hst⟩
  refine Paired.bind (closing_fair word opened) (fun v w => ?_) s t hst
  rintro s t ⟨_, hst⟩
  exact ⟨rfl, hst⟩

/-- A block is read alike if the statements in it are. -/
theorem block_ends (h : Halts first second) : Ends (block first) (block second) := by
  refine (opening_carries (by decide)).bind fun opened => ?_
  exact (body_fair h "do" opened .block).weaken fun _ _ => Clean.fair

/-- A block under a condition is read alike if the statements in it are. -/
theorem guarded_ends {word other : String} {make : Expr → List Statement → Statement}
    (hword : Cursor.IsWord word) (hother : Cursor.IsWord other) (h : Halts first second) :
    Ends (guarded word other make first (level .tables n).expression)
      (guarded word other make second (level .nothing n).expression) := by
  refine (opening_carries hword).bind fun opened => ?_
  refine Paired.bind condition_ends fun test test' => ?_
  rintro s t ⟨rfl, hst⟩
  refine Paired.bind (dueKeyword_fair hother) (fun v w => ?_) s t hst
  rintro s t ⟨_, hst⟩
  exact body_fair h word opened (make test) s t hst.fair

theorem conditional_ends (h : Halts first second) :
    Ends (conditional first (level .tables n).expression)
      (conditional second (level .nothing n).expression) :=
  guarded_ends (by decide) (by decide) h

theorem loop_ends (h : Halts first second) :
    Ends (loop first (level .tables n).expression)
      (loop second (level .nothing n).expression) :=
  guarded_ends (by decide) (by decide) h

theorem dueSymbol_carries {symbol : String} {tok : Token} (hs : Cursor.IsSymbol symbol tok) :
    Carries (dueSymbol symbol) (dueSymbol symbol) :=
  carries_of_agree fun given => ((untouchedBlocks given).uniform.dueSymbol hs).agree

theorem parameters_carry : Carries parameter.many parameter.many := by
  refine carries_of_agree fun given => ?_
  have hparameter := (untouchedBlocks given).parameter_firm (m := .operand) (n := .operand)
  have hmany := Paired.many (R := (untouched given).lockstep.states) hparameter
    (hparameter.even (Together.eq_of_cursors _)) fun _ _ => id
  exact hmany

/-- A definition is read alike if the statements in it are. -/
theorem definition_ends (h : Halts first second) :
    Ends (definition first) (definition second) := by
  refine (opening_carries (by decide)).bind fun opened => ?_
  refine (dueName_carries _).bind fun name => ?_
  refine (dueSymbol_carries Cursor.isSymbol_leftParen).bind fun _ => ?_
  refine parameters_carry.bind fun params => ?_
  refine (dueSymbol_carries Cursor.isSymbol_rightParen).bind fun _ => ?_
  exact (body_fair h "function" opened (.definition name params)).weaken fun _ _ => Clean.fair

/-- A transformation is read alike if the statement under it is. -/
theorem transformation_ends (h : Halts first second) :
    Ends (transformation first (level .tables n).expression)
      (transformation second (level .nothing n).expression) := by
  have hkind : Carries (oneOf Transform.all Transform.text) (oneOf Transform.all Transform.text) :=
    carries_of_agree fun given => ((untouchedBlocks given).uniform.oneOf
      fun kind _ => Cursor.isWord_transform kind).agree
  refine hkind.bind fun kind => ?_
  intro s t hst
  have hopen := (Lockstep.dueSymbol_agree (L := (remembering s.cursor (n + 1)
    s.statements).lockstep) (m := .operand) (n := .inside 0) Cursor.isSymbol_leftParen rfl).mono
    (R := SameFailure) (fun _ _ hst => hst) (fun _ _ _ _ hst => hst) fun _ _ hst => hst.1
  have htriple := (Lockstep.triple_agree (m := .operand) (inside_firm (n := n) s.cursor
    s.statements) Cursor.isSymbol_rightParen rfl).mono
    (R := SameFailure) (fun _ _ hst => hst) (fun _ _ _ _ hst => hst) fun _ _ hst => hst.1
  refine hopen.bind (fun _ _ => ?_) s t (hst.remembering (n + 1))
  rintro s' t' ⟨_, hst'⟩
  refine htriple.bind (fun parts parts' => ?_) s' t' hst'
  rintro s' t' ⟨rfl, hover⟩
  have hbody := h.mono (fun _ _ hst => hst) (fun _ _ _ _ hst => hst)
    (fun _ _ (hst : Halted _ _) => hst.farthest)
  refine Paired.bind hbody (fun body body' => ?_) s' t' (over_of_remembering hst hover).fair
  rintro s t ⟨rfl, hst⟩
  exact ⟨rfl, hst⟩

end

end SceneScript.Parser
