import SceneScript.Proofs.Source.Spells
import SceneScript.Proofs.Source.Tokens

/-!
# Canonical source spells the tokens of the program

In the canonical source of a well-formed program every word and every number is followed by a
blank, a line feed, a parenthesis, a comma or an angle, and there is no parenthesis that the tree
does not have.  So the source is read as the tokens of the program, one by one.
-/

namespace SceneScript

open Grammar

variable {a b : List Char} {ts us : List Token}

/-! ## Parts -/

theorem spells_keyword {text : String} (h : Cursor.IsWord text) (hkey : isKeyword text = true) :
    Spells text.toList [word text] := by
  have hword := spells_word h
  rw [Token.ofWord, if_pos hkey] at hword
  exact hword

theorem Spells.space (h : Spells a ts) : Spells (' ' :: a) ts := h.blank (by decide)

theorem Spells.lineFeed (h : Spells a ts) : Spells ('\n' :: a) ts := h.blank (by decide)

theorem Spells.open (h : Spells a ts) : Spells ('(' :: a) (leftParen :: ts) :=
  h.symbol (by decide) fun hx => absurd hx (by decide)

theorem Spells.comma (h : Spells a ts) : Spells (',' :: a) (Grammar.comma :: ts) :=
  h.symbol (by decide) fun hx => absurd hx (by decide)

theorem spells_close : Spells [')'] [rightParen] :=
  spells_nil.symbol (by decide) fun hx => absurd hx (by decide)

theorem breaks_open (a : List Char) : Breaks ('(' :: a) := breaks_cons (by decide) a

theorem breaks_close (a : List Char) : Breaks (')' :: a) := breaks_cons (by decide) a

theorem breaks_comma (a : List Char) : Breaks (',' :: a) := breaks_cons (by decide) a

theorem breaks_space (a : List Char) : Breaks (' ' :: a) := breaks_cons (by decide) a

theorem breaks_lineFeed (a : List Char) : Breaks ('\n' :: a) := breaks_cons (by decide) a

/-- Something in parentheses. -/
theorem Spells.parens (h : Spells a ts) :
    Spells ('(' :: (a ++ [')'])) (leftParen :: (ts ++ [rightParen])) :=
  (h.append spells_close (breaks_close [])).open

/-- Things with commas between them. -/
theorem spells_commaSeparated {α : Type} {text : α → List Char} {tokens : α → List Token}
    {xs : List α} (h : ∀ x ∈ xs, Spells (text x) (tokens x)) :
    Spells ([',', ' '].intercalate (xs.map text)) (commaSeparated (xs.map tokens)) := by
  induction xs with
  | nil => exact spells_nil
  | cons x xs ih =>
    have hfirst := h x (List.mem_cons_self ..)
    have hmore := ih fun y hy => h y (List.mem_cons_of_mem _ hy)
    cases xs with
    | nil => simpa using hfirst
    | cons y xs => simpa using hfirst.append hmore.space.comma (breaks_comma _)

/-- A word of the program and a blank behind it. -/
theorem Spells.afterWord {text : String} (h : Spells a ts) (hword : Cursor.IsWord text)
    (hkey : isKeyword text = true) : Spells (text.toList ++ ' ' :: a) (word text :: ts) :=
  (spells_keyword hword hkey).append h.space (breaks_space a)

theorem spells_identifier {name : String} (h : IsValidName name) :
    Spells name.toList [Token.ofWord name] := by
  obtain ⟨⟨x, rest, hname, hx, hrest⟩, _⟩ := h
  refine spells_word ⟨?_, ?_⟩
  · simp [hname, hx]
  · simpa [hname, isWordChar_of_isWordStart hx] using hrest

/-! ## Expressions -/

theorem Expr.sources_eq (es : List Expr) : Expr.sources es = es.map Expr.source := by
  induction es with
  | nil => rfl
  | cons e es ih => rw [Expr.sources, ih, List.map_cons]

theorem Expr.tokensOfAll_eq (es : List Expr) : Expr.tokensOfAll es = es.map Expr.tokens := by
  induction es with
  | nil => rfl
  | cons e es ih => rw [Expr.tokensOfAll, ih, List.map_cons]

/-- A well-formed operand of a minus is not put in parentheses. -/
theorem needsParensNegated_eq_false {e : Expr} (hwell : e.WellFormed) (hneg : ¬e.IsNegated)
    (hbinary : ¬e.IsBinary) : e.needsParensNegated = false := by
  cases e with
  | number value => simp [Expr.needsParensNegated, Binary64.isLiteral, hwell.2]
  | negate operand => exact absurd trivial hneg
  | binary left op right => exact absurd trivial hbinary
  | _ => rfl

/-- The operators of a well-formed operand bind strongly enough where it stands. -/
theorem needsParens_eq_false {e : Expr} (hwell : e.WellFormed) {parent : Nat} {isRight : Bool}
    (h : parent = 1 ∨ (parent = 2 ∧ (isRight = true → ¬e.IsSum))
      ∨ (parent = 3 ∧ ¬e.IsSum ∧ (isRight = true → ¬e.IsBinary))) :
    e.needsParens parent isRight = false := by
  cases e with
  | binary left op right =>
    obtain ⟨_, _, hop⟩ := hwell
    -- a well-formed operation is no comparison, so it is a sum or a product
    have hprec : op.precedence = 2 ∨ op.precedence = 3 := hop.imp (·.1) (·.1)
    have hsum : op.precedence = 3 ∨ (Expr.binary left op right).IsSum := hprec.symm
    have hbinary : (Expr.binary left op right).IsBinary := trivial
    have hcompare : op.isComparison = false := by
      rcases hprec with hp | hp <;> simp [Operator.isComparison, hp]
    cases isRight with
    | true =>
      have hlt : parent < op.precedence := by
        rcases h with rfl | ⟨rfl, hright⟩ | ⟨rfl, _, hright⟩
        · omega
        · have := hsum.resolve_right (hright rfl)
          omega
        · exact absurd hbinary (hright rfl)
      simp only [Expr.needsParens, Bool.or_eq_false_iff, decide_eq_false_iff_not, hcompare]
      refine ⟨by omega, ?_⟩
      rw [beq_false_of_ne (by omega)]
      rfl
    | false =>
      have hle : parent ≤ op.precedence := by
        rcases h with rfl | ⟨rfl, _⟩ | ⟨rfl, hleft, _⟩
        · omega
        · omega
        · have := hsum.resolve_right hleft
          omega
      simp only [Expr.needsParens, Bool.or_eq_false_iff, decide_eq_false_iff_not, hcompare]
      exact ⟨by omega, by simp⟩
  | _ => rfl

/-- The two operands of an operation and its operator. -/
theorem spells_binary {left right : Expr} (op : Operator)
    (hleft : Spells left.source.toList left.tokens) (hright : Spells right.source.toList right.tokens)
    (hparens : left.needsParens op.precedence false = false
      ∧ right.needsParens op.precedence true = false) :
    Spells (Expr.binary left op right).source.toList (Expr.binary left op right).tokens := by
  have htext : (Expr.binary left op right).source.toList
      = left.source.toList ++ ' ' :: (op.symbol.toList ++ ' ' :: right.source.toList) := by
    simp [Expr.source, hparens, Expr.parenthesized]
  have hop : Spells (op.symbol.toList ++ ' ' :: right.source.toList)
      (operatorToken op :: right.tokens) := by
    cases op <;> exact hright.space.symbol (by decide) fun _ => rfl
  rw [htext]
  exact hleft.append hop.space (breaks_space _)

theorem spells_triple {x y z : Expr} (hx : Spells x.source.toList x.tokens)
    (hy : Spells y.source.toList y.tokens) (hz : Spells z.source.toList z.tokens) :
    Spells ([',', ' '].intercalate [x.source.toList, y.source.toList, z.source.toList])
      (x.tokens ++ comma :: (y.tokens ++ comma :: z.tokens)) := by
  have hall : ∀ e ∈ [x, y, z], Spells e.source.toList e.tokens := by
    simp [hx, hy, hz]
  simpa using spells_commaSeparated hall

mutual

/-- The source of a well-formed expression is read as its tokens. -/
theorem Expr.spells : (e : Expr) → e.WellFormed → Spells e.source.toList e.tokens
  | .number value, h => spells_number h
  | .color name, _ => spells_keyword (Cursor.isWord_color name) (by cases name <;> decide)
  | .rgb r g b, h => by
    have hlist := spells_triple (Expr.spells r h.1) (Expr.spells g h.2.1) (Expr.spells b h.2.2)
    have hword := spells_keyword (show Cursor.IsWord "rgb" by decide) (by decide)
    simpa [Expr.source, Expr.tokens] using hword.append hlist.parens (breaks_open _)
  | .vector x y z, h => by
    have hlist := spells_triple (Expr.spells x h.1) (Expr.spells y h.2.1) (Expr.spells z h.2.2)
    have hclose : Spells ['>'] [rightAngle] :=
      spells_nil.symbol (by decide) fun hx => absurd hx (by decide)
    have hangles := (hlist.append hclose (breaks_cons (by decide) [])).symbol
      (x := '<') (t := leftAngle) (by decide) fun hx => absurd hx (by decide)
    simpa [Expr.source, Expr.tokens] using hangles
  | .texture path, h => by
    have hword := spells_keyword (show Cursor.IsWord "texture" by decide) (by decide)
    simpa [Expr.source, Expr.tokens] using
      hword.append (Expr.spells path h).parens (breaks_open _)
  | .solid kind args, h => by
    have hlist := spells_commaSeparated (Expr.spellsAll args h)
    have hword := spells_keyword (Cursor.isWord_solid kind) (by cases kind <;> decide)
    simpa [Expr.source, Expr.tokens, Expr.sources_eq, Expr.tokensOfAll_eq, Function.comp_def] using
      hword.append hlist.parens (breaks_open _)
  | .paren inner, h => by
    simpa [Expr.source, Expr.tokens] using (Expr.spells inner h).parens
  | .text value, h => by
    -- a text with a single quote in it has no double one, and is written between those
    by_cases hsingle : '\'' ∈ value.toList
    · have hdouble : '"' ∉ value.toList := fun hmem => h ⟨hmem, hsingle⟩
      simpa [Expr.source, Expr.tokens, hsingle] using spells_text (.inl rfl) hdouble
    · simpa [Expr.source, Expr.tokens, hsingle] using spells_text (.inr rfl) hsingle
  | .identifier name, h => spells_identifier h.1
  | .negate operand, h => by
    have hparens := needsParensNegated_eq_false h.1 h.2.1 h.2.2
    have hminus := (Expr.spells operand h.1).symbol (x := '-') (t := minus) (by decide)
      fun hx => absurd hx (by decide)
    simpa [Expr.source, Expr.tokens, hparens, Expr.parenthesized] using hminus
  | .binary left op right, h => by
    refine spells_binary op (Expr.spells left h.1) (Expr.spells right h.2.1) ?_
    rcases h.2.2 with ⟨hop, hright⟩ | ⟨hop, hleft, hright⟩
    · -- operators of one level are written bare on the left only
      rw [hop]
      exact ⟨needsParens_eq_false h.1 (.inr (.inl ⟨rfl, nofun⟩)),
        needsParens_eq_false h.2.1 (.inr (.inl ⟨rfl, fun _ => hright⟩))⟩
    · rw [hop]
      have hnot : ¬right.IsSum := fun hsum => hright (by cases right <;> trivial)
      exact ⟨needsParens_eq_false h.1 (.inr (.inr ⟨rfl, hleft, nofun⟩)),
        needsParens_eq_false h.2.1 (.inr (.inr ⟨rfl, hnot, fun _ => hright⟩))⟩

theorem Expr.spellsAll : (es : List Expr) → AllWellFormed es →
    ∀ e ∈ es, Spells e.source.toList e.tokens
  | [], _ => nofun
  | e :: es, h => List.forall_mem_cons.2 ⟨Expr.spells e h.1, Expr.spellsAll es h.2⟩

end

/-- An argument list. -/
theorem spells_arguments {args : List Expr} (h : Expr.AllWellFormed args) :
    Spells (Expr.argumentSource args).toList
      (leftParen :: (Expr.argumentTokens args ++ [rightParen])) := by
  have hlist := spells_commaSeparated (Expr.spellsAll args h)
  simpa [Expr.argumentSource, Expr.argumentTokens, Expr.sources_eq, Expr.tokensOfAll_eq,
    Function.comp_def] using hlist.parens

/-- A condition, which may be a comparison of two expressions. -/
theorem Expr.spells_condition {c : Expr} (h : c.WellFormedCondition) :
    Spells c.source.toList c.tokens := by
  cases c with
  | binary left op right =>
    rcases h with ⟨hop, hleft, hright⟩ | h
    · have hprec : op.precedence = 1 := by simpa [Operator.isComparison] using hop
      refine spells_binary op (Expr.spells left hleft) (Expr.spells right hright) ?_
      rw [hprec]
      exact ⟨needsParens_eq_false hleft (.inl rfl), needsParens_eq_false hright (.inl rfl)⟩
    · exact Expr.spells _ h
  | _ => exact Expr.spells _ h

/-! ## Statements -/

/-- Indentation is blank. -/
theorem Spells.indent (depth : Nat) (h : Spells a ts) :
    Spells ((Statement.indent depth).toList ++ a) ts := by
  rw [Statement.indent, String.toList_ofList]
  generalize 4 * depth = count
  induction count with
  | zero => exact h
  | succ count ih => exact ih.space

theorem spells_parameters {params : List String} (h : ∀ param ∈ params, IsValidName param) :
    Spells ([',', ' '].intercalate (params.map String.toList)) (parameterTokens params) :=
  spells_commaSeparated fun param hmem => spells_identifier (h param hmem)

/-- A word in front of an argument list. -/
theorem spells_call {text : String} {args : List Expr} (hword : Spells text.toList ts)
    (h : Expr.AllWellFormed args) :
    Spells (text ++ Expr.argumentSource args).toList
      (ts ++ leftParen :: (Expr.argumentTokens args ++ [rightParen])) := by
  have hbreaks : Breaks (Expr.argumentSource args).toList := by
    simp only [Expr.argumentSource, String.toList_append]
    exact breaks_open _
  rw [String.toList_append]
  exact hword.append (spells_arguments h) hbreaks

mutual

/-- The source of a well-formed statement is read as its tokens, however far it is indented. -/
theorem Statement.spells : (s : Statement) → (depth : Nat) → s.WellFormed →
    Spells (s.sourceAt depth).toList s.tokens
  | .assignment isLocal name value, _, h => by
    have hvalue : Spells ('=' :: ' ' :: value.source.toList) (equals :: value.tokens) :=
      (Expr.spells value h.2).space.symbol (by decide) fun hx => absurd hx (by decide)
    have hname := (spells_identifier h.1).append hvalue.space (breaks_space _)
    cases isLocal with
    | false => simpa [Statement.sourceAt, Statement.tokens, localTokens] using hname
    | true =>
      have hlocal := hname.afterWord (show Cursor.IsWord "local" by decide) (by decide)
      simpa [Statement.sourceAt, Statement.tokens, localTokens] using hlocal
  | .transformation kind x y z body, depth, h => by
    have hword := spells_keyword (Cursor.isWord_transform kind) (by cases kind <;> decide)
    have hwell : Expr.AllWellFormed [x, y, z] := ⟨h.1, h.2.1, h.2.2.1, trivial⟩
    have hargs := spells_call hword hwell
    have hbody := (Statement.spells body depth h.2.2.2).space
    simpa [Statement.sourceAt, Statement.tokens, Expr.argumentTokens, Expr.tokensOfAll] using
      hargs.append hbody (breaks_space _)
  | .definition name params body, depth, h => by
    have hbody := (Statement.spellsBody body depth h.2.2).lineFeed
    have hparams := (spells_parameters h.2.1).parens.append hbody (breaks_lineFeed _)
    have hname := (spells_identifier h.1).append hparams (breaks_open _)
    have hall := hname.afterWord (show Cursor.IsWord "function" by decide) (by decide)
    simpa [Statement.sourceAt, Statement.tokens] using hall
  | .call name args, _, h => by
    have hargs := spells_call (spells_identifier h.1) h.2
    have hall := hargs.afterWord (show Cursor.IsWord "call" by decide) (by decide)
    simpa [Statement.sourceAt, Statement.tokens] using hall
  | .conditional condition body, depth, h => by
    have hthen := spells_keyword (show Cursor.IsWord "then" by decide) (by decide)
    have hbody := (Statement.spellsBody body depth h.2).lineFeed
    have hrest := (hthen.append hbody (breaks_lineFeed _)).space
    have hcond := (Expr.spells_condition h.1).append hrest (breaks_space _)
    have hall := hcond.afterWord (show Cursor.IsWord "if" by decide) (by decide)
    simpa [Statement.sourceAt, Statement.tokens] using hall
  | .loop condition body, depth, h => by
    have hdo := spells_keyword (show Cursor.IsWord "do" by decide) (by decide)
    have hbody := (Statement.spellsBody body depth h.2).lineFeed
    have hrest := (hdo.append hbody (breaks_lineFeed _)).space
    have hcond := (Expr.spells_condition h.1).append hrest (breaks_space _)
    have hall := hcond.afterWord (show Cursor.IsWord "while" by decide) (by decide)
    simpa [Statement.sourceAt, Statement.tokens] using hall
  | .block body, depth, h => by
    have hdo := spells_keyword (show Cursor.IsWord "do" by decide) (by decide)
    have hbody := (Statement.spellsBody body depth h).lineFeed
    simpa [Statement.sourceAt, Statement.tokens] using hdo.append hbody (breaks_lineFeed _)
  | .command name args, _, h => by
    have hword := spells_keyword (Cursor.isWord_command name) (by cases name <;> decide)
    simpa [Statement.sourceAt, Statement.tokens] using spells_call hword h
  | .light args, _, h => by
    have hlight := spells_keyword (show Cursor.IsWord "light" by decide) (by decide)
    have hall := (spells_call hlight h).afterWord (show Cursor.IsWord "append" by decide) (by decide)
    simpa [Statement.sourceAt, Statement.tokens] using hall
  | .camera value, _, h => by
    have hcamera := spells_keyword (show Cursor.IsWord "camera" by decide) (by decide)
    have hvalue := hcamera.append (Expr.spells value h).parens (breaks_open _)
    have hall := hvalue.afterWord (show Cursor.IsWord "set" by decide) (by decide)
    simpa [Statement.sourceAt, Statement.tokens] using hall

/-- The lines of a block and its `end`. -/
theorem Statement.spellsBody : (body : List Statement) → (depth : Nat) → AllWellFormed body →
    Spells (bodySource depth body).toList (Statement.tokensOfAll body ++ [word "end"])
  | [], depth, _ => by
    have hend := spells_keyword (show Cursor.IsWord "end" by decide) (by decide)
    simpa [bodySource, Statement.tokensOfAll] using hend.indent depth
  | s :: ss, depth, h => by
    have hmore := (Statement.spellsBody ss depth h.2).lineFeed
    have hfirst := (Statement.spells s (depth + 1) h.1).append hmore (breaks_lineFeed _)
    simpa [bodySource, Statement.tokensOfAll] using hfirst.indent (depth + 1)

end

/-- The source of a well-formed program is read as its tokens. -/
theorem Program.spells {p : Program} (h : p.WellFormed) : Spells p.source.toList p.tokens := by
  obtain ⟨statements⟩ := p
  induction statements with
  | nil => exact spells_nil
  | cons s ss ih =>
    have hmore := (ih h.2).lineFeed
    have hfirst := (Statement.spells s 0 h.1).append hmore (breaks_lineFeed _)
    simpa [Program.source, Program.tokens, Statement.tokensOfAll, Statement.source] using hfirst

end SceneScript
