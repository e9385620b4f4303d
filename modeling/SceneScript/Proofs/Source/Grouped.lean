import SceneScript.Program.Normal
import SceneScript.Program.Source
import SceneScript.Program.WellFormed

/-!
# The parentheses of canonical source

A tree that is not read from a source may be grouped otherwise than its operators bind, and it may
hold numbers below zero.  Canonical source puts parentheses there.  `grouped` is the tree with
these parentheses in it: it has the same source and the same normal form, and it is well formed if
all names, numbers and texts in the tree can be written down.
-/

namespace SceneScript

/-! ## Trees that can be written down -/

/-- The number is finite, and no zero with a sign. -/
def Binary64.IsWritable (x : Binary64) : Prop :=
  x.isFinite = true ∧ ¬(x.isNegative = true ∧ x.isZero = true)

namespace Expr

mutual

/-- Every name can be a name, every number and every text a literal, and nothing is compared. -/
def Writable : Expr → Prop
  | .number value => value.IsWritable
  | .color _ => True
  | .rgb r g b => r.Writable ∧ g.Writable ∧ b.Writable
  | .vector x y z => x.Writable ∧ y.Writable ∧ z.Writable
  | .texture path => path.Writable
  | .solid _ args => AllWritable args
  | .paren inner => inner.Writable
  | .text value => IsQuotable value
  | .identifier name => IsValidName name ∧ ∀ c : Color, name ≠ c.text
  | .negate operand => operand.Writable
  | .binary left op right => op.isComparison = false ∧ left.Writable ∧ right.Writable

/-- All of some expressions can be written down. -/
def AllWritable : List Expr → Prop
  | [] => True
  | e :: es => e.Writable ∧ AllWritable es

end

/-- The expression can be written down as a condition, which may be a comparison. -/
def WritableCondition : Expr → Prop
  | .binary left _ right => left.Writable ∧ right.Writable
  | e => e.Writable

end Expr

namespace Statement

mutual

/-- Every name and every expression in the statement can be written down. -/
def Writable : Statement → Prop
  | .assignment _ name value => IsValidName name ∧ value.Writable
  | .transformation _ x y z body => x.Writable ∧ y.Writable ∧ z.Writable ∧ body.Writable
  | .definition name params body =>
    IsValidName name ∧ (∀ param ∈ params, IsValidName param) ∧ AllWritable body
  | .call name args => IsValidName name ∧ Expr.AllWritable args
  | .conditional condition body => condition.WritableCondition ∧ AllWritable body
  | .loop condition body => condition.WritableCondition ∧ AllWritable body
  | .block body => AllWritable body
  | .command _ args => Expr.AllWritable args
  | .light args => Expr.AllWritable args
  | .camera value => value.Writable

/-- All of some statements can be written down. -/
def AllWritable : List Statement → Prop
  | [] => True
  | s :: ss => s.Writable ∧ AllWritable ss

end

end Statement

/-- The program can be written down, however its operators are grouped. -/
def Program.Writable (p : Program) : Prop := Statement.AllWritable p.statements

/-! ## Parentheses -/

/-- The number as it is, or the minus and the parentheses that stand for its sign. -/
def Binary64.grouped (x : Binary64) : Expr :=
  if x.isLiteral then .number x else .paren (.negate (.number x.negate))

namespace Expr

/-- The expression in parentheses if they are wanted. -/
def wrap (wanted : Bool) (e : Expr) : Expr := if wanted then .paren e else e

mutual

/-- The expression with the parentheses of its canonical source. -/
def grouped : Expr → Expr
  | .number value => value.grouped
  | .color name => .color name
  | .rgb r g b => .rgb r.grouped g.grouped b.grouped
  | .vector x y z => .vector x.grouped y.grouped z.grouped
  | .texture path => .texture path.grouped
  | .solid kind args => .solid kind (groupedAll args)
  | .paren inner => .paren inner.grouped
  | .text value => .text value
  | .identifier name => .identifier name
  | .negate operand => .negate (wrap operand.needsParensNegated operand.grouped)
  | .binary left op right =>
    .binary (wrap (left.needsParens op.precedence false) left.grouped) op
      (wrap (right.needsParens op.precedence true) right.grouped)

/-- Some expressions with parentheses wherever their sources need them. -/
def groupedAll : List Expr → List Expr
  | [] => []
  | e :: es => e.grouped :: groupedAll es

end

end Expr

namespace Statement

mutual

/-- The statement with the parentheses of its canonical source. -/
def grouped : Statement → Statement
  | .assignment isLocal name value => .assignment isLocal name value.grouped
  | .transformation kind x y z body =>
    .transformation kind x.grouped y.grouped z.grouped body.grouped
  | .definition name params body => .definition name params (groupedAll body)
  | .call name args => .call name (Expr.groupedAll args)
  | .conditional condition body => .conditional condition.grouped (groupedAll body)
  | .loop condition body => .loop condition.grouped (groupedAll body)
  | .block body => .block (groupedAll body)
  | .command name args => .command name (Expr.groupedAll args)
  | .light args => .light (Expr.groupedAll args)
  | .camera value => .camera value.grouped

/-- Some statements with parentheses wherever their sources need them. -/
def groupedAll : List Statement → List Statement
  | [] => []
  | s :: ss => s.grouped :: groupedAll ss

end

end Statement

/-- The program with the parentheses of its canonical source. -/
def Program.grouped (p : Program) : Program := ⟨Statement.groupedAll p.statements⟩

/-! ## The parentheses are where they are needed -/

variable {e : Expr} {x : Binary64}

theorem isLiteral_of_isWritable (h : x.IsWritable) : x.isLiteral = !x.isNegative := by
  unfold Binary64.isLiteral
  cases hnegative : x.isNegative with
  | false => rfl
  | true =>
    have hzero : x.isZero = false := Bool.not_eq_true _ ▸ fun hzero => h.2 ⟨hnegative, hzero⟩
    rw [hzero]
    rfl

theorem isNegative_negate (x : Binary64) : x.negate.isNegative = !x.isNegative := by
  cases x <;> rfl

/-- The other sign makes a literal of a number that is none. -/
theorem isLiteral_negate (h : x.isLiteral = false) : x.negate.isLiteral = true := by
  unfold Binary64.isLiteral at h ⊢
  rw [isNegative_negate]
  cases hnegative : x.isNegative with
  | false =>
    rw [hnegative] at h
    cases h
  | true => rfl

namespace Expr

/-- Once the parentheses are in the tree no more are needed there. -/
theorem needsParens_wrap_grouped (e : Expr) (parent : Nat) (isRight : Bool) :
    (wrap (e.needsParens parent isRight) e.grouped).needsParens parent isRight = false := by
  cases hneeds : e.needsParens parent isRight with
  | true => rfl
  | false =>
    cases e with
    | number value =>
      show (Binary64.grouped value).needsParens parent isRight = false
      unfold Binary64.grouped
      split <;> rfl
    | binary left op right => exact hneeds
    | _ => rfl

theorem needsParensNegated_wrap_grouped (e : Expr) :
    (wrap e.needsParensNegated e.grouped).needsParensNegated = false := by
  cases hneeds : e.needsParensNegated with
  | true => rfl
  | false =>
    cases e with
    | number value =>
      have hliteral : value.isLiteral = true := by simpa [needsParensNegated] using hneeds
      show (Binary64.grouped value).needsParensNegated = false
      rw [Binary64.grouped, if_pos hliteral]
      exact hneeds
    | negate operand => cases hneeds
    | binary left op right => cases hneeds
    | _ => rfl

/-! ## The same source -/

/-- A paren node is written as the parentheses that would have been put there. -/
theorem source_wrap (wanted : Bool) (e : Expr) :
    (wrap wanted e).source = parenthesized wanted e.source := by
  cases wanted <;> rfl

theorem source_grouped_number (x : Binary64) : x.grouped.source = x.source := by
  unfold Binary64.grouped Binary64.source
  cases hliteral : x.isLiteral with
  | true => simp [source, Binary64.source, hliteral]
  | false =>
    have hother := isLiteral_negate hliteral
    have hminus (text : String) : "(" ++ ("-" ++ text) = "(-" ++ text := by
      rw [← String.append_assoc]
      rfl
    simp [source, Binary64.source, hother, needsParensNegated, parenthesized, String.append_assoc,
      hminus]

mutual

/-- The tree with its parentheses has the same canonical source. -/
theorem source_grouped : ∀ e : Expr, e.grouped.source = e.source
  | .number value => source_grouped_number value
  | .color _ | .text _ | .identifier _ => rfl
  | .rgb r g b => by
    simp only [grouped, source, source_grouped r, source_grouped g, source_grouped b]
  | .vector x y z => by
    simp only [grouped, source, source_grouped x, source_grouped y, source_grouped z]
  | .texture path => by simp only [grouped, source, source_grouped path]
  | .solid kind args => by simp only [grouped, source, sources_groupedAll args]
  | .paren inner => by simp only [grouped, source, source_grouped inner]
  | .negate operand => by
    rw [grouped, source, source, needsParensNegated_wrap_grouped, source_wrap,
      source_grouped operand]
    rfl
  | .binary left op right => by
    rw [grouped, source, source, needsParens_wrap_grouped, needsParens_wrap_grouped, source_wrap,
      source_wrap, source_grouped left, source_grouped right]
    rfl

theorem sources_groupedAll : ∀ es : List Expr, sources (groupedAll es) = sources es
  | [] => rfl
  | e :: es => by simp only [groupedAll, sources, source_grouped e, sources_groupedAll es]

end

/-! ## The same normal form -/

theorem normal_wrap (wanted : Bool) (e : Expr) : (wrap wanted e).normal = e.normal := by
  cases wanted <;> rfl

theorem normal_grouped_number (x : Binary64) : x.grouped.normal = x.normal := by
  unfold Binary64.grouped
  split
  · rfl
  · rename_i hliteral
    have hnegative : x.isNegative = true := by
      cases hnegative : x.isNegative with
      | true => rfl
      | false => exact absurd (by simp [Binary64.isLiteral, hnegative]) hliteral
    simp [normal, Binary64.normal, isNegative_negate, hnegative]

mutual

/-- The tree with its parentheses has the same normal form, which has none. -/
theorem normal_grouped : ∀ e : Expr, e.grouped.normal = e.normal
  | .number value => normal_grouped_number value
  | .color _ | .text _ | .identifier _ => rfl
  | .rgb r g b => by
    simp only [grouped, normal, normal_grouped r, normal_grouped g, normal_grouped b]
  | .vector x y z => by
    simp only [grouped, normal, normal_grouped x, normal_grouped y, normal_grouped z]
  | .texture path => by simp only [grouped, normal, normal_grouped path]
  | .solid kind args => by simp only [grouped, normal, normals_groupedAll args]
  | .paren inner => by simp only [grouped, normal, normal_grouped inner]
  | .negate operand => by simp only [grouped, normal, normal_wrap, normal_grouped operand]
  | .binary left op right => by
    simp only [grouped, normal, normal_wrap, normal_grouped left, normal_grouped right]

theorem normals_groupedAll : ∀ es : List Expr, normals (groupedAll es) = normals es
  | [] => rfl
  | e :: es => by simp only [groupedAll, normals, normal_grouped e, normals_groupedAll es]

end

/-! ## Well-formed trees -/

theorem wellFormed_wrap {wanted : Bool} (h : e.WellFormed) : (wrap wanted e).WellFormed := by
  cases wanted <;> exact h

/-- A number below zero is written as a negation, which is well formed. -/
theorem wellFormed_grouped_number (h : x.IsWritable) : x.grouped.WellFormed := by
  unfold Binary64.grouped
  rw [isLiteral_of_isWritable h]
  cases hnegative : x.isNegative with
  | false => exact ⟨h.1, hnegative⟩
  | true =>
    refine ⟨⟨(Binary64.isFinite_negate x).trans h.1, ?_⟩, id, id⟩
    rw [isNegative_negate, hnegative]
    rfl

/-- What stands after a minus is neither a minus nor an operation. -/
theorem wrap_grouped_negated (e : Expr) :
    ¬(wrap e.needsParensNegated e.grouped).IsNegated
      ∧ ¬(wrap e.needsParensNegated e.grouped).IsBinary := by
  have hneeds := needsParensNegated_wrap_grouped e
  -- only a minus and an operation need parentheses there, and the operand needs none
  generalize wrap e.needsParensNegated e.grouped = operand at hneeds
  cases operand with
  | negate operand => cases hneeds
  | binary left op right => cases hneeds
  | _ => exact ⟨id, id⟩

/-- An operand that needs no parentheses is no sum beside an operator that binds as strongly. -/
theorem not_isSum_of_needsParens {parent : Nat} {isRight : Bool}
    (h : e.needsParens parent isRight = false) (hparent : 2 < parent ∨ (parent = 2 ∧ isRight)) :
    ¬e.IsSum := by
  cases e with
  | binary left op right =>
    intro (hsum : op.precedence = 2)
    simp only [needsParens, hsum, Bool.or_eq_false_iff, decide_eq_false_iff_not] at h
    obtain hlt | ⟨rfl, rfl⟩ := hparent
    · exact h.1 hlt
    · simp at h
  | _ => exact id

/-- An operand that needs no parentheses on the right of a product is no operation. -/
theorem not_isBinary_of_needsParens (h : e.needsParens 3 true = false) : ¬e.IsBinary := by
  cases e with
  | binary left op right => cases op <;> cases h
  | _ => exact id

/-- What stands beside an operator binds strongly enough. -/
theorem wrap_grouped_operands (left right : Expr) {op : Operator} (hop : op.isComparison = false) :
    (op.precedence = 2 ∧ ¬(wrap (right.needsParens op.precedence true) right.grouped).IsSum)
      ∨ (op.precedence = 3 ∧ ¬(wrap (left.needsParens op.precedence false) left.grouped).IsSum
        ∧ ¬(wrap (right.needsParens op.precedence true) right.grouped).IsBinary) := by
  have hleft := needsParens_wrap_grouped left op.precedence false
  have hright := needsParens_wrap_grouped right op.precedence true
  have hprecedence : op.precedence = 2 ∨ op.precedence = 3 := by
    cases op <;> first | exact .inl rfl | exact .inr rfl | cases hop
  obtain h | h := hprecedence <;> rw [h] at hleft hright ⊢
  · exact .inl ⟨rfl, not_isSum_of_needsParens hright (.inr ⟨rfl, rfl⟩)⟩
  · exact .inr ⟨rfl, not_isSum_of_needsParens hleft (.inl (by decide)),
      not_isBinary_of_needsParens hright⟩

mutual

/-- The tree with its parentheses is one that can be read from a source. -/
theorem wellFormed_grouped : ∀ e : Expr, e.Writable → e.grouped.WellFormed
  | .number _, h => wellFormed_grouped_number h
  | .color _, _ => trivial
  | .text _, h | .identifier _, h => h
  | .rgb r g b, ⟨hr, hg, hb⟩ => ⟨wellFormed_grouped r hr, wellFormed_grouped g hg,
      wellFormed_grouped b hb⟩
  | .vector x y z, ⟨hx, hy, hz⟩ => ⟨wellFormed_grouped x hx, wellFormed_grouped y hy,
      wellFormed_grouped z hz⟩
  | .texture path, h => wellFormed_grouped path h
  | .solid _ args, h => allWellFormed_groupedAll args h
  | .paren inner, h => wellFormed_grouped inner h
  | .negate operand, h =>
    ⟨wellFormed_wrap (wellFormed_grouped operand h), wrap_grouped_negated operand⟩
  | .binary left _ right, ⟨hop, hleft, hright⟩ =>
    ⟨wellFormed_wrap (wellFormed_grouped left hleft),
      wellFormed_wrap (wellFormed_grouped right hright), wrap_grouped_operands left right hop⟩

theorem allWellFormed_groupedAll : ∀ es : List Expr, AllWritable es → AllWellFormed (groupedAll es)
  | [], _ => trivial
  | e :: es, ⟨he, hes⟩ => ⟨wellFormed_grouped e he, allWellFormed_groupedAll es hes⟩

end

theorem wellFormedCondition_of_wellFormed (h : e.WellFormed) : e.WellFormedCondition := by
  cases e with
  | binary left op right => exact .inr h
  | _ => exact h

/-- A comparison is kept bare where a condition stands. -/
theorem wellFormedCondition_grouped (h : e.WritableCondition) : e.grouped.WellFormedCondition := by
  cases e with
  | binary left op right =>
    cases hop : op.isComparison with
    | true => exact .inl ⟨hop, wellFormed_wrap (wellFormed_grouped left h.1),
        wellFormed_wrap (wellFormed_grouped right h.2)⟩
    | false => exact .inr (wellFormed_grouped (.binary left op right) ⟨hop, h⟩)
  | _ => exact wellFormedCondition_of_wellFormed (wellFormed_grouped _ h)

end Expr

namespace Statement

open SceneScript.Expr (source_grouped sources_groupedAll wellFormedCondition_grouped)

mutual

/-- A statement with its parentheses has the same canonical source at every indentation. -/
theorem sourceAt_grouped : ∀ (depth : Nat) (s : Statement),
    s.grouped.sourceAt depth = s.sourceAt depth
  | _, .assignment isLocal name value => by simp only [grouped, sourceAt, source_grouped]
  | depth, .transformation kind x y z body => by
    simp only [grouped, sourceAt, Expr.argumentSource, Expr.sources, source_grouped,
      sourceAt_grouped depth body]
  | depth, .definition name params body => by
    simp only [grouped, sourceAt, bodySource_groupedAll depth body]
  | _, .call name args => by
    simp only [grouped, sourceAt, Expr.argumentSource, sources_groupedAll]
  | depth, .conditional condition body => by
    simp only [grouped, sourceAt, source_grouped, bodySource_groupedAll depth body]
  | depth, .loop condition body => by
    simp only [grouped, sourceAt, source_grouped, bodySource_groupedAll depth body]
  | depth, .block body => by simp only [grouped, sourceAt, bodySource_groupedAll depth body]
  | _, .command name args => by
    simp only [grouped, sourceAt, Expr.argumentSource, sources_groupedAll]
  | _, .light args => by simp only [grouped, sourceAt, Expr.argumentSource, sources_groupedAll]
  | _, .camera value => by simp only [grouped, sourceAt, source_grouped]

theorem bodySource_groupedAll : ∀ (depth : Nat) (ss : List Statement),
    bodySource depth (groupedAll ss) = bodySource depth ss
  | _, [] => rfl
  | depth, s :: ss => by
    simp only [groupedAll, bodySource, sourceAt_grouped (depth + 1) s,
      bodySource_groupedAll depth ss]

end

mutual

theorem normal_grouped : ∀ s : Statement, s.grouped.normal = s.normal
  | .assignment isLocal name value => by simp only [grouped, normal, Expr.normal_grouped]
  | .transformation kind x y z body => by
    simp only [grouped, normal, Expr.normal_grouped, normal_grouped body]
  | .definition name params body => by simp only [grouped, normal, normals_groupedAll body]
  | .call name args => by simp only [grouped, normal, Expr.normals_groupedAll]
  | .conditional condition body => by
    simp only [grouped, normal, Expr.normal_grouped, normals_groupedAll body]
  | .loop condition body => by
    simp only [grouped, normal, Expr.normal_grouped, normals_groupedAll body]
  | .block body => by simp only [grouped, normal, normals_groupedAll body]
  | .command name args => by simp only [grouped, normal, Expr.normals_groupedAll]
  | .light args => by simp only [grouped, normal, Expr.normals_groupedAll]
  | .camera value => by simp only [grouped, normal, Expr.normal_grouped]

theorem normals_groupedAll : ∀ ss : List Statement, normals (groupedAll ss) = normals ss
  | [] => rfl
  | s :: ss => by simp only [groupedAll, normals, normal_grouped s, normals_groupedAll ss]

end

mutual

theorem wellFormed_grouped : ∀ s : Statement, s.Writable → s.grouped.WellFormed
  | .assignment _ _ value, ⟨hname, hvalue⟩ => ⟨hname, value.wellFormed_grouped hvalue⟩
  | .transformation _ x y z body, ⟨hx, hy, hz, hbody⟩ => ⟨x.wellFormed_grouped hx,
      y.wellFormed_grouped hy, z.wellFormed_grouped hz, wellFormed_grouped body hbody⟩
  | .definition _ _ body, ⟨hname, hparams, hbody⟩ =>
    ⟨hname, hparams, allWellFormed_groupedAll body hbody⟩
  | .call _ args, ⟨hname, hargs⟩ => ⟨hname, Expr.allWellFormed_groupedAll args hargs⟩
  | .conditional _ body, ⟨hcondition, hbody⟩ =>
    ⟨wellFormedCondition_grouped hcondition, allWellFormed_groupedAll body hbody⟩
  | .loop _ body, ⟨hcondition, hbody⟩ =>
    ⟨wellFormedCondition_grouped hcondition, allWellFormed_groupedAll body hbody⟩
  | .block body, h => allWellFormed_groupedAll body h
  | .command _ args, h => Expr.allWellFormed_groupedAll args h
  | .light args, h => Expr.allWellFormed_groupedAll args h
  | .camera value, h => value.wellFormed_grouped h

theorem allWellFormed_groupedAll : ∀ ss : List Statement,
    AllWritable ss → AllWellFormed (groupedAll ss)
  | [], _ => trivial
  | s :: ss, ⟨hs, hss⟩ => ⟨wellFormed_grouped s hs, allWellFormed_groupedAll ss hss⟩

end

theorem groupedAll_eq_map (ss : List Statement) : groupedAll ss = ss.map grouped := by
  induction ss with
  | nil => rfl
  | cons s ss ih => rw [groupedAll, ih, List.map_cons]

end Statement

namespace Program

/-- The parentheses of the canonical source are all that is added. -/
theorem source_grouped (p : Program) : p.grouped.source = p.source := by
  simp only [grouped, source, Statement.groupedAll_eq_map, List.map_map, Function.comp_def,
    Statement.source, Statement.sourceAt_grouped]

theorem normal_grouped (p : Program) : p.grouped.normal = p.normal := by
  rw [normal, normal, grouped, Statement.normals_groupedAll]

theorem wellFormed_grouped {p : Program} (h : p.Writable) : p.grouped.WellFormed :=
  Statement.allWellFormed_groupedAll p.statements h

end Program

end SceneScript
