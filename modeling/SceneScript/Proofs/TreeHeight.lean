import SceneScript.Proofs.SignedNumber

/-!
# The height of programs that are read

A level of nesting has more than one node on the way down: a minus and an operator belong to the
level of their operands, and operators of one binding are read one after the other into a tree that
leans to the left.  So the limit on nesting bounds the height of what is read just as far as the
operators in one level are bounded, and these are as many as the source has.
-/

namespace SceneScript

namespace Expr

/-! ## Operators in a level -/

/-- The most operators on a way down that stays in the level. -/
def chained : Expr → Nat
  | .binary left _ right => 1 + max left.chained right.chained
  | .negate operand => operand.chained
  | _ => 0

mutual

/-- The most operators on a way down that stays in one level, in the level of the expression or in
one inside it. -/
def longestChain : Expr → Nat
  | .number _ | .color _ | .text _ | .identifier _ => 0
  | .rgb r g b => max r.longestChain (max g.longestChain b.longestChain)
  | .vector x y z => max x.longestChain (max y.longestChain z.longestChain)
  | .texture path => path.longestChain
  | .solid _ args => longestChains args
  | .paren inner => inner.longestChain
  | .negate operand => operand.longestChain
  | .binary left op right =>
    max (Expr.binary left op right).chained (max left.longestChain right.longestChain)

/-- The longest chain of any of some expressions. -/
def longestChains : List Expr → Nat
  | [] => 0
  | e :: es => max e.longestChain (longestChains es)

end

theorem chained_le_longestChain : ∀ e : Expr, e.chained ≤ e.longestChain
  | .binary .. => Nat.le_max_left ..
  | .negate operand => chained_le_longestChain operand
  | .number _ | .color _ | .text _ | .identifier _ | .rgb .. | .vector .. | .texture _ | .solid ..
  | .paren _ => Nat.zero_le _

/-! ## A chain is as high as it is long -/

theorem chained_lt_height : ∀ e : Expr, e.chained < e.height
  | .binary left _ right => by
    have hleft := chained_lt_height left
    have hright := chained_lt_height right
    simp only [chained, height]
    omega
  | .negate operand => Nat.lt_add_left 1 (chained_lt_height operand)
  | .number _ | .color _ | .text _ | .identifier _ | .rgb .. | .vector .. | .texture _ | .solid ..
  | .paren _ => by simp only [chained, height]; omega

mutual

theorem longestChain_lt_height : ∀ e : Expr, e.longestChain < e.height
  | .number _ | .color _ | .text _ | .identifier _ => Nat.one_pos
  | .rgb x y z | .vector x y z => by
    have hx := longestChain_lt_height x
    have hy := longestChain_lt_height y
    have hz := longestChain_lt_height z
    simp only [longestChain, height]
    omega
  | .texture e | .paren e | .negate e => Nat.lt_add_left 1 (longestChain_lt_height e)
  | .solid _ args => by
    have hargs := longestChains_le_heights args
    simp only [longestChain, height]
    omega
  | .binary left op right => by
    have hchained := chained_lt_height (.binary left op right)
    have hleft := longestChain_lt_height left
    have hright := longestChain_lt_height right
    simp only [longestChain, height] at hchained ⊢
    omega

theorem longestChains_le_heights : ∀ es : List Expr, longestChains es ≤ heights es
  | [] => Nat.le_refl _
  | e :: es => by
    have he := longestChain_lt_height e
    have hes := longestChains_le_heights es
    simp only [longestChains, heights]
    omega

end

/-! ## The height of a level -/

/-- The number of nodes on the longest way down that stays in the level. -/
def levelHeight : Expr → Nat
  | .binary left _ right => 1 + max left.levelHeight right.levelHeight
  | .negate operand => 1 + operand.levelHeight
  | _ => 1

theorem levelHeight_eq_one {e : Expr} (hnegated : ¬e.IsNegated) (hbinary : ¬e.IsBinary) :
    e.levelHeight = 1 := by
  cases e with
  | negate _ => exact absurd trivial hnegated
  | binary _ _ _ => exact absurd trivial hbinary
  | _ => rfl

/-- Below the operators there is at most a minus and a value. -/
theorem levelHeight_le : ∀ e : Expr, e.WellFormed → e.levelHeight ≤ e.chained + 2
  | .binary left _ right, ⟨hleft, hright, _⟩ => by
    have hl := levelHeight_le left hleft
    have hr := levelHeight_le right hright
    simp only [levelHeight, chained]
    omega
  | .negate operand, ⟨_, hnegated, hbinary⟩ => by
    rw [levelHeight, levelHeight_eq_one hnegated hbinary]
    exact Nat.le_add_left ..
  | .number _, _ | .color _, _ | .text _, _ | .identifier _, _ | .rgb .., _ | .vector .., _
  | .texture _, _ | .solid .., _ | .paren _, _ => Nat.le_succ 1

/-! ## The height of an expression -/

variable {longest levels : Nat}

/-- A well-formed expression with at most so many levels inside it and no longer chain in any. -/
structure Within (longest levels : Nat) (e : Expr) : Prop where
  wellFormed : e.WellFormed
  longestChain_le : e.longestChain ≤ longest
  innerDepth_le : e.innerDepth ≤ levels

/-- A level has the operators, a minus and a value. -/
theorem Within.height_le_mul {e : Expr} (h : e.Within longest levels)
    (hheight : e.height ≤ e.levelHeight + levels * (longest + 2)) :
    e.height ≤ (levels + 1) * (longest + 2) := by
  have hlevel := e.levelHeight_le h.wellFormed
  have hchained := e.chained_le_longestChain
  have hlongest := h.longestChain_le
  rw [Nat.succ_mul]
  omega

mutual

theorem height_le : ∀ (e : Expr) (levels : Nat), e.Within longest levels →
    e.height ≤ e.levelHeight + levels * (longest + 2)
  | .number _, _, _ | .color _, _, _ | .text _, _, _ | .identifier _, _, _ => Nat.le_add_right ..
  | .rgb x y z, 0, h | .vector x y z, 0, h => absurd h.innerDepth_le (by simp [innerDepth])
  | .rgb x y z, levels + 1, ⟨⟨hx, hy, hz⟩, hlongest, hinner⟩
  | .vector x y z, levels + 1, ⟨⟨hx, hy, hz⟩, hlongest, hinner⟩ => by
    simp only [longestChain, innerDepth] at hlongest hinner
    have hx : x.Within longest levels := ⟨hx, by omega, by omega⟩
    have hy : y.Within longest levels := ⟨hy, by omega, by omega⟩
    have hz : z.Within longest levels := ⟨hz, by omega, by omega⟩
    have hx := hx.height_le_mul (height_le x levels hx)
    have hy := hy.height_le_mul (height_le y levels hy)
    have hz := hz.height_le_mul (height_le z levels hz)
    simp only [height, levelHeight]
    omega
  | .texture inner, 0, h | .paren inner, 0, h => absurd h.innerDepth_le (by simp [innerDepth])
  | .texture inner, levels + 1, ⟨hwell, hlongest, hinner⟩
  | .paren inner, levels + 1, ⟨hwell, hlongest, hinner⟩ => by
    simp only [innerDepth] at hinner
    -- one level for the node, and the rest for what is inside
    have hwithin : inner.Within longest levels := ⟨hwell, hlongest, by omega⟩
    exact Nat.add_le_add_left (hwithin.height_le_mul (height_le inner levels hwithin)) 1
  | .solid _ args, 0, h => absurd h.innerDepth_le (by simp [innerDepth])
  | .solid _ args, levels + 1, ⟨hwell, hlongest, hinner⟩ => by
    simp only [innerDepth] at hinner
    exact Nat.add_le_add_left (heights_le args levels hwell hlongest (by omega)) 1
  | .negate operand, levels, ⟨⟨hwell, _⟩, hlongest, hinner⟩ => by
    have hoperand := height_le operand levels ⟨hwell, hlongest, hinner⟩
    simp only [height, levelHeight]
    omega
  | .binary left _ right, levels, ⟨⟨hleft, hright, _⟩, hlongest, hinner⟩ => by
    simp only [longestChain, innerDepth] at hlongest hinner
    have hl := height_le left levels ⟨hleft, by omega, by omega⟩
    have hr := height_le right levels ⟨hright, by omega, by omega⟩
    simp only [height, levelHeight]
    omega

theorem heights_le : ∀ (es : List Expr) (levels : Nat), AllWellFormed es →
    longestChains es ≤ longest → innerDepths es ≤ levels →
      heights es ≤ (levels + 1) * (longest + 2)
  | [], _, _, _, _ => Nat.zero_le _
  | e :: es, levels, ⟨he, hes⟩, hlongest, hinner => by
    simp only [longestChains, innerDepths] at hlongest hinner
    have hwithin : e.Within longest levels := ⟨he, by omega, by omega⟩
    have he := hwithin.height_le_mul (height_le e levels hwithin)
    have hes := heights_le es levels hes (by omega) (by omega)
    exact Nat.max_le.2 ⟨he, hes⟩

end

theorem height_le_of_depth_le {e : Expr} (hwell : e.WellFormed)
    (hlongest : e.longestChain ≤ longest) (hdepth : e.depth ≤ levels) :
    e.height ≤ levels * (longest + 2) := by
  cases levels with
  | zero => exact absurd hdepth (by simp [depth])
  | succ levels =>
    have hwithin : e.Within longest levels := ⟨hwell, hlongest, by rw [depth] at hdepth; omega⟩
    exact hwithin.height_le_mul (height_le e levels hwithin)

theorem heights_le_of_argumentDepth_le {es : List Expr} (hwell : AllWellFormed es)
    (hlongest : longestChains es ≤ longest) (hdepth : argumentDepth es ≤ levels) :
    heights es ≤ levels * (longest + 2) := by
  cases levels with
  | zero => exact absurd hdepth (by simp [argumentDepth])
  | succ levels =>
    exact heights_le es levels hwell hlongest (by rw [argumentDepth] at hdepth; omega)

/-- The comparison of a condition is in no level of its own. -/
theorem height_le_of_conditionDepth_le {e : Expr} (hwell : e.WellFormedCondition)
    (hlongest : e.longestChain ≤ longest) (hdepth : e.conditionDepth ≤ levels) :
    e.height ≤ 1 + levels * (longest + 2) := by
  cases e with
  | binary left op right =>
    rw [conditionDepth] at hdepth
    split at hdepth
    · rename_i hcomparison
      obtain ⟨hleft, hright⟩ : left.WellFormed ∧ right.WellFormed := by
        rcases hwell with ⟨_, hsides⟩ | ⟨hleft, hright, _⟩
        · exact hsides
        · exact ⟨hleft, hright⟩
      simp only [longestChain] at hlongest
      have hl : left.height ≤ levels * (longest + 2) :=
        height_le_of_depth_le hleft (by omega) (by omega)
      have hr : right.height ≤ levels * (longest + 2) :=
        height_le_of_depth_le hright (by omega) (by omega)
      exact Nat.add_le_add_left (Nat.max_le.2 ⟨hl, hr⟩) 1
    · rename_i hother
      have hwell : (Expr.binary left op right).WellFormed :=
        hwell.resolve_left fun hcomparison => hother hcomparison.1
      exact Nat.le_add_left_of_le (height_le_of_depth_le hwell hlongest hdepth)
  | _ => exact Nat.le_add_left_of_le (height_le_of_depth_le hwell hlongest hdepth)

end Expr

namespace Statement

/-! ## Statements -/

mutual

/-- The most operators on a way down that stays in one level, in any expression of a statement. -/
def longestChain : Statement → Nat
  | .assignment _ _ value => value.longestChain
  | .transformation _ x y z body =>
    max (max x.longestChain (max y.longestChain z.longestChain)) body.longestChain
  | .definition _ _ body => longestChains body
  | .call _ args => Expr.longestChains args
  | .conditional condition body => max condition.longestChain (longestChains body)
  | .loop condition body => max condition.longestChain (longestChains body)
  | .block body => longestChains body
  | .command _ args => Expr.longestChains args
  | .light args => Expr.longestChains args
  | .camera value => value.longestChain

/-- The longest chain of any of some statements. -/
def longestChains : List Statement → Nat
  | [] => 0
  | s :: ss => max s.longestChain (longestChains ss)

end

mutual

theorem longestChain_lt_height : ∀ s : Statement, s.longestChain < s.height
  | .assignment _ _ value | .camera value => Nat.lt_add_left 1 value.longestChain_lt_height
  | .transformation _ x y z body => by
    have hx := x.longestChain_lt_height
    have hy := y.longestChain_lt_height
    have hz := z.longestChain_lt_height
    have hbody := longestChain_lt_height body
    simp only [longestChain, height]
    omega
  | .definition _ _ body | .block body => by
    have hbody := longestChains_le_heights body
    simp only [longestChain, height]
    omega
  | .conditional condition body | .loop condition body => by
    have hcondition := condition.longestChain_lt_height
    have hbody := longestChains_le_heights body
    simp only [longestChain, height]
    omega
  | .call _ args | .command _ args | .light args => by
    have hargs := Expr.longestChains_le_heights args
    simp only [longestChain, height]
    omega

theorem longestChains_le_heights : ∀ ss : List Statement, longestChains ss ≤ heights ss
  | [] => Nat.le_refl _
  | s :: ss => by
    have hs := longestChain_lt_height s
    have hss := longestChains_le_heights ss
    simp only [longestChains, heights]
    omega

end

variable {longest : Nat}

mutual

theorem height_le : ∀ (s : Statement) (levels : Nat), s.WellFormed → s.longestChain ≤ longest →
    s.depth ≤ levels → s.height ≤ levels * (longest + 2)
  | s, 0, _, _, hdepth => absurd hdepth (by cases s <;> simp [depth])
  | .assignment _ _ value, levels + 1, ⟨_, hwell⟩, hlongest, hdepth
  | .camera value, levels + 1, hwell, hlongest, hdepth => by
    simp only [longestChain, depth, height, Nat.succ_mul] at *
    have hvalue : value.height ≤ levels * (longest + 2) :=
      Expr.height_le_of_depth_le hwell hlongest (by omega)
    omega
  | .transformation _ x y z body, levels + 1, ⟨hx, hy, hz, hbody⟩, hlongest, hdepth => by
    simp only [longestChain, depth, height, Nat.succ_mul] at *
    have hx : x.height ≤ levels * (longest + 2) :=
      Expr.height_le_of_depth_le hx (by omega) (by omega)
    have hy : y.height ≤ levels * (longest + 2) :=
      Expr.height_le_of_depth_le hy (by omega) (by omega)
    have hz : z.height ≤ levels * (longest + 2) :=
      Expr.height_le_of_depth_le hz (by omega) (by omega)
    have hbody := height_le body levels hbody (by omega) (by omega)
    omega
  | .definition _ _ body, levels + 1, ⟨_, _, hwell⟩, hlongest, hdepth
  | .block body, levels + 1, hwell, hlongest, hdepth => by
    simp only [longestChain, depth, height, Nat.succ_mul] at *
    have hbody := heights_le body levels hwell hlongest (by omega)
    omega
  | .conditional condition body, levels + 1, ⟨hcondition, hwell⟩, hlongest, hdepth
  | .loop condition body, levels + 1, ⟨hcondition, hwell⟩, hlongest, hdepth => by
    simp only [longestChain, depth, height, Nat.succ_mul] at *
    have hcondition : condition.height ≤ 1 + levels * (longest + 2) :=
      Expr.height_le_of_conditionDepth_le hcondition (by omega) (by omega)
    have hbody := heights_le body levels hwell (by omega) (by omega)
    omega
  | .call _ args, levels + 1, ⟨_, hwell⟩, hlongest, hdepth
  | .command _ args, levels + 1, hwell, hlongest, hdepth
  | .light args, levels + 1, hwell, hlongest, hdepth => by
    simp only [longestChain, depth, height, Nat.succ_mul] at *
    have hargs : Expr.heights args ≤ levels * (longest + 2) :=
      Expr.heights_le_of_argumentDepth_le hwell hlongest (by omega)
    omega

theorem heights_le : ∀ (ss : List Statement) (levels : Nat), AllWellFormed ss →
    longestChains ss ≤ longest → bodyDepth ss ≤ levels → heights ss ≤ levels * (longest + 2)
  | [], _, _, _, _ => Nat.zero_le _
  | s :: ss, levels, ⟨hs, hss⟩, hlongest, hdepth => by
    simp only [longestChains, bodyDepth] at hlongest hdepth
    have hs := height_le s levels hs (by omega) (by omega)
    have hss := heights_le ss levels hss (by omega) (by omega)
    exact Nat.max_le.2 ⟨hs, hss⟩

end

end Statement

/-! ## Programs -/

/-- The most operators on a way down that stays in one level, in any expression of a program. -/
def Program.longestChain (p : Program) : Nat := Statement.longestChains p.statements

/-- A program that is read is higher than its longest chain of operators, and the limit on nesting
bounds how often there is a chain, a minus and a value on a way down.  So the height is bounded just
as far as the chains are. -/
theorem height_of_parse (source : String) (p : Program) (h : parse source = .ok p) :
    p.longestChain < p.height ∧ p.height ≤ 1 + Parser.nestingLimit * (p.longestChain + 2) := by
  obtain ⟨_, _, _, hwell, hdepth⟩ := Parser.isProgram_of_parse h
  have hlower := Statement.longestChains_le_heights p.statements
  have hupper : Statement.heights p.statements ≤ Parser.nestingLimit * (p.longestChain + 2) :=
    Statement.heights_le p.statements Parser.nestingLimit hwell (Nat.le_refl _) hdepth
  simp only [Program.longestChain, Program.height] at hupper ⊢
  omega

/-- The sum of so many ones and one more, added up from the left. -/
def sumOfOnes : Nat → Expr
  | 0 => .number (Numeral.mk ['1'] []).value
  | n + 1 => .binary (sumOfOnes n) .add (.number (Numeral.mk ['1'] []).value)

/-- Two operators in one level, and that is two nodes. -/
theorem height_of_parsed_sum :
    parse "x = 1 + 1 + 1" = .ok (Program.assigning (sumOfOnes 2))
      ∧ (Program.assigning (sumOfOnes 2)).longestChain = 2
      ∧ (Program.assigning (sumOfOnes 2)).height = 5
      ∧ 2 < (Program.assigning (sumOfOnes 2)).height
      ∧ (Program.assigning (sumOfOnes 2)).height ≤ 1 + 100 * (2 + 2) := by
  have hparse : parse "x = 1 + 1 + 1" = .ok (Program.assigning (sumOfOnes 2)) :=
    eq_ok_of_toOption (by decide +kernel)
  exact ⟨hparse, rfl, rfl, height_of_parse _ _ hparse⟩

theorem wellFormed_sumOfOnes (n : Nat) : (sumOfOnes n).WellFormed := by
  have hone : (Numeral.mk ['1'] []).value.IsUnsigned := ⟨by decide +kernel, by decide +kernel⟩
  induction n with
  | zero => exact hone
  | succ n ih => exact ⟨ih, hone, .inl ⟨rfl, id⟩⟩

/-- However many the summands, there is no level inside the sum. -/
theorem innerDepth_sumOfOnes (n : Nat) : (sumOfOnes n).innerDepth = 0 := by
  induction n with
  | zero => rfl
  | succ n ih => rw [sumOfOnes, Expr.innerDepth, ih]; rfl

theorem height_sumOfOnes (n : Nat) : (sumOfOnes n).height = n + 1 := by
  induction n with
  | zero => rfl
  | succ n ih => rw [sumOfOnes, Expr.height, ih, Expr.height]; omega

/-- There is no bound on the height of all programs that are read: a sum can be as long as one
likes. -/
theorem height_unbounded :
    ¬∃ bound, ∀ source p, parse source = .ok p → p.height ≤ bound := by
  rintro ⟨bound, hbound⟩
  have hparse := Program.parse_source_assigning (wellFormed_sumOfOnes bound)
    (by rw [innerDepth_sumOfOnes]; exact Nat.zero_le 2)
  have hheight := hbound _ _ hparse
  simp only [Program.height, Program.assigning, Statement.heights, Statement.height,
    height_sumOfOnes] at hheight
  omega

end SceneScript
