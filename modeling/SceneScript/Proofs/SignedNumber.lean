import SceneScript.Program.Depth
import SceneScript.Proofs.RoundTrip
import SceneScript.Proofs.Source.Grouped

/-!
# Signed numbers in source

A literal has no sign, so a number below zero is written as a minus and a literal, and a minus
before it needs parentheses.  With them every finite number is read back, and so is every number
with a minus before it, except the zero with a sign: it is written as a literal although it begins
with a minus.
-/

namespace SceneScript

/-- The program that assigns an expression to a variable. -/
def Program.assigning (e : Expr) : Program := ⟨[.assignment false "x" e]⟩

namespace Binary64

/-- The zero with a sign. -/
def negativeZero : Binary64 := zero.negate

theorem eq_zero_or_eq_negativeZero {x : Binary64} (h : x.isZero = true) :
    x = zero ∨ x = negativeZero := by
  cases x with
  | finite negative place =>
    have hplace : place = ⟨0, by decide⟩ := Fin.ext (by simpa [isZero] using h)
    subst hplace
    cases negative
    · exact .inl rfl
    · exact .inr rfl
  | infinite negative => cases h
  | nan negative => cases h

theorem isWritable_of_ne {x : Binary64} (h : x.isFinite = true) (hne : x ≠ negativeZero) :
    x.IsWritable := by
  refine ⟨h, ?_⟩
  rintro ⟨hnegative, hzero⟩
  rcases eq_zero_or_eq_negativeZero hzero with rfl | rfl
  · cases hnegative
  · exact hne rfl

end Binary64

/-! ## The number that is read -/

namespace Expr

theorem signedNumber?_wrap (wanted : Bool) (e : Expr) :
    (wrap wanted e).signedNumber? = e.signedNumber? := by
  cases wanted <;> rfl

/-- The parentheses of canonical source do not change what number an expression is. -/
theorem signedNumber?_grouped : ∀ e : Expr, e.grouped.signedNumber? = e.signedNumber?
  | .number value => by
    rw [grouped, Binary64.grouped]
    split
    · rfl
    · simp [signedNumber?]
  | .paren inner => signedNumber?_grouped inner
  | .negate operand => by
    rw [grouped, signedNumber?, signedNumber?, signedNumber?_wrap, signedNumber?_grouped operand]
  | .color _ | .text _ | .identifier _ | .rgb .. | .vector .. | .texture _ | .solid .. => rfl
  | .binary .. => rfl

theorem innerDepth_wrap_le (wanted : Bool) (e : Expr) :
    (wrap wanted e).innerDepth ≤ 1 + e.innerDepth := by
  cases wanted
  · exact Nat.le_add_left _ _
  · exact Nat.le_refl _

theorem innerDepth_grouped_number_le (x : Binary64) : x.grouped.innerDepth ≤ 1 := by
  unfold Binary64.grouped
  split
  · exact Nat.zero_le _
  · exact Nat.le_refl _

end Expr

namespace Program

open SceneScript.Parser

variable {e : Expr} {x : Binary64}

/-- A well-formed expression that is not nested deep is read back. -/
theorem parse_source_assigning (h : e.WellFormed) (hdepth : e.innerDepth ≤ 2) :
    parse (assigning e).source = .ok (assigning e) := by
  have hname : IsValidName "x" := ⟨⟨'x', [], rfl, by decide, nofun⟩, by decide⟩
  have hwell : (assigning e).WellFormed := ⟨⟨hname, h⟩, trivial⟩
  have hlimit : (assigning e).depth ≤ nestingLimit := by
    simp only [assigning, depth, Statement.bodyDepth, Statement.depth, Expr.depth, nestingLimit]
    omega
  have hread := parseWith_of_tokens (spells hwell).ahead hwell hlimit
  rwa [← parseWith_tables] at hread

/-- A signed number that can be written down is read back, with parentheses. -/
theorem parse_source_assigning_grouped (h : e.Writable) (hdepth : e.grouped.innerDepth ≤ 2) :
    parse (assigning e).source = .ok (assigning e.grouped) := by
  have hsource : (assigning e.grouped).source = (assigning e).source := source_grouped (assigning e)
  rw [← hsource]
  exact parse_source_assigning (e.wellFormed_grouped h) hdepth

theorem exists_parse_number (h : x.isFinite = true) :
    ∃ e, parse (assigning (.number x)).source = .ok (assigning e) ∧ e.signedNumber? = some x := by
  by_cases hzero : x = Binary64.negativeZero
  · -- this one is written as the other zero is with a minus before it
    subst hzero
    have hsource : (assigning (.number Binary64.negativeZero)).source
        = (assigning (.negate (.number Binary64.zero))).source := by decide +kernel
    refine ⟨.negate (.number Binary64.zero), ?_, rfl⟩
    rw [hsource]
    exact parse_source_assigning ⟨⟨rfl, rfl⟩, id, id⟩ (Nat.zero_le _)
  · have hdepth := Expr.innerDepth_grouped_number_le x
    exact ⟨_, parse_source_assigning_grouped (Binary64.isWritable_of_ne h hzero)
      (Nat.le_succ_of_le hdepth), Expr.signedNumber?_grouped (.number x)⟩

theorem exists_parse_negate (h : x.isFinite = true) (hne : x ≠ Binary64.negativeZero) :
    ∃ e, parse (assigning (.negate (.number x))).source = .ok (assigning e)
      ∧ e.signedNumber? = some x.negate := by
  have hdepth : (Expr.negate (.number x)).grouped.innerDepth ≤ 2 := by
    have hwrap := Expr.innerDepth_wrap_le (Expr.number x).needsParensNegated x.grouped
    have hnumber := Expr.innerDepth_grouped_number_le x
    simp only [Expr.grouped, Expr.innerDepth]
    omega
  exact ⟨_, parse_source_assigning_grouped (e := .negate (.number x))
    (Binary64.isWritable_of_ne h hne) hdepth, Expr.signedNumber?_grouped (.negate (.number x))⟩

/-- Two signs in a row are no expression. -/
theorem not_parse_two_signs (p : Program) :
    parse (assigning (.negate (.number Binary64.negativeZero))).source ≠ .ok p := by
  obtain ⟨e, he, _⟩ : ∃ e, parse (assigning (.negate (.number Binary64.negativeZero))).source
      = .error e ∧ e.kind = .unexpected := exists_error_of_decide (by decide +kernel)
  rw [he]
  exact nofun

end Program

/-- Every finite number is read back from its canonical source with its sign, and with a minus
before it just if it is not the zero with a sign. -/
theorem parse_source_of_signed_number (x : Binary64) (h : x.isFinite = true) :
    (∃ e, parse (Program.assigning (.number x)).source = .ok (Program.assigning e)
        ∧ e.signedNumber? = some x)
      ∧ ((∃ e, parse (Program.assigning (.negate (.number x))).source = .ok (Program.assigning e)
        ∧ e.signedNumber? = some x.negate) ↔ x ≠ Binary64.negativeZero) := by
  refine ⟨Program.exists_parse_number h, ?_, Program.exists_parse_negate h⟩
  rintro ⟨e, hparse, _⟩ rfl
  exact Program.not_parse_two_signs _ hparse

/-- Below zero a number is written with parentheses, and behind a minus with two pairs of them. -/
theorem parse_source_of_signed_two :
    (Program.assigning (.number (Numeral.mk ['2'] []).value.negate)).source = "x = (-2)\n"
      ∧ (Program.assigning (.negate (.number (Numeral.mk ['2'] []).value.negate))).source
        = "x = -((-2))\n"
      ∧ (∃ e, parse (Program.assigning (.number (Numeral.mk ['2'] []).value.negate)).source
          = .ok (Program.assigning e)
        ∧ e.signedNumber? = some (Numeral.mk ['2'] []).value.negate)
      ∧ ∃ e, parse (Program.assigning (.negate (.number (Numeral.mk ['2'] []).value.negate))).source
          = .ok (Program.assigning e)
        ∧ e.signedNumber? = some (Numeral.mk ['2'] []).value.negate.negate := by
  obtain ⟨hnumber, hnegated⟩ :=
    parse_source_of_signed_number (Numeral.mk ['2'] []).value.negate (by decide +kernel)
  exact ⟨by decide +kernel, by decide +kernel, hnumber, hnegated.2 (by decide +kernel)⟩

/-- The zero with a sign and a minus before it is written with two signs in a row, and that is not
read. -/
theorem error_of_negated_negative_zero :
    Binary64.negativeZero.isFinite = true
      ∧ (Program.assigning (.negate (.number Binary64.negativeZero))).source = "x = --0\n"
      ∧ ∃ e, parse (Program.assigning (.negate (.number Binary64.negativeZero))).source = .error e
        ∧ e.kind = .unexpected ∧ e.position.offset = 5 :=
  ⟨rfl, by decide +kernel, exists_error_of_decide (by decide +kernel)⟩

end SceneScript
