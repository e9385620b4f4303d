import SceneScript.Proofs.Parser.ExpressionComplete
import SceneScript.Proofs.Parser.StatementParses

/-!
# Every statement of the grammar is parsed

No two statements share their tokens in the way arguments may, so a statement is read up to its own
end.  The form that its first word leads is the one it has, unless the word is a name.
-/

namespace SceneScript.Parser

open Rule Grammar Cursor

variable {levels : Nat} {statement : Rule Statement} {expression : Rule Expr} {ts k : List Token}

/-- The rule parses all statements of the grammar, one or many, or gives up on their depth. -/
structure CompleteStatement (x : Rule Statement) : Prop where
  statement : ∀ ts st, IsStatement ts st → ParsesStatement True x ts fun _ => True
  body : ∀ ts ss, IsBody ts ss → ParsesBody True x ts fun _ => True

/-! ## Words that start statements -/

theorem leadingWord_of_isStatement {st : Statement} (h : IsStatement ts st) :
    ∃ t us word, ts = t :: us ∧ t.word? = some word := by
  cases h with
  | @assignment isLocal t us name e hname hsum =>
    cases isLocal with
    | true => exact ⟨_, _, _, rfl, rfl⟩
    | false => exact ⟨_, _, _, rfl, hname.word?⟩
  | _ => exact ⟨_, _, _, rfl, rfl⟩

/-- A body starts with a word if it is not empty. -/
theorem bounds_append_of_isBody {us : List Token} {ss : List Statement} (h : IsBody us ss)
    (hk : Bounds k) : Bounds (us ++ k) := by
  cases h with
  | nil => exact hk
  | cons hstatement _ =>
    obtain ⟨t, rest, word, rfl, ht⟩ := leadingWord_of_isStatement hstatement
    exact bounds_of_word? ht

theorem advances_level (levels : Nat) : Advances (level .nothing levels).statement :=
  (within_level levels).yields.advances fun _ _ h => isStatement_ne_nil h.isStatement

theorem body_complete (hstays : Stays statement) (hadv : Advances statement)
    (hfails : ∀ k, NoStatement k → Fails True statement (Facing k))
    (h : ∀ ts st, IsStatement ts st → ParsesStatement True statement ts fun _ => True) :
    ∀ ts ss, IsBody ts ss → ParsesBody True statement ts fun _ => True := by
  intro ts ss hbody
  induction ss generalizing ts with
  | nil =>
    cases hbody
    intro k hk hbounds
    exact (body_parses_nil hstays hfails k hk hbounds).mono fun vs us hvs => ⟨trivial, hvs.2⟩
  | cons st ss ih =>
    cases hbody with
    | cons hfirst hmore =>
      have hcons := body_parses_cons hadv (fun k => bounds_append_of_isBody hmore) (h _ _ hfirst)
        (ih _ hmore)
      intro k hk hbounds
      exact (hcons k hk hbounds).mono fun vs us hvs => ⟨trivial, hvs.2⟩

/-! ## All forms -/

theorem condition_complete (hx : Complete expression) {cs : List Token} {c : Expr}
    (h : IsCondition cs c) : ParsesCondition True expression cs fun _ => True := by
  cases h with
  | plain hsum => exact condition_parses_plain (hx.sum _ _ hsum)
  | compared op hop hleft hright =>
    have hcomp : op.isComparison = true := by
      rw [Operator.isComparison, hop]
      rfl
    intro t w k ht
    have hparse := condition_parses_compared hcomp (hx.sum _ _ hleft) (hx.sum _ _ hright) t w k ht
    exact hparse.mono fun v us hv => ⟨trivial, hv.2⟩

theorem anyStatement_complete (hs : CompleteStatement statement) (hx : Complete expression)
    (hstays : Stays statement) (hstatement : ∀ ts, Fails True statement (Facing (equals :: ts)))
    (hexpression : ∀ ts, Fails True expression (Facing (equals :: ts)))
    {st : Statement} (h : IsStatement ts st) (hk : Bounds k) :
    Parses True (anyStatement statement expression) (AtTokens (ts ++ k)) fun _ us => us = k := by
  -- what is left behind a statement is all that counts here, not the tree
  have hread : ∀ {P : Statement → Prop} v us, P v ∧ us = k → us = k := fun _ _ hv => hv.2
  cases h with
  | camera hsum =>
    have hparse := (camera_parses (k := k) (hx.sum _ _ hsum)).mono hread
    simpa using anyStatement_parses hparse.settled.orElse
  | light hargs =>
    have hparse := (light_parses (k := k) (hx.arguments _ _ hargs)).mono hread
    simpa using anyStatement_parses hparse.settled.orElse
  | block hbody =>
    have hparse := (block_parses (hs.body _ _ hbody) hk).mono hread
    simpa using anyStatement_parses hparse.settled.orElse
  | conditional hc hbody =>
    have hparse := (conditional_parses (condition_complete hx hc) (hs.body _ _ hbody) hk).mono hread
    simpa using anyStatement_parses hparse.settled.orElse
  | loop hc hbody =>
    have hparse := (loop_parses (condition_complete hx hc) (hs.body _ _ hbody) hk).mono hread
    simpa using anyStatement_parses hparse.settled.orElse
  | call hname hargs =>
    have hparse := (call_parses (k := k) hname (hx.arguments _ _ hargs)).mono hread
    simpa using anyStatement_parses hparse.settled.orElse
  | definition hname hparams hbody =>
    have hparse := (definition_parses hname hparams (hs.body _ _ hbody) hk).mono hread
    simpa using anyStatement_parses hparse.settled.orElse
  | command name hargs =>
    have hparse := (command_parses (k := k) name (hx.arguments _ _ hargs)).mono hread
    simpa using anyStatement_parses_command name hparse
  | assignment isLocal hname hsum =>
    have hparse := (assignment_parses isLocal hname (hx.sum _ _ hsum) hk).mono hread
    simpa using anyStatement_parses_assignment isLocal hname hstays (hstatement _) (hexpression _)
      hparse
  | transformation kind hfirst hsecond hthird hbody =>
    have hparse := (transformation_parses kind (hx.sum _ _ hfirst) (hx.sum _ _ hsecond)
      (hx.sum _ _ hthird) (hs.statement _ _ hbody) hk).mono hread
    simpa using anyStatement_parses_transformation kind hparse

/-! ## All levels -/

theorem fails_level_statement (levels : Nat) (h : NoStatement ts) :
    Fails True (level .nothing levels).statement (Facing ts) := by
  cases levels with
  | zero => exact fun s _ => .inr ⟨trivial, s.cursor.afterTrivia, rfl⟩
  | succ levels => exact (fails_anyStatement h).behind

theorem fails_level_expression (levels : Nat) {t : Token} (h : Bars t) :
    Fails True (level .nothing levels).expression (Facing (t :: ts)) := by
  cases levels with
  | zero => exact fun s _ => .inr ⟨trivial, s.cursor.afterTrivia, rfl⟩
  | succ levels => exact (fails_sum h).settled.behind

theorem completeStatement_of {levels : Nat}
    (h : ∀ ts st, IsStatement ts st →
      ParsesStatement True (level .nothing levels).statement ts fun _ => True) :
    CompleteStatement (level .nothing levels).statement :=
  ⟨h, body_complete (within_level levels).stays (advances_level levels)
    (fun _ => fails_level_statement levels) h⟩

/-- The rule for statements of the parser that remembers nothing. -/
theorem completeStatement_level (levels : Nat) :
    CompleteStatement (level .nothing levels).statement := by
  induction levels with
  | zero =>
    exact completeStatement_of fun ts st _ k _ s _ => .inr ⟨trivial, s.cursor.afterTrivia, rfl⟩
  | succ levels ih =>
    refine completeStatement_of fun ts st h k hk => ?_
    have hparse := anyStatement_complete ih (complete_level levels) (within_level levels).stays
      (fun _ => fails_level_statement levels (.inl rfl))
      (fun _ => fails_level_expression levels (.inr rfl)) h hk
    exact hparse.behind.mono fun _ _ hus => ⟨trivial, hus⟩

end SceneScript.Parser
