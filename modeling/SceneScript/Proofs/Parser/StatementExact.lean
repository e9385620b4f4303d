import SceneScript.Proofs.Parser.ExpressionExact
import SceneScript.Proofs.Parser.StatementComplete

/-!
# The tokens of a statement are read as that statement

A well-formed statement that is not nested too deep is read from its own tokens if nothing behind
them goes on it, and so are statements one after the other.
-/

namespace SceneScript.Parser

open Rule Grammar Cursor

variable {levels : Nat} {statement : Rule Statement} {expression : Rule Expr} {k : List Token}

/-- The rule reads well-formed statements with so many levels from their tokens. -/
structure ExactStatement (levels : Nat) (x : Rule Statement) : Prop where
  statement : ∀ st : Statement, st.WellFormed → st.depth ≤ levels →
    ParsesStatement False x st.tokens (· = st)
  body : ∀ ss, Statement.AllWellFormed ss → Statement.bodyDepth ss ≤ levels →
    ParsesBody False x (Statement.tokensOfAll ss) (· = ss)

/-! ## Bodies -/

theorem leadingWord_tokens (st : Statement) :
    ∃ t us word, st.tokens = t :: us ∧ t.word? = some word := by
  cases st with
  | assignment isLocal name value =>
    cases isLocal with
    | true => exact ⟨_, _, _, rfl, rfl⟩
    | false => exact ⟨_, _, _, rfl, Token.word?_ofWord name⟩
  | _ => exact ⟨_, _, _, rfl, rfl⟩

theorem bounds_append_tokens (ss : List Statement) (hk : Bounds k) :
    Bounds (Statement.tokensOfAll ss ++ k) := by
  cases ss with
  | nil => exact hk
  | cons st ss =>
    obtain ⟨t, us, word, htokens, ht⟩ := leadingWord_tokens st
    rw [Statement.tokensOfAll, htokens]
    exact bounds_of_word? ht

theorem depth_pos (st : Statement) : 0 < st.depth := by
  cases st <;> (rw [Statement.depth]; omega)

theorem bodyDepth_pos (ss : List Statement) : 0 < Statement.bodyDepth ss := by
  cases ss with
  | nil => exact Nat.one_pos
  | cons st ss =>
    have hpos := depth_pos st
    rw [Statement.bodyDepth]
    omega

theorem depth_le_of_mem {ss : List Statement} {st : Statement} (h : st ∈ ss) :
    st.depth ≤ Statement.bodyDepth ss := by
  induction ss with
  | nil => cases h
  | cons st' ss ih =>
    rw [Statement.bodyDepth]
    rcases List.mem_cons.1 h with rfl | h
    · exact Nat.le_max_left _ _
    · exact Nat.le_trans (ih h) (Nat.le_max_right _ _)

theorem body_exact (hstays : Stays statement) (hadv : Advances statement)
    (hfails : ∀ k, NoStatement k → Fails False statement (Facing k)) {ss : List Statement}
    (h : ∀ st ∈ ss, ParsesStatement False statement st.tokens (· = st)) :
    ParsesBody False statement (Statement.tokensOfAll ss) (· = ss) := by
  induction ss with
  | nil => exact body_parses_nil hstays hfails
  | cons st ss ih =>
    have hmore := ih fun other hmem => h other (List.mem_cons_of_mem _ hmem)
    have hcons := body_parses_cons hadv (fun k => bounds_append_tokens ss)
      (h st (List.mem_cons_self ..)) hmore
    exact fun k hk hbounds => (hcons k hk hbounds).of_parts

/-! ## Parameters and conditions -/

theorem isParameters_tokens {params : List String}
    (h : ∀ param ∈ params, isReserved param = false) :
    IsParameters (parameterTokens params) params := by
  induction params with
  | nil => exact .nil
  | cons param params ih =>
    have hname := isName_ofWord (h param (List.mem_cons_self ..))
    have hmore := ih fun other hmem => h other (List.mem_cons_of_mem _ hmem)
    cases params with
    | nil => exact .cons hname .none hmore
    | cons other params =>
      have htokens : parameterTokens (param :: other :: params)
          = Token.ofWord param :: ([comma] ++ parameterTokens (other :: params)) := by
        simp [parameterTokens]
      rw [htokens]
      exact .cons hname .comma hmore

theorem condition_exact (hx : Exact levels expression) {c : Expr} (hwell : c.WellFormedCondition)
    (hdepth : c.conditionDepth ≤ levels) : ParsesCondition False expression c.tokens (· = c) := by
  by_cases hcompare : ∃ left op right, c = .binary left op right ∧ op.isComparison = true
  · obtain ⟨left, op, right, rfl, hop⟩ := hcompare
    have hsides : left.WellFormed ∧ right.WellFormed := by
      rcases hwell with ⟨_, hsides⟩ | ⟨hleft, hright, _⟩
      · exact hsides
      · exact ⟨hleft, hright⟩
    rw [Expr.conditionDepth, if_pos hop] at hdepth
    have hparse := condition_parses_compared hop (hx.sum left hsides.1 (by omega))
      (hx.sum right hsides.2 (by omega))
    exact fun t w k ht => (hparse t w k ht).of_parts
  · have hplain : c.WellFormed := by
      cases c with
      | binary left op right =>
        rcases hwell with ⟨hop, _⟩ | hwell
        · exact absurd ⟨left, op, right, rfl, hop⟩ hcompare
        · exact hwell
      | _ => exact hwell
    rw [conditionDepth_of_wellFormed hplain] at hdepth
    exact condition_parses_plain (hx.sum c hplain hdepth)

/-! ## All forms -/

theorem anyStatement_exact (hs : ExactStatement levels statement) (hx : Exact levels expression)
    (hstays : Stays statement)
    (hstatement : 0 < levels → ∀ ts, Fails False statement (Facing (equals :: ts)))
    (hexpression : 0 < levels → ∀ ts, Fails False expression (Facing (equals :: ts)))
    {st : Statement} (hwell : st.WellFormed) (hdepth : st.depth ≤ levels + 1) (hk : Bounds k) :
    Parses False (anyStatement statement expression) (AtTokens (st.tokens ++ k))
      fun v us => v = st ∧ us = k := by
  cases st with
  | camera value =>
    rw [Statement.depth] at hdepth
    have hparse := camera_parses (k := k) (hx.sum value hwell (by omega))
    simp only [Statement.tokens, List.cons_append, List.append_assoc, List.nil_append]
    exact anyStatement_parses hparse.of_part.settled.orElse
  | light args =>
    rw [Statement.depth] at hdepth
    have hparse := light_parses (k := k) (hx.arguments args hwell (by omega))
    simp only [Statement.tokens, List.cons_append, List.append_assoc, List.nil_append]
    exact anyStatement_parses hparse.of_part.settled.orElse
  | block body =>
    rw [Statement.depth] at hdepth
    have hparse := block_parses (hs.body body hwell (by omega)) hk
    simp only [Statement.tokens, List.cons_append, List.append_assoc, List.nil_append]
    exact anyStatement_parses hparse.of_part.settled.orElse
  | conditional condition body =>
    rw [Statement.depth] at hdepth
    have hparse := conditional_parses (condition_exact hx hwell.1 (by omega))
      (hs.body body hwell.2 (by omega)) hk
    simp only [Statement.tokens, List.cons_append, List.append_assoc, List.nil_append]
    exact anyStatement_parses hparse.of_parts.settled.orElse
  | loop condition body =>
    rw [Statement.depth] at hdepth
    have hparse := loop_parses (condition_exact hx hwell.1 (by omega))
      (hs.body body hwell.2 (by omega)) hk
    simp only [Statement.tokens, List.cons_append, List.append_assoc, List.nil_append]
    exact anyStatement_parses hparse.of_parts.settled.orElse
  | call name args =>
    rw [Statement.depth] at hdepth
    have hparse := call_parses (k := k) (isName_ofWord hwell.1.2)
      (hx.arguments args hwell.2 (by omega))
    simp only [Statement.tokens, List.cons_append, List.append_assoc, List.nil_append]
    exact anyStatement_parses hparse.of_part.settled.orElse
  | definition name params body =>
    rw [Statement.depth] at hdepth
    obtain ⟨hname, hparams, hbody⟩ := hwell
    have hparse := definition_parses (isName_ofWord hname.2)
      (isParameters_tokens fun param hmem => (hparams param hmem).2)
      (hs.body body hbody (by omega)) hk
    simp only [Statement.tokens, List.cons_append, List.append_assoc, List.nil_append]
    exact anyStatement_parses hparse.of_part.settled.orElse
  | command name args =>
    rw [Statement.depth] at hdepth
    have hparse := command_parses (k := k) name (hx.arguments args hwell (by omega))
    simp only [Statement.tokens, List.cons_append, List.append_assoc, List.nil_append]
    exact anyStatement_parses_command name hparse.of_part
  | assignment isLocal name value =>
    rw [Statement.depth, Expr.depth] at hdepth
    have hname := isName_ofWord hwell.1.2
    have hpos : 0 < levels := by omega
    have hparse := assignment_parses isLocal hname
      (hx.sum value hwell.2 (by rw [Expr.depth]; omega)) hk
    simp only [Statement.tokens, List.cons_append, List.append_assoc]
    exact anyStatement_parses_assignment isLocal hname hstays (hstatement hpos _)
      (hexpression hpos _) hparse.of_part
  | transformation kind x y z body =>
    rw [Statement.depth] at hdepth
    obtain ⟨hwellX, hwellY, hwellZ, hwellBody⟩ := hwell
    have hparse := transformation_parses kind (hx.sum x hwellX (by omega))
      (hx.sum y hwellY (by omega)) (hx.sum z hwellZ (by omega))
      (hs.statement body hwellBody (by omega)) hk
    simp only [Statement.tokens, List.cons_append, List.append_assoc]
    refine anyStatement_parses_transformation kind (hparse.mono ?_)
    rintro v us ⟨⟨_, _, _, _, rfl, rfl, rfl, rfl, rfl⟩, hus⟩
    exact ⟨rfl, hus⟩

/-! ## All levels -/

/-- The rule for statements of the parser that remembers nothing. -/
theorem exactStatement_level (levels : Nat) :
    ExactStatement levels (level .nothing levels).statement := by
  induction levels with
  | zero =>
    refine ⟨fun st _ h => ?_, fun ss _ h => ?_⟩
    · -- every statement takes a level
      have hpos := depth_pos st
      omega
    · have hpos := bodyDepth_pos ss
      omega
  | succ levels ih =>
    have hfails : ∀ k, NoStatement k →
        Fails False (level .nothing (levels + 1)).statement (Facing k) :=
      fun k hk => (fails_anyStatement hk).behind
    have hsucc : ∀ st : Statement, st.WellFormed → st.depth ≤ levels + 1 →
        ParsesStatement False (level .nothing (levels + 1)).statement st.tokens (· = st) := by
      intro st hwell hdepth k hk
      refine (anyStatement_exact ih (exact_level levels) (within_level levels).stays ?_ ?_ hwell
        hdepth hk).behind
      · intro hpos ts
        obtain ⟨n, rfl⟩ := Nat.exists_eq_add_one.2 hpos
        exact (fails_anyStatement (.inl rfl)).behind
      · intro hpos ts
        obtain ⟨n, rfl⟩ := Nat.exists_eq_add_one.2 hpos
        exact (fails_sum (.inr rfl)).settled.behind
    refine ⟨hsucc, fun ss hwell hdepth => ?_⟩
    refine body_exact (within_level (levels + 1)).stays (advances_level (levels + 1)) hfails ?_
    intro st hmem
    exact hsucc st (Statement.allWellFormed_iff.1 hwell st hmem)
      (Nat.le_trans (depth_le_of_mem hmem) hdepth)

end SceneScript.Parser
