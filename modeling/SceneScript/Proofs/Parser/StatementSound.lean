import SceneScript.Proofs.Parser.ExpressionSound

/-!
# Statements are read as the grammar has them

Each rule for statements yields statements of the grammar, well formed and not nested too deep, if
the rules for the statements and expressions inside do.
-/

namespace SceneScript.Parser

open Rule Grammar

/-- What a rule for statements reads. -/
structure ReadsStatement (levels : Nat) (ts : List Token) (st : Statement) : Prop where
  isStatement : IsStatement ts st
  wellFormed : st.WellFormed
  depth_le : st.depth ≤ levels

/-- The rule yields statements with so many levels at most, and none if that is zero. -/
structure Within (levels : Nat) (statement : Rule Statement) : Prop where
  yields : Yields statement (ReadsStatement levels)
  stays : Stays statement
  stops : levels = 0 → ∀ s, ∃ a, statement s = .aborted a

variable {levels : Nat} {statement : Rule Statement} {expression : Rule Expr}

/-! ## Bodies -/

/-- At the last level not even an empty body is found. -/
theorem pos_of_matched_body {s t : State} {body : List Statement} (h : Within levels statement)
    (hm : statement.many s = .matched body t) : 0 < levels := by
  rcases Nat.eq_zero_or_pos levels with hzero | hpos
  · obtain ⟨a, ha⟩ := h.stops hzero s
    rw [Rule.many, ha] at hm
    cases hm
  · exact hpos

/-- Statements that are read one after the other are a body, one level deeper than the deepest of
them. -/
theorem body_of_listed {ts : List Token} {body : List Statement} (hpos : 0 < levels)
    (h : Listed (ReadsStatement levels) ts body) :
    IsBody ts body ∧ Statement.AllWellFormed body ∧ Statement.bodyDepth body ≤ levels := by
  induction h with
  | nil => exact ⟨.nil, trivial, hpos⟩
  | cons hfirst _ ih =>
    obtain ⟨hbody, hall, hdepth⟩ := ih
    have hd := hfirst.depth_le
    refine ⟨.cons hfirst.isStatement hbody, ⟨hfirst.wellFormed, hall⟩, ?_⟩
    rw [Statement.bodyDepth]
    omega

/-- What stands between a head and its end is a body. -/
theorem body_sound (h : Within levels statement) : Yields statement.many fun ts body =>
    IsBody ts body ∧ Statement.AllWellFormed body ∧ Statement.bodyDepth body ≤ levels := by
  intro s body t hm
  obtain ⟨ts, hts, hlist⟩ := Yields.many h.yields h.stays _ _ _ hm
  exact ⟨ts, hts, body_of_listed (pos_of_matched_body h hm) hlist⟩

/-! ## Conditions -/

theorem wellFormedCondition_of_wellFormed {e : Expr} (h : e.WellFormed) :
    e.WellFormedCondition := by
  cases e <;> first | exact h | exact .inr h

/-- An expression that is no comparison has as many levels as a condition. -/
theorem conditionDepth_of_wellFormed {e : Expr} (h : e.WellFormed) :
    e.conditionDepth = e.depth := by
  cases e with
  | binary left op right =>
    obtain ⟨_, _, hop⟩ := h
    have hnot : op.isComparison = false := by
      rcases hop with ⟨hp, _⟩ | ⟨hp, _⟩ <;> simp [Operator.isComparison, hp]
    simp [Expr.conditionDepth, hnot]
  | _ => rfl

/-- A condition is a sum, or two of them with a comparison between. -/
theorem condition_sound (h : Inside levels expression) : Yields (condition expression)
    fun ts e => IsCondition ts e ∧ e.WellFormedCondition ∧ e.conditionDepth ≤ levels := by
  intro s e t hm
  obtain ⟨left, u, hleft, hm⟩ := matched_bind hm
  obtain ⟨ls, hls, hsum, hwell, hdepth⟩ := h.yields _ _ _ hleft
  rcases matched_orElse hm with hm | ⟨w, _, hm⟩
  · obtain ⟨op, w, hop, hm⟩ := matched_bind hm
    obtain ⟨right, w', hright, hm⟩ := matched_bind hm
    obtain ⟨rfl, rfl⟩ := matched_pure hm
    obtain ⟨_, hops, rfl, hmem⟩ := yields_operator _ _ _ _ hop
    obtain ⟨rs, hrs, hsum', hwell', hdepth'⟩ := h.yields _ _ _ hright
    have hcompare : ∀ op ∈ [Operator.lessThan, Operator.greaterThan], op.precedence = 1 := by decide
    have hprec := hcompare op hmem
    have hcomp : op.isComparison = true := by rw [Operator.isComparison, hprec]; rfl
    refine ⟨_, hls.trans (hops.trans hrs), .compared op hprec hsum hsum',
      .inl ⟨hcomp, hwell, hwell'⟩, ?_⟩
    rw [Expr.conditionDepth, if_pos hcomp]
    omega
  · obtain ⟨rfl, hu⟩ := matched_pure hm
    rw [← hu]
    refine ⟨ls, hls, .plain hsum, wellFormedCondition_of_wellFormed hwell, ?_⟩
    rw [conditionDepth_of_wellFormed hwell]
    exact hdepth

/-! ## Statements that start with a keyword -/

theorem camera_sound (h : Inside levels expression) :
    Yields (camera expression) (ReadsStatement (levels + 1)) := by
  intro s st t hm
  obtain ⟨_, s1, hset, hm⟩ := matched_bind hm
  obtain ⟨_, s2, hcamera, hm⟩ := matched_bind hm
  obtain ⟨_, s3, hopen, hm⟩ := matched_bind hm
  obtain ⟨view, s4, hview, hm⟩ := matched_bind hm
  obtain ⟨_, s5, hclose, hm⟩ := matched_bind hm
  obtain ⟨rfl, rfl⟩ := matched_pure hm
  obtain ⟨ts, hts, hsum, hwell, hdepth⟩ := h.yields _ _ _ hview
  have h1 := matched_keyword (by decide) hset
  have h2 := matched_dueKeyword (by decide) hcamera
  have h3 := matched_dueSymbol Cursor.isSymbol_leftParen hopen
  have h4 := matched_dueSymbol Cursor.isSymbol_rightParen hclose
  refine ⟨_, h1.trans (h2.trans (h3.trans (hts.trans h4))), .camera hsum, hwell, ?_⟩
  rw [Statement.depth]
  omega

theorem light_sound (h : Inside levels expression) :
    Yields (light expression) (ReadsStatement (levels + 1)) := by
  intro s st t hm
  obtain ⟨_, s1, happend, hm⟩ := matched_bind hm
  obtain ⟨_, s2, hlight, hm⟩ := matched_bind hm
  obtain ⟨args, s3, hargs, hm⟩ := matched_bind hm
  obtain ⟨rfl, rfl⟩ := matched_pure hm
  obtain ⟨_, hts, us, rfl, hisArgs, hwell, hdepth⟩ := arguments_sound h _ _ _ hargs
  have h1 := matched_keyword (by decide) happend
  have h2 := matched_dueKeyword (by decide) hlight
  refine ⟨_, h1.trans (h2.trans hts), .light hisArgs, hwell, ?_⟩
  rw [Statement.depth]
  omega

theorem block_sound (h : Within levels statement) :
    Yields (block statement) (ReadsStatement (levels + 1)) := by
  intro s st t hm
  obtain ⟨opened, s1, hopen, hm⟩ := matched_bind hm
  obtain ⟨body, s2, hbody, hm⟩ := matched_bind hm
  obtain ⟨_, s3, hclose, hm⟩ := matched_bind hm
  obtain ⟨rfl, rfl⟩ := matched_pure hm
  obtain ⟨ts, hts, hisBody, hwell, hdepth⟩ := body_sound h _ _ _ hbody
  have h1 := (matched_opening (by decide) hopen).2
  have h2 := matched_closing hclose
  refine ⟨_, h1.trans (hts.trans h2), .block hisBody, hwell, ?_⟩
  rw [Statement.depth]
  omega

/-- A block that is read under a condition, which stands between two words. -/
def guarded (first second : String) (make : Expr → List Statement → Statement)
    (statement : Rule Statement) (expression : Rule Expr) : Rule Statement := do
  let opened ← opening first
  let test ← condition expression
  dueKeyword second
  let body ← statement.many
  closing first opened
  return make test body

/-- Conditionals and loops differ in two keywords and in what is made of the parts. -/
theorem conditional_eq_guarded :
    conditional statement expression = guarded "if" "then" .conditional statement expression := rfl

theorem loop_eq_guarded :
    loop statement expression = guarded "while" "do" .loop statement expression := rfl

/-- A guarded body is read whatever the two keywords are. -/
theorem guarded_sound {first second : String} {make : Expr → List Statement → Statement}
    (hfirst : Cursor.IsWord first) (hsecond : Cursor.IsWord second) (h : Within levels statement)
    (k : Inside levels expression) :
    Yields (guarded first second make statement expression) fun ts st => ∃ cs us test body,
      ts = Token.ofWord first :: (cs ++ Token.ofWord second :: (us ++ [Token.ofWord "end"])) ∧
      st = make test body ∧
      (IsCondition cs test ∧ test.WellFormedCondition ∧ test.conditionDepth ≤ levels) ∧
      IsBody us body ∧ Statement.AllWellFormed body ∧ Statement.bodyDepth body ≤ levels := by
  intro s st t hm
  obtain ⟨opened, s1, hopen, hm⟩ := matched_bind hm
  obtain ⟨test, s2, htest, hm⟩ := matched_bind hm
  obtain ⟨_, s3, hdue, hm⟩ := matched_bind hm
  obtain ⟨body, s4, hbody, hm⟩ := matched_bind hm
  obtain ⟨_, s5, hclose, hm⟩ := matched_bind hm
  obtain ⟨rfl, rfl⟩ := matched_pure hm
  obtain ⟨cs, hcs, hcond⟩ := condition_sound k _ _ _ htest
  obtain ⟨us, hus, hbody⟩ := body_sound h _ _ _ hbody
  have h1 := (matched_opening hfirst hopen).2
  have h2 := matched_dueKeyword hsecond hdue
  have h3 := matched_closing hclose
  exact ⟨_, h1.trans (hcs.trans (h2.trans (hus.trans h3))), cs, us, test, body, by simp, rfl,
    hcond, hbody⟩

theorem conditional_sound (h : Within levels statement) (k : Inside levels expression) :
    Yields (conditional statement expression) (ReadsStatement (levels + 1)) := by
  rw [conditional_eq_guarded]
  refine (guarded_sound (by decide) (by decide) h k).mono ?_
  rintro _ _ ⟨cs, us, test, body, rfl, rfl, ⟨hcond, hwell, hdepth⟩, hbody, hwells, hdepths⟩
  refine ⟨.conditional hcond hbody, ⟨hwell, hwells⟩, ?_⟩
  rw [Statement.depth]
  omega

theorem loop_sound (h : Within levels statement) (k : Inside levels expression) :
    Yields (loop statement expression) (ReadsStatement (levels + 1)) := by
  rw [loop_eq_guarded]
  refine (guarded_sound (by decide) (by decide) h k).mono ?_
  rintro _ _ ⟨cs, us, test, body, rfl, rfl, ⟨hcond, hwell, hdepth⟩, hbody, hwells, hdepths⟩
  refine ⟨.loop hcond hbody, ⟨hwell, hwells⟩, ?_⟩
  rw [Statement.depth]
  omega

theorem call_sound (h : Inside levels expression) :
    Yields (call expression) (ReadsStatement (levels + 1)) := by
  intro s st t hm
  obtain ⟨_, s1, hcall, hm⟩ := matched_bind hm
  obtain ⟨name, s2, hname, hm⟩ := matched_bind hm
  obtain ⟨args, s3, hargs, hm⟩ := matched_bind hm
  obtain ⟨rfl, rfl⟩ := matched_pure hm
  obtain ⟨hreads, hisName, hvalid⟩ := matched_dueName hname
  obtain ⟨_, hts, us, rfl, hisArgs, hwell, hdepth⟩ := arguments_sound h _ _ _ hargs
  have h1 := matched_keyword (by decide) hcall
  refine ⟨_, h1.trans (hreads.trans hts), .call hisName hisArgs, ⟨hvalid, hwell⟩, ?_⟩
  rw [Statement.depth]
  omega

theorem stays_dueName (what : Expectation) : Stays (dueName what) := by
  intro s t hm
  obtain ⟨u, _, hm⟩ := unmatched_orElse (unmatched_trivia_bind hm)
  split at hm
  · cases hm
  · cases hm
    exact Cursor.reads_afterTrivia s.cursor

theorem stays_parameter : Stays parameter := by
  intro s t hm
  rcases unmatched_bind hm with hm | ⟨name, u, _, hm⟩
  · exact stays_dueName _ s t hm
  · rcases unmatched_bind hm with hm | ⟨_, _, _, hm⟩
    · exact absurd hm (optionally_ne_unmatched _ _ _)
    · cases hm

theorem yields_parameter : Yields parameter fun ts name => ∃ tok sep, ts = tok :: sep ∧
    IsName tok name ∧ IsSeparator sep ∧ IsValidName name := by
  intro s v t hm
  obtain ⟨name, u, hname, hm⟩ := matched_bind hm
  obtain ⟨_, w, hcomma, hm⟩ := matched_bind hm
  obtain ⟨rfl, rfl⟩ := matched_pure hm
  obtain ⟨hreads, hisName, hvalid⟩ := matched_dueName hname
  obtain ⟨sep, hsep, hseparator⟩ := matched_optional_comma hcomma
  exact ⟨_, hreads.trans hsep, _, sep, rfl, hisName, hseparator, hvalid⟩

/-- Names that are read one after the other, with or without commas, are parameters. -/
theorem parameters_of_listed {ts : List Token} {names : List String}
    (h : Listed (fun ts name => ∃ tok sep, ts = tok :: sep ∧ IsName tok name ∧ IsSeparator sep ∧
      IsValidName name) ts names) :
    IsParameters ts names ∧ ∀ name ∈ names, IsValidName name := by
  induction h with
  | nil =>
    refine ⟨.nil, ?_⟩
    intro name hmem
    cases hmem
  | cons hfirst _ ih =>
    obtain ⟨tok, sep, rfl, hname, hsep, hvalid⟩ := hfirst
    refine ⟨.cons hname hsep ih.1, ?_⟩
    intro name hmem
    rcases List.mem_cons.1 hmem with rfl | hmem
    · exact hvalid
    · exact ih.2 name hmem

theorem definition_sound (h : Within levels statement) :
    Yields (definition statement) (ReadsStatement (levels + 1)) := by
  intro s st t hm
  obtain ⟨opened, s1, hopen, hm⟩ := matched_bind hm
  obtain ⟨name, s2, hname, hm⟩ := matched_bind hm
  obtain ⟨_, s3, hleft, hm⟩ := matched_bind hm
  obtain ⟨params, s4, hparams, hm⟩ := matched_bind hm
  obtain ⟨_, s5, hright, hm⟩ := matched_bind hm
  obtain ⟨body, s6, hbody, hm⟩ := matched_bind hm
  obtain ⟨_, s7, hclose, hm⟩ := matched_bind hm
  obtain ⟨rfl, rfl⟩ := matched_pure hm
  obtain ⟨hreads, hisName, hvalid⟩ := matched_dueName hname
  obtain ⟨ps, hps, hlist⟩ := Yields.many yields_parameter stays_parameter _ _ _ hparams
  obtain ⟨hisParams, hvalids⟩ := parameters_of_listed hlist
  obtain ⟨ts, hts, hisBody, hwell, hdepth⟩ := body_sound h _ _ _ hbody
  have h1 := (matched_opening (by decide) hopen).2
  have h2 := matched_dueSymbol Cursor.isSymbol_leftParen hleft
  have h3 := matched_dueSymbol Cursor.isSymbol_rightParen hright
  have h4 := matched_closing hclose
  refine ⟨_, h1.trans (hreads.trans (h2.trans (hps.trans (h3.trans (hts.trans h4))))),
    .definition hisName hisParams hisBody, ⟨hvalid, hvalids, hwell⟩, ?_⟩
  rw [Statement.depth]
  omega

theorem command_sound (h : Inside levels expression) :
    Yields (command expression) (ReadsStatement (levels + 1)) := by
  intro s st t hm
  obtain ⟨name, s1, hword, hm⟩ := matched_bind hm
  obtain ⟨args, s2, hargs, hm⟩ := matched_bind hm
  obtain ⟨rfl, rfl⟩ := matched_pure hm
  obtain ⟨_, hw, rfl⟩ := yields_oneOf (fun name _ => Cursor.isWord_command name) _ _ _ hword
  obtain ⟨_, hts, us, rfl, hisArgs, hwell, hdepth⟩ := arguments_sound h _ _ _ hargs
  have hcommand := IsStatement.command name hisArgs
  rw [show word name.text = Token.ofWord name.text by cases name <;> decide] at hcommand
  refine ⟨_, hw.trans hts, hcommand, hwell, ?_⟩
  rw [Statement.depth]
  omega

theorem transformation_sound (h : Within levels statement) (k : Inside levels expression) :
    Yields (transformation statement expression) (ReadsStatement (levels + 1)) := by
  intro s st t hm
  obtain ⟨kind, s1, hword, hm⟩ := matched_bind hm
  obtain ⟨_, s2, hopen, hm⟩ := matched_bind hm
  obtain ⟨⟨x, y, z⟩, s3, htriple, hm⟩ := matched_bind hm
  obtain ⟨body, s4, hbody, hm⟩ := matched_bind hm
  obtain ⟨rfl, rfl⟩ := matched_pure hm
  obtain ⟨_, hw, rfl⟩ := yields_oneOf (fun kind _ => Cursor.isWord_transform kind) _ _ _ hword
  obtain ⟨_, hparts, xs, ys, zs, rfl, ⟨hx, hy, hz⟩, ⟨hwx, hwy, hwz⟩, hdepth⟩ :=
    triple_sound k Cursor.isSymbol_rightParen _ _ _ htriple
  obtain ⟨ts, hts, hread⟩ := h.yields _ _ _ hbody
  have ho := matched_dueSymbol Cursor.isSymbol_leftParen hopen
  have htransform := IsStatement.transformation kind hx hy hz hread.isStatement
  rw [show word kind.text = Token.ofWord kind.text by cases kind <;> decide] at htransform
  refine ⟨_, hw.trans (ho.trans (hparts.trans hts)), by simpa using htransform,
    ⟨hwx, hwy, hwz, hread.wellFormed⟩, ?_⟩
  have hparts : max x.depth (max y.depth z.depth) ≤ levels := hdepth
  have hd := hread.depth_le
  rw [Statement.depth]
  omega

/-! ## Assignments -/

theorem yields_localKeyword : Yields localKeyword fun ts place => ts = localTokens place.isSome := by
  refine Yields.orElse ?_ ?_
  · intro s place t hm
    obtain ⟨opened, u, hopen, hm⟩ := matched_bind hm
    obtain ⟨rfl, rfl⟩ := matched_pure hm
    exact ⟨_, (matched_opening (by decide) hopen).2, rfl⟩
  · intro s place t hm
    obtain ⟨rfl, rfl⟩ := matched_pure hm
    exact ⟨[], Cursor.Reads.refl _, rfl⟩

/-- What is tried where there is no name never matches. -/
theorem unnamed_ne_matched {place : Option Cursor} {s t : State} {name : String} :
    unnamed place s ≠ .matched name t := by
  intro hm
  unfold unnamed at hm
  dsimp only at hm
  split at hm
  · cases hm
  · split at hm <;> cases hm
  · split at hm <;> cases hm
  · cases hm

theorem yields_assignee : Yields assignee fun ts target =>
    ts = localTokens target.1 ++ [Token.ofWord target.2, equals] ∧
      IsName (Token.ofWord target.2) target.2 ∧ IsValidName target.2 := by
  intro s v t hm
  obtain ⟨place, s1, hlocal, hm⟩ := matched_bind hm
  obtain ⟨target, s2, htarget, hm⟩ := matched_bind (matched_trivia_bind hm)
  obtain ⟨_, s3, hequals, hm⟩ := matched_bind hm
  obtain ⟨rfl, rfl⟩ := matched_pure hm
  obtain ⟨_, hl, rfl⟩ := yields_localKeyword _ _ _ hlocal
  have he := matched_dueSymbol Cursor.isSymbol_equals hequals
  have hname : name (s1.moveTo s1.cursor.afterTrivia) = .matched target s2 := by
    rcases matched_orElse htarget with hname | ⟨u, _, hnone⟩
    · exact hname
    · exact absurd hnone unnamed_ne_matched
  obtain ⟨hreads, hisName, hvalid⟩ := matched_name_settled (Cursor.settled_afterTrivia _) hname
  have hn := Cursor.Reads.trans (Cursor.reads_afterTrivia s1.cursor) hreads
  exact ⟨_, hl.trans (hn.trans he), rfl, hisName, hvalid⟩

theorem assignment_sound (h : Inside levels expression) :
    Yields (assignment expression) (ReadsStatement (levels + 1)) := by
  intro s st t hm
  obtain ⟨⟨isLocal, target⟩, s1, htarget, hm⟩ := matched_bind hm
  obtain ⟨assigned, s2, hassigned, hm⟩ := matched_bind hm
  obtain ⟨rfl, rfl⟩ := matched_pure hm
  obtain ⟨_, hreads, rfl, hisName, hvalid⟩ := yields_assignee _ _ _ htarget
  obtain ⟨ts, hts, hsum, hwell, hdepth⟩ := h.yields _ _ _ hassigned
  have hassignment := IsStatement.assignment isLocal hisName hsum
  refine ⟨_, hreads.trans hts, by simpa using hassignment, ⟨hvalid, hwell⟩, ?_⟩
  rw [Statement.depth]
  omega

/-! ## All statements -/

theorem isStatement_ne_nil {ts : List Token} {st : Statement} (h : IsStatement ts st) : ts ≠ [] := by
  cases h <;> simp

/-- Whichever kind of statement matches, it is one of the grammar. -/
theorem anyStatement_sound (h : Within levels statement) (k : Inside levels expression) :
    Yields (anyStatement statement expression) (ReadsStatement (levels + 1)) := by
  refine Yields.firstOf fun rule hmem => ?_
  simp only [List.mem_cons, List.not_mem_nil, or_false] at hmem
  rcases hmem with rfl | rfl | rfl | rfl | rfl | rfl | rfl | rfl | rfl | rfl | rfl
  · exact camera_sound k
  · exact light_sound k
  · exact block_sound h
  · exact conditional_sound h k
  · exact loop_sound h k
  · exact call_sound k
  · exact definition_sound h
  · exact command_sound k
  · exact assignment_sound k
  · exact transformation_sound h k
  · exact yields_unmet

/-- The rule for statements of the parser that remembers nothing. -/
theorem within_level (levels : Nat) : Within levels (level .nothing levels).statement := by
  induction levels with
  | zero =>
    refine ⟨?_, ?_, ?_⟩
    · intro s v t hm
      cases hm
    · intro s t hm
      cases hm
    · intro _ s
      exact ⟨_, rfl⟩
  | succ levels ih =>
    refine ⟨Yields.afterTrivia (anyStatement_sound ih (inside_level levels)), ?_,
      fun h => absurd h (Nat.succ_ne_zero levels)⟩
    intro s t hm
    have hcursor := cursor_of_unmatched_firstOf (unmatched_trivia_bind hm)
    rw [hcursor]
    exact Cursor.reads_afterTrivia s.cursor

end SceneScript.Parser
