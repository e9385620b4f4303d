import SceneScript.Proofs.Parser.ExpressionTandem
import SceneScript.Proofs.Parser.StatementComplete

/-!
# Statements in tandem

Every rule for statements keeps two parsers in tandem, and so the rule for whole programs does.  The
places that blocks and assignments remember for their errors are places where the two stand with the
same tokens behind them.
-/

namespace SceneScript.Parser

open Rule Grammar Cursor Computability

theorem isKeyword_command (name : Command) : isKeyword name.text = true := by cases name <;> decide

theorem isKeyword_transform (kind : Transform) : isKeyword kind.text = true := by
  cases kind <;> decide

namespace Tandem

variable {T : Tandem} {levels : Nat} {statement : Rule Statement} {expression : Rule Expr}
variable {ts us : List Token} {s t : State} {c d : Cursor}

/-! ## Statements without blocks -/

/-- A camera goes as far as the grammar of statements does. -/
theorem camera_explores [Loud expression] (h : T.Firm sums expression) :
    T.Explores statements (camera expression) := by
  refine Explores.mono ?_ camera_le
  exact (keyword_firm (by decide) (by decide)).explores.bind fun _ =>
    (dueKeyword_firm (by decide) (by decide)).explores.bind fun _ =>
    (dueSymbol_firm isSymbol_leftParen).explores.bind fun _ => h.explores.bind fun _ =>
    (dueSymbol_firm isSymbol_rightParen).explores.map

theorem light_explores [Loud expression] (hin : Inside levels expression)
    (h : T.Firm sums expression) : T.Explores statements (light expression) := by
  refine Explores.mono ?_ light_le
  exact (keyword_firm (by decide) (by decide)).explores.bind fun _ =>
    (dueKeyword_firm (by decide) (by decide)).explores.bind fun _ => (arguments_explores hin h).map

theorem call_explores [Loud expression] (hin : Inside levels expression)
    (h : T.Firm sums expression) : T.Explores statements (call expression) := by
  refine Explores.mono ?_ call_le
  exact (keyword_firm (by decide) (by decide)).explores.bind fun _ =>
    (dueName_firm rfl).explores.bind fun _ => (arguments_explores hin h).map

theorem command_explores [Loud expression] (hin : Inside levels expression)
    (h : T.Firm sums expression) : T.Explores statements (command expression) := by
  refine Explores.mono (Explores.bind (Firm.explores (oneOf_firm fun name _ => ?_)) fun _ => ?_)
    command_le
  · exact ⟨isWord_command name, isKeyword_command name⟩
  · exact (arguments_explores hin h).map

/-- A transformation goes as far as the grammar of statements does. -/
theorem transformation_explores [Loud statement] [Loud expression]
    (h : T.Firm statements statement) (k : T.Firm sums expression) :
    T.Explores statements (transformation statement expression) := by
  refine Explores.mono (Explores.bind (Firm.explores (oneOf_firm fun kind _ => ?_)) fun _ => ?_)
    transformation_le
  · exact ⟨isWord_transform kind, isKeyword_transform kind⟩
  · exact (dueSymbol_firm isSymbol_leftParen).explores.bind fun _ =>
      (triple_explores isSymbol_rightParen k).bind fun _ => h.explores.map

/-! ## Blocks -/

/-- The statements of a block and its `end`. -/
theorem body_tracks [Loud statement] (hadv : Advances statement) (h : T.Firm statements statement)
    {keyword : String} {make : List Statement → Statement} (hopened : Opened T keyword ts c d)
    (hopen : ∀ vs ∈ statements∗, IsOpen keyword (us ++ vs)) :
    T.Tracks (T.At (ts ++ us)) T.states (ts ++ us) bodies Eq
      (do
        let body ← many statement
        closing keyword c
        return make body)
      (do
        let body ← many statement
        closing keyword d
        return make body) := by
  refine (h.many hadv).bind ?_
  rintro vs body _ hvs rfl
  have hclosing := closing_tracks hopened (hopen vs hvs)
  rw [← List.append_assoc] at hclosing
  exact hclosing.map fun _ _ _ => rfl

/-- What starts with the keyword of a block. -/
theorem opened_tracks {L : Language Token} [Occurs L] {keyword : String} (hw : IsWord keyword)
    (hk : isKeyword keyword = true) {f : Cursor → Rule Statement} [∀ c, Loud (f c)]
    (hf : ∀ c d, Opened T keyword ts c d → T.Tracks (T.At (ts ++ [word keyword])) T.states
      (ts ++ [word keyword]) L Eq (f c) (f d)) :
    T.Tracks (T.At ts) T.states ts (token (word keyword) * L) Eq (opening keyword >>= f)
      (opening keyword >>= f) := by
  refine (opening_tracks hw hk).anywhere.bind ?_
  rintro _ c d rfl hopened
  exact hf c d hopened

/-- A block goes as far as the grammar of statements does. -/
theorem block_explores [Loud statement] (hadv : Advances statement)
    (h : T.Firm statements statement) : T.Explores statements (block statement) := by
  refine Explores.mono (fun ts => ?_) block_le
  refine opened_tracks (by decide) (by decide) fun c d hopened => ?_
  exact body_tracks hadv h hopened fun vs hvs => .block hvs

/-- A block under a condition, where the grammar has one with these words. -/
theorem guarded_explores [Loud statement] [Loud expression] {first second : String}
    {make : Expr → List Statement → Statement} (hfirst : IsWord first)
    (hfirst' : isKeyword first = true) (hsecond : IsWord second)
    (hsecond' : isKeyword second = true) (hadv : Advances statement)
    (h : T.Firm statements statement) (k : T.Firm sums expression)
    (hopen : ∀ {cs vs}, cs ∈ conditions → vs ∈ statements∗ →
      IsOpen first (word first :: (cs ++ word second :: vs))) :
    T.Explores (token (word first) * (conditions * (token (word second) * bodies)))
      (guarded first second make statement expression) := by
  intro ts
  refine opened_tracks hfirst hfirst' fun c d hopened => ?_
  refine (condition_explores k _).bind ?_
  rintro cs test _ hcs rfl
  refine ((dueKeyword_firm hsecond hsecond').explores _).bind ?_
  rintro _ _ _ rfl rfl
  have hread : ts ++ [word first] ++ cs ++ [word second]
      = ts ++ (word first :: (cs ++ [word second])) := by simp
  rw [hread]
  refine body_tracks hadv h hopened fun vs hvs => ?_
  simpa using hopen hcs hvs

theorem conditional_explores [Loud statement] [Loud expression] (hadv : Advances statement)
    (h : T.Firm statements statement) (k : T.Firm sums expression) :
    T.Explores statements (conditional statement expression) :=
  (guarded_explores (by decide) (by decide) (by decide) (by decide) hadv h k
    .conditional).mono conditional_le

theorem loop_explores [Loud statement] [Loud expression] (hadv : Advances statement)
    (h : T.Firm statements statement) (k : T.Firm sums expression) :
    T.Explores statements (loop statement expression) :=
  (guarded_explores (by decide) (by decide) (by decide) (by decide) hadv h k .loop).mono loop_le

/-- A parameter goes as far as a name with a separator behind it. -/
theorem parameter_firm : T.Firm (names * separators) parameter := by
  refine fun ts => (dueName_firm rfl ts).bind fun us v w _ hvw => ?_
  exact separator_tracks.map fun _ _ _ => hvw

instance loud_parameter : Loud parameter := by
  unfold parameter
  infer_instance

theorem parameters_explores : T.Explores parameterLists parameter.many := fun _ =>
  (parameter_firm.many advances_parameter).mono parameterLists_le

/-- A definition goes as far as the grammar of statements does. -/
theorem definition_explores [Loud statement] (hadv : Advances statement)
    (h : T.Firm statements statement) : T.Explores statements (definition statement) := by
  refine Explores.mono (fun ts => ?_) definition_le
  refine opened_tracks (by decide) (by decide) fun c d hopened => ?_
  refine ((dueName_firm rfl).explores _).bind ?_
  rintro ns name _ hns rfl
  refine ((dueSymbol_firm isSymbol_leftParen).explores _).bind ?_
  rintro _ _ _ rfl rfl
  refine (parameters_explores _).bind ?_
  rintro ps params _ hps rfl
  refine ((dueSymbol_firm isSymbol_rightParen).explores _).bind ?_
  rintro _ _ _ rfl rfl
  have hread : ts ++ [word "function"] ++ ns ++ [leftParen] ++ ps ++ [rightParen]
      = ts ++ (word "function" :: (ns ++ leftParen :: (ps ++ [rightParen]))) := by simp
  rw [hread]
  refine body_tracks hadv h hopened fun vs hvs => ?_
  simpa using IsOpen.definition hns hps hvs

/-! ## Assignments -/

/-- The places of a `local`, if there is one, behind which a name can come. -/
inductive Marked (T : Tandem) (ts : List Token) : Option Cursor → Option Cursor → Prop
  | without : Marked T ts none none
  | marked {c d : Cursor} : Opened T "local" ts c d → T.Allows ts names →
      Marked T ts (some c) (some d)

theorem Marked.isSome {p q : Option Cursor} (h : Marked T ts p q) : p.isSome = q.isSome := by
  cases h <;> rfl

theorem localKeyword_tracks {U : State → State → Prop} (hnames : T.Allows ts names) :
    T.Tracks (T.At ts) U ts (1 + token (word "local")) (Marked T ts) localKeyword
      localKeyword := by
  have hlocal : IsWord "local" := by decide
  have hopening := (opening_tracks hlocal (by decide)).map (W := Marked T ts)
    fun _ _ hopened => .marked hopened hnames
  have hnone : T.Tracks (T.At ts) U ts (1 + token (word "local")) (Marked T ts)
      (pure none) (pure none) := (tracks_pure .without).mono le_self_add
  exact (hopening.mono le_add_self).anywhere.orElse_at hnone

/-- Whether a symbol comes next is the same for both, unless the first is beyond. -/
theorem afterSymbol?_isSome_eq {symbol : String} {tok : Token} (hsymbol : IsSymbol symbol tok)
    (h : T.cursors ts c d) (hc : c.Settled) (hd : d.Settled) :
    (c.afterSymbol? symbol).isSome = (d.afterSymbol? symbol).isSome := by
  have hsome : ∀ {c : Cursor} {u : Token} {e : Cursor}, c.Settled → c.next? = some (u, e) →
      (c.afterSymbol? symbol).isSome = decide (u = tok) := by
    intro c u e hc hu
    rw [Bool.eq_iff_iff, decide_eq_true_eq, Option.isSome_iff_exists]
    constructor
    · rintro ⟨f, hf⟩
      rw [afterSymbol?_eq_some_iff hc hsymbol, hu] at hf
      exact (Prod.mk.inj (Option.some.inj hf)).1
    · rintro rfl
      exact ⟨e, (afterSymbol?_eq_some_iff hc hsymbol).2 hu⟩
  have hnone : ∀ {c : Cursor}, c.Settled → (∀ e, c.next? ≠ some (tok, e)) →
      (c.afterSymbol? symbol).isSome = false := by
    intro c hc hne
    rw [Option.isSome_eq_false_iff, Option.isNone_iff_eq_none, Option.eq_none_iff_forall_ne_some]
    exact fun e he => hne e ((afterSymbol?_eq_some_iff hc hsymbol).1 he)
  have hbare : ∀ {c : Cursor}, c.Settled → c.Bare → ∀ e, c.next? ≠ some (tok, e) := by
    intro c hc hbare e he
    obtain ⟨word, rfl⟩ := hbare.next? hc he
    obtain ⟨char, _, hchar⟩ := hsymbol
    exact Token.ofWord_ne_ofChar? hchar
  -- the same token, nothing, or words at most, none of which is the symbol
  rcases T.next h hc hd with ⟨u, c', d', hu, hu', _⟩ | ⟨hu, hu'⟩ | ⟨hu, hu', _⟩
  · rw [hsome hc hu, hsome hd hu']
  · rw [hnone hc (by simp [hu]), hnone hd (by simp [hu'])]
  · rw [hnone hc (hbare hc hu), hnone hd (hbare hd hu')]

theorem unnamed_eq_unmet {place : Cursor} (hword : s.cursor.word? = none)
    (hequals : (s.cursor.afterSymbol? "=").isSome = false) :
    unnamed (some place) s = unmet .identifier s := by
  simp [unnamed, hword, hequals]

/-- After `local` and no word an equals sign makes `local` the name that is reserved. -/
theorem unnamed_marked {place : Cursor} (hword : s.cursor.word? = none)
    (hequals : (s.cursor.afterSymbol? "=").isSome = true) :
    unnamed (some place) s = .aborted (.reservedWord place "local") := by
  simp [unnamed, hword, hequals]

/-- After `local` a reserved word is refused at once. -/
theorem unnamed_reserved {place : Cursor} {word : String} (hword : s.cursor.word? = some word) :
    unnamed (some place) s = .aborted (.reservedWord s.cursor word) := by
  simp [unnamed, hword]

/-- A reserved word with an equals sign behind it is refused at once. -/
theorem unnamed_assigned {word : String} (hword : s.cursor.word? = some word)
    (hequals : ((s.cursor.afterWord word).afterTrivia.afterSymbol? "=").isSome = true) :
    unnamed none s = .aborted (.reservedWord s.cursor word) := by
  simp [unnamed, hword, hequals]

/-- A reserved word without an equals sign behind it may begin another statement. -/
theorem unnamed_unassigned {word : String} (hword : s.cursor.word? = some word)
    (hequals : ((s.cursor.afterWord word).afterTrivia.afterSymbol? "=").isSome = false) :
    unnamed none s = .unmatched s := by
  simp [unnamed, hword, hequals]

theorem unnamed_nothing (hword : s.cursor.word? = none) : unnamed none s = .unmatched s := by
  simp [unnamed, hword]

theorem target_tracks {p q : Option Cursor} (h : Marked T ts p q) :
    T.Tracks (T.SettledAt (ts ++ us)) (T.SettledAt (ts ++ us)) (ts ++ us) names Eq
      (Rule.name.orElse (unnamed p)) (Rule.name.orElse (unnamed q)) := by
  refine name_orElse_tracks ?reserved ?nothing
  case reserved =>
    intro s t word hst hL hsw htw hres hcd
    -- behind a `local` a reserved word is refused at once, else only if an `=` follows it
    have habort := T.reserved hst.1.1 hst.2.1 hst.2.2 hsw hres hL
    cases h with
    | marked =>
      rw [unnamed_reserved hsw, unnamed_reserved htw]
      exact .inl habort
    | without =>
      rcases hcd with hcd | hbeyond
      · have hequals := afterSymbol?_isSome_eq isSymbol_equals (T.trivia hcd)
          (settled_afterTrivia _) (settled_afterTrivia _)
        cases hs : ((s.cursor.afterWord word).afterTrivia.afterSymbol? "=").isSome with
        | true =>
          rw [unnamed_assigned hsw hs, unnamed_assigned htw (hequals ▸ hs)]
          exact .inl habort
        | false =>
          rw [unnamed_unassigned hsw hs, unnamed_unassigned htw (hequals ▸ hs)]
          exact .inl hst
      · -- the first parser may not find the `=` that the second one finds
        cases hs : ((s.cursor.afterWord word).afterTrivia.afterSymbol? "=").isSome with
        | true =>
          rw [unnamed_assigned hsw hs]
          exact .inr (.inl ⟨_, hbeyond⟩)
        | false =>
          rw [unnamed_unassigned hsw hs]
          cases ht : ((t.cursor.afterWord word).afterTrivia.afterSymbol? "=").isSome with
          | true => exact .inr (.inr ⟨⟨_, _, unnamed_assigned htw ht⟩, _, hbeyond⟩)
          | false =>
            rw [unnamed_unassigned htw ht]
            exact .inl hst
  case nothing =>
    intro s t hst hL hsw htw
    cases h with
    | without =>
      rw [unnamed_nothing hsw, unnamed_nothing htw]
      exact .inl hst
    | marked hopened hnames =>
      -- `local = …` names a variable after the keyword itself
      have hequals := afterSymbol?_isSome_eq isSymbol_equals hst.1.1 hst.2.1 hst.2.2
      cases hs : (s.cursor.afterSymbol? "=").isSome with
      | true =>
        rw [unnamed_marked hsw hs, unnamed_marked htw (hequals ▸ hs)]
        exact .inl (T.reserved hopened.cursors hopened.settled.1 hopened.settled.2 hopened.word?
          (by decide) hnames)
      | false =>
        rw [unnamed_eq_unmet hsw hs, unnamed_eq_unmet htw (hequals ▸ hs)]
        exact .inl (hst.unmet (L := names) rfl (fun _ => ⟨hsw, htw⟩) hL)

/-- Behind what may be a `local` a target is loud, or nothing has been read. -/
theorem lost_of_localKeyword {p : Option Cursor} {u : State} {f : String → Rule (Bool × String)}
    [∀ target, Loud (f target)] (hcursors : T.cursors ts s.cursor t.cursor)
    (hm : localKeyword s = .matched p u) (hgone : T.Gone u) :
    T.Lost ((do Rule.trivia; let target ← Rule.name.orElse (unnamed p); f target) u) := by
  rcases matched_orElse hm with hm | ⟨w, _, hm⟩
  · obtain ⟨place, w, _, hm⟩ := matched_bind hm
    obtain ⟨rfl, rfl⟩ := matched_pure hm
    exact hgone.lost
  · obtain ⟨rfl, rfl⟩ := matched_pure hm
    -- without a `local` the cursor has not moved
    rcases hgone with hcursor | hfarthest
    · exact absurd hcursor (T.not_beyond hcursors)
    · exact lost_of_beyond hfarthest

/-- What is assigned to goes as far as the grammar of assignees does. -/
theorem assignee_explores : T.Explores assignees assignee := by
  intro ts hL
  have hnames : T.Allows ts names := by
    have hwithout : T.Allows ts (names * token equals) := by
      refine hL.mono ?_
      rw [assignees, add_mul, one_mul]
      exact le_self_add
    exact hwithout.left
  refine (localKeyword_tracks hnames).bind_of (fun us p q _ hpq => ?_) (fun s t u p hst => ?_) hL
  · refine Tracks.afterTrivia ((target_tracks hpq).loose.bind ?_)
    rintro _ target _ _ rfl
    refine Tracks.map ((dueSymbol_firm isSymbol_equals).explores _) fun _ _ _ => ?_
    rw [hpq.isSome]
  · exact lost_of_localKeyword hst.1

theorem assigned_explores [Loud expression] (h : T.Firm sums expression) :
    T.Explores (assignees * sums) (assignment expression) :=
  assignee_explores.bind fun _ => h.explores.map

/-- An assignment goes as far as the grammar of statements does. -/
theorem assignment_explores [Loud expression] (h : T.Firm sums expression) :
    T.Explores statements (assignment expression) := (assigned_explores h).mono assignment_le

/-! ## All statements -/

theorem anyStatement_firm [Loud statement] [Loud expression] (hin : Inside levels expression)
    (hadv : Advances statement) (h : T.Firm statements statement) (k : T.Firm sums expression) :
    T.Tracks (T.SettledAt ts) (T.SettledAt ts) ts statements Eq
      (anyStatement statement expression) (anyStatement statement expression) := by
  unfold anyStatement
  refine (camera_explores k).settled.orElse_settled ?_
  refine (light_explores hin k).settled.orElse_settled ?_
  refine (block_explores hadv h).settled.orElse_settled ?_
  refine (conditional_explores hadv h k).settled.orElse_settled ?_
  refine (loop_explores hadv h k).settled.orElse_settled ?_
  refine (call_explores hin k).settled.orElse_settled ?_
  refine (definition_explores hadv h).settled.orElse_settled ?_
  refine (command_explores hin k).settled.orElse_settled ?_
  refine (assignment_explores k).settled.orElse_settled ?_
  refine (transformation_explores h k).settled.orElse_settled ?_
  exact (tracks_unmet (L := statements) rfl id).loose.orElse_settled tracks_firstOf_nil

/-- The rules for statements of the parser that remembers nothing. -/
theorem level_statement_firm (levels : Nat) :
    T.Firm statements (level .nothing levels).statement := by
  induction levels with
  | zero =>
    refine fun ts => Tracks.afterTrivia fun hL s t hst => ?_
    exact .inl (T.tooDeep hst.1.1 hst.2.1 hst.2.2 hL.viable)
  | succ levels ih =>
    exact fun ts => Tracks.afterTrivia (anyStatement_firm (inside_level levels)
      (advances_level levels) ih (level_expression_firm levels)).firm

/-- Both parsers read statements as long as there are any. -/
theorem program_tracks {U : State → State → Prop} (levels : Nat) :
    T.Tracks (T.At ts) U ts statements∗ Eq (level .nothing levels).statement.many
      (level .nothing levels).statement.many :=
  (level_statement_firm levels).many (advances_level levels)

end Tandem

end SceneScript.Parser
