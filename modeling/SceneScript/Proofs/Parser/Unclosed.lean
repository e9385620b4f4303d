import SceneScript.Proofs.Parser.ReadByBoth

/-!
# The innermost open block

At the cut the innermost block finds no statement and no `end`, and it is the first rule to give a
reason for the failure.  The blocks around it do not match then, nor does any alternative that is
tried instead of one of them.  All of these come to the cut too late for another reason, so the
keyword that is noted is that of the innermost block.
-/

namespace SceneScript.Parser

open Rule Grammar Cursor Computability

variable {α β : Type} {p q : Cursor} {behind us rest ts before : List Token}
variable {keyword inner : String} {s t : State} {levels count : Nat}

/-! ## Breaking off -/

/-- At the tokens the rule ends the parse of the source, or it does not match in what is left
because of the block whose keyword stands behind some of them. -/
def BreaksOff (p q : Cursor) (keyword : String) (us before : List Token) (x : Rule α) : Prop :=
  ∀ s t, Severed p q us s t → (∃ a, x s = .aborted a)
    ∨ ∃ opened t', x t = .unmatched t' ∧ t.cursor.Reads before opened ∧ opened.Settled
      ∧ t'.farthest.Blamed q (.unclosed keyword opened)

/-- What breaks off behind tokens that both parsers read. -/
theorem ReadByBoth.breaksOff {x : Rule α} {f : α → Rule β} (hx : ReadByBoth p q x us rest)
    (hf : ∀ v, BreaksOff p q keyword rest before (f v)) :
    BreaksOff p q keyword (us ++ rest) (us ++ before) (x >>= f) := by
  intro s t hst
  rcases hx s t hst with ⟨a, ha⟩ | ⟨v, s', t', hs, ht, hreads, hst'⟩
  · exact .inl ⟨a, aborted_bind ha⟩
  · rw [bind_of_matched hs, bind_of_matched ht]
    rcases hf v s' t' hst' with habort | ⟨opened, u, hu, hbefore, hopened⟩
    · exact .inl habort
    · exact .inr ⟨opened, u, hu, hreads.trans hbefore, hopened⟩

/-- The rule does not match in what is left, and the reason for the failure at the cut is kept. -/
def KeepsBlame (q : Cursor) (us : List Token) (y : Rule α) : Prop :=
  ∀ reason t, t.cursor.Reads us q → t.farthest.Blamed q reason →
    ∃ t', y t = .unmatched t' ∧ t'.farthest.Blamed q reason

theorem keepsBlame_of_fails {L : Language Token} {y : Rule α} (h : Cut p q behind)
    (hy : ∀ T : Tandem, T.Explores L y) (hfails : Fails False y (Facing us)) :
    KeepsBlame q us y := by
  intro reason t hreads hblamed
  have hahead : t.cursor.Ahead us := by simpa using hreads.ahead h.ahead
  rcases hfails t hahead with ⟨t', ht⟩ | ⟨hfalse, _⟩
  · exact ⟨t', ht, (upheld_blamed h hreads).unmatched hy hblamed ht⟩
  · exact hfalse.elim

theorem keepsBlame_unmet (e : Expectation) : KeepsBlame q us (unmet e : Rule α) :=
  fun _ t hreads hblamed => ⟨t.expect e, rfl, hblamed.expect hreads.onward.pos_le e⟩

theorem keepsBlame_firstOf {rules : List (Rule α)} (h : ∀ rule ∈ rules, KeepsBlame q us rule) :
    KeepsBlame q us (firstOf rules) := by
  induction rules with
  | nil => exact fun _ t _ hblamed => ⟨t, rfl, hblamed⟩
  | cons rule rules ih =>
    intro reason t hreads hblamed
    obtain ⟨t', ht, hblamed'⟩ := h rule (List.mem_cons_self ..) reason t hreads hblamed
    have hmore := ih fun other hmem => h other (List.mem_cons_of_mem _ hmem)
    obtain ⟨t'', ht', hblamed''⟩ := hmore reason (t'.moveTo t.cursor) hreads hblamed'
    exact ⟨t'', (orElse_of_unmatched ht).trans ht', hblamed''⟩

/-- What is tried after a rule that breaks off does not change why. -/
theorem BreaksOff.orElse {x y : Rule α} (h : BreaksOff p q keyword us before x)
    (hy : KeepsBlame q us y) : BreaksOff p q keyword us before (x.orElse y) := by
  intro s t hst
  rcases h s t hst with ⟨a, ha⟩ | ⟨opened, t', ht, hbefore, hsettled, hblamed⟩
  · exact .inl ⟨a, orElse_of_aborted ha⟩
  · obtain ⟨t'', ht', hblamed'⟩ := hy _ (t'.moveTo t.cursor) hst.left hblamed
    exact .inr ⟨opened, t'', (orElse_of_unmatched ht).trans ht', hbefore, hsettled, hblamed'⟩

/-- What is tried in vain before a rule that breaks off does not hinder it. -/
theorem BreaksOff.behind_passed {L M : Language Token} {x y : Rule α} (hcut : Cut p q behind)
    (h : BreaksOff p q keyword us before x) (hy : ∀ T : Tandem, T.Explores L y)
    (hLM : L ≤ prefixes M) (hended : ∀ word, us ++ [Token.ofWord word] ∉ prefixes M)
    (hfails : Fails True y (Facing (us ++ word "end" :: behind))) :
    BreaksOff p q keyword us before (y.orElse x) := by
  intro s t hst
  rcases hcut.passes hy hLM hended hfails hst with ⟨a, ha⟩ | ⟨s', t', hs, ht, hearly⟩
  · exact .inl ⟨a, orElse_of_aborted ha⟩
  · rw [orElse_of_unmatched hs, orElse_of_unmatched ht]
    exact h (s'.moveTo s.cursor) (t'.moveTo t.cursor) ⟨hst.whole, hst.left, hearly⟩

/-! ## The rules for blocks -/

/-- What the rule for a block does behind its header. -/
def closedBody (statement : Rule Statement) (keyword : String)
    (make : List Statement → Statement) (opened : Cursor) : Rule Statement := do
  let body ← many statement
  closing keyword opened
  return make body

/-- Where no `end` comes, a body without statements is not closed. -/
theorem closedBody_unmatched {statement : Rule Statement} {u : State} (keyword : String)
    (make : List Statement → Statement) (opened : Cursor) (hone : statement t = .unmatched u)
    (hahead : u.cursor.Ahead ts) (hend : leadingWord ts ≠ some "end") :
    ∃ w, closedBody statement keyword make opened t = .unmatched w
      ∧ w.farthest = (u.farthest.expect u.cursor.afterTrivia (.literal "end")).blame
          u.cursor.afterTrivia (.unclosed keyword opened) := by
  have hat : AtTokens ts u.cursor.afterTrivia := Facing.atTokens_afterTrivia hahead
  have hword : u.cursor.afterTrivia.word? ≠ some "end" := by rwa [word?_eq_leadingWord hat]
  have hmisses : Misses (move (afterKeyword? "end")) (u.moveTo u.cursor.afterTrivia) :=
    skips_move (afterKeyword?_eq_none (by decide) hword) _ rfl
  refine ⟨((u.moveTo u.cursor.afterTrivia).expect (.literal "end")).blame
    (.unclosed keyword opened), ?_, rfl⟩
  unfold closedBody
  rw [bind_of_matched (Tandem.many_of_unmatched hone)]
  exact bind_of_unmatched (orElse_of_misses hmisses)

/-- The rule for a block: its keyword, a header that both parsers read, and its body. -/
inductive IsForm (p q : Cursor) (levels : Nat) (keyword : String) :
    List Token → Rule Statement → Prop
  | intro {Value : Type} {header : Rule Value} {make : Value → List Statement → Statement}
      {hs vs : List Token} : IsWord keyword → isKeyword keyword = true → vs ∈ statements∗ →
      (∀ rest, WordFirst rest → ReadByBoth p q header hs (vs ++ rest)) →
      IsForm p q levels keyword (word keyword :: (hs ++ vs)) (do
        let opened ← opening keyword
        let value ← header
        closedBody (level .nothing levels).statement keyword (make value) opened)

theorem opening_eq {c : Cursor} (hw : IsWord keyword) (hk : isKeyword keyword = true)
    (hnext : s.cursor.next? = some (word keyword, c)) :
    opening keyword s = .matched s.cursor.afterTrivia (s.moveTo c) := by
  have hafter : s.cursor.afterTrivia.afterKeyword? keyword = some c := by
    rw [afterKeyword?_eq_some_iff (settled_afterTrivia _) hw, next?_afterTrivia, ofWord_eq_word hk]
    exact hnext
  have hmove : move (afterKeyword? keyword) (s.moveTo s.cursor.afterTrivia)
      = .matched () (s.moveTo c) := by
    unfold move
    rw [State.cursor_moveTo, hafter]
    rfl
  exact bind_of_matched (f := fun _ => pure s.cursor.afterTrivia) hmove

/-- Both parsers come to the end of a block that is open. -/
theorem IsForm.reach {x : Rule Statement} (hcut : Cut p q behind)
    (h : IsForm p q levels keyword us x) (hrest : WordFirst rest)
    (hst : Severed p q (us ++ rest) s t) :
    (∃ a, x s = .aborted a)
      ∨ ∃ make s' t', x s = closedBody (level .nothing levels).statement keyword make
            s.cursor.afterTrivia s'
          ∧ x t = closedBody (level .nothing levels).statement keyword make
            t.cursor.afterTrivia t'
          ∧ t.cursor.Reads us t'.cursor ∧ Severed p q rest s' t' := by
  cases h with
  | @intro Value header make hs vs hw hk hvs hheader =>
    rw [List.cons_append, List.append_assoc] at hst
    obtain ⟨c, hc, hwhole⟩ := hst.whole
    obtain ⟨d, hd, hleft⟩ := hst.left
    rw [bind_of_matched (opening_eq hw hk hc), bind_of_matched (opening_eq hw hk hd)]
    have hopened : Severed p q (hs ++ (vs ++ rest)) (s.moveTo c) (t.moveTo d) :=
      ⟨hwhole, hleft, hst.early⟩
    rcases hheader rest hrest _ _ hopened with ⟨a, ha⟩ | ⟨v, s₁, t₁, hs₁, ht₁, hreads, hst₁⟩
    · exact .inl ⟨a, aborted_bind ha⟩
    · rw [bind_of_matched hs₁, bind_of_matched ht₁]
      rcases many_severed levels hcut hvs hrest hst₁ with
        ⟨a, ha⟩ | ⟨ss, s', t', hs', ht', hreads', hst'⟩
      · exact .inl ⟨a, aborted_bind ha⟩
      · have hall := (reads_of_next? hd).trans (hreads.trans hreads')
        exact .inr ⟨fun body => make v (ss ++ body), s', t', bind_of_map hs', bind_of_map ht', hall,
          hst'⟩

theorem leadingWord_ne_end {text : String} (h : text ≠ "end") :
    leadingWord (word text :: ts) ≠ some "end" := fun heq => h (Option.some.inj heq)

/-- At the cut a block finds neither a statement nor its `end`. -/
theorem IsForm.breaksOff {x : Rule Statement} (hcut : Cut p q behind)
    (h : IsForm p q levels keyword us x) : BreaksOff p q keyword us [] x := by
  intro s t hst
  rw [← List.append_nil us] at hst
  rcases h.reach hcut wordFirst_nil hst with habort | ⟨make, s', t', hs, ht, hreads, hst'⟩
  · exact .inl habort
  · cases levels with
    -- at the last level the parser of the source gives up on any statement
    | zero => exact .inl ⟨_, hs.trans (aborted_bind (Tandem.many_of_aborted rfl))⟩
    | succ levels =>
      have hfails : Fails False (level .nothing (levels + 1)).statement (Facing []) :=
        (fails_anyStatement (.inl rfl)).behind
      rcases hfails t' (hst'.left_ahead hcut) with ⟨u, hu⟩ | ⟨hfalse, _⟩
      · -- what is tried where nothing is left does not give a reason to fail there
        have hstays := (within_level (levels + 1)).stays t' u hu
        have hplace : u.cursor.afterTrivia = q :=
          hstays.2.symm.trans (hst'.left.2.trans hcut.settled.2)
        have hearly := (upheld_early hcut hst'.left).unmatched
          (fun _ => (Tandem.level_statement_firm (levels + 1)).explores) hst'.early hu
        have hahead : u.cursor.Ahead [] := (ahead_congr hstays.2).1 (hst'.left_ahead hcut)
        obtain ⟨w, hw, hfarthest⟩ :=
          closedBody_unmatched keyword make t.cursor.afterTrivia hu hahead nofun
        refine .inr ⟨_, w, ht.trans hw, reads_afterTrivia _, settled_afterTrivia _, ?_⟩
        rw [hfarthest, hplace]
        exact (hearly.expect_of_le hcut.settled.2 _ (.inr rfl)).blamed hcut.settled.2 _
      · exact hfalse.elim

/-- A block around one that is open does not match, and keeps the reason for it. -/
theorem IsForm.breaksOff_inside {x : Rule Statement} (hcut : Cut p q behind)
    (h : IsForm p q levels keyword us x) (hts : OpenBlocks count ts before inner)
    (hinside : BreaksOff p q inner ts before (level .nothing levels).statement) :
    BreaksOff p q inner (us ++ ts) (us ++ before) x := by
  intro s t hst
  rcases h.reach hcut hts.wordFirst hst with habort | ⟨make, s', t', hs, ht, hreads, hst'⟩
  · exact .inl habort
  · rcases hinside s' t' hst' with ⟨a, ha⟩ | ⟨opened, u, hu, hbefore, hsettled, hblamed⟩
    · exact .inl ⟨a, hs.trans (aborted_bind (Tandem.many_of_aborted ha))⟩
    · -- the body stops before the block inside; the `end` that is missed there comes too late
      have hstays := (within_level levels).stays t' u hu
      have hahead : u.cursor.Ahead ts := (ahead_congr hstays.2).1 (hst'.left_ahead hcut)
      have hle : u.cursor.afterTrivia.pos ≤ q.pos := by
        have hplace : t'.cursor.afterTrivia.Reads ts q :=
          (reads_afterTrivia t'.cursor).split hst'.left hcut.settled.2
        rw [← hstays.2]
        exact hplace.onward.pos_le
      obtain ⟨text, more, rfl, htext⟩ := hts.exists_cons
      obtain ⟨w, hw, hfarthest⟩ := closedBody_unmatched keyword make t.cursor.afterTrivia hu hahead
        (leadingWord_ne_end htext)
      refine .inr ⟨opened, w, ht.trans hw, hreads.trans hbefore, hsettled, ?_⟩
      rw [hfarthest]
      exact (hblamed.expect hle _).blame hle _

/-! ## All blocks that are open -/

/-- A block that is open has a rule, which is tried before assignments. -/
theorem exists_isForm (hcut : Cut p q behind) (h : IsOpen keyword us) (levels : Nat) :
    ∃ x, IsForm p q levels keyword us x
      ∧ choices (level .nothing levels).statement (level .nothing levels).expression [word keyword]
        = [x, assignment (level .nothing levels).expression, unmet .statement] := by
  cases h with
  | block hvs =>
    refine ⟨block (level .nothing levels).statement, ?_, rfl⟩
    exact @IsForm.intro p q levels "do" Unit (pure ()) (fun _ => .block) [] _ (by decide) rfl hvs
      fun rest _ => readByBoth_pure ()
  | conditional hcs hvs =>
    refine ⟨conditional (level .nothing levels).statement (level .nothing levels).expression, ?_,
      rfl⟩
    have hform := @IsForm.intro p q levels "if" _ _ .conditional _ _ (by decide) rfl hvs
      fun rest _ => guard_readByBoth levels hcut hcs (show IsWord "then" by decide) rfl
    simpa [conditional, closedBody] using hform
  | loop hcs hvs =>
    refine ⟨loop (level .nothing levels).statement (level .nothing levels).expression, ?_, rfl⟩
    have hform := @IsForm.intro p q levels "while" _ _ .loop _ _ (by decide) rfl hvs
      fun rest _ => guard_readByBoth levels hcut hcs (show IsWord "do" by decide) rfl
    simpa [loop, closedBody] using hform
  -- the rule reads the name and the parameters one by one: it is put together from a header first
  | definition hns hps hvs =>
    refine ⟨definition (level .nothing levels).statement, ?_, rfl⟩
    have hheader : ∀ rest, WordFirst rest → ReadByBoth p q
        (signature (many parameter)) _ (_ ++ rest) := fun rest hrest =>
      (dueName_readByBoth hcut rfl hns).bind fun name =>
        (dueSymbol_readByBoth hcut isSymbol_leftParen).bind fun _ =>
          (parameters_readByBoth hcut hps (wordFirst_of_mem hvs hrest)).bind fun params =>
            (dueSymbol_readByBoth hcut isSymbol_rightParen).bind
              fun _ => readByBoth_pure (name, params)
    let body (opened : Cursor) (value : String × List String) : Rule Statement :=
      closedBody (level .nothing levels).statement "function" (.definition value.1 value.2) opened
    have hrule : definition (level .nothing levels).statement
        = (opening "function" >>= fun opened => signature (many parameter) >>= body opened) :=
      congrArg (opening "function" >>= ·)
        (funext fun opened => (signature_bind (many parameter) (body opened)).symm)
    have hform : IsForm p q levels "function" _
        (opening "function" >>= fun opened => signature (many parameter) >>= body opened) :=
      .intro (by decide) rfl hvs hheader
    rw [hrule]
    simpa using hform

/-- A statement breaks off if its alternatives do. -/
theorem breaksOff_statement {tok : Token} (hcut : Cut p q behind)
    (h : BreaksOff p q keyword (tok :: us) before (firstOf
      (choices (level .nothing levels).statement (level .nothing levels).expression [tok]))) :
    BreaksOff p q keyword (tok :: us) before (level .nothing (levels + 1)).statement := by
  intro s t hst
  have hbehind := hst.afterTrivia hcut
  have hwhole : AtTokens (tok :: (us ++ word "end" :: behind)) s.cursor.afterTrivia :=
    Facing.atTokens_afterTrivia (hst.whole_ahead hcut)
  have hleft : AtTokens (tok :: us) t.cursor.afterTrivia :=
    Facing.atTokens_afterTrivia (hst.left_ahead hcut)
  have hs : (level .nothing (levels + 1)).statement s = _ :=
    anyStatement_eq_choices (s := s.moveTo s.cursor.afterTrivia) hwhole
  have ht : (level .nothing (levels + 1)).statement t = _ :=
    anyStatement_eq_choices (s := t.moveTo t.cursor.afterTrivia) hleft
  rcases h _ _ hbehind with ⟨a, ha⟩ | ⟨opened, t', ht', hbefore, hopened⟩
  · exact .inl ⟨a, hs.trans ha⟩
  · exact .inr ⟨opened, t', ht.trans ht', (reads_afterTrivia _).trans hbefore, hopened⟩

/-- Where a block is open, nothing else is tried that could change why the parser fails. -/
theorem keepsBlame_others (levels : Nat) (hcut : Cut p q behind) (h : IsOpen keyword us)
    (hts : WordFirst ts) : KeepsBlame q (us ++ ts)
      (firstOf [assignment (level .nothing levels).expression, unmet .statement]) := by
  refine keepsBlame_firstOf fun rule hmem => ?_
  simp only [List.mem_cons, List.not_mem_nil, or_false] at hmem
  rcases hmem with rfl | rfl
  · obtain ⟨more, rfl, hequals⟩ := h.exists_cons hts
    refine keepsBlame_of_fails hcut
      (fun _ => Tandem.assignment_explores (Tandem.level_expression_firm levels)) ?_
    refine fails_assignment ?_ fun t rest text heq _ => (List.cons.inj heq).2 ▸ hequals
    cases h <;> exact fun heq => absurd (Option.some.inj heq) (by decide)
  · exact keepsBlame_unmet .statement

/-- The header of a transformation is read by both, and then the statement in it. -/
theorem transformation_breaksOff (hcut : Cut p q behind) (h : us ∈ transforms)
    (hts : WordFirst ts)
    (hinside : BreaksOff p q keyword ts before (level .nothing levels).statement) :
    BreaksOff p q keyword (us ++ ts) (us ++ before)
      (transformation (level .nothing levels).statement (level .nothing levels).expression) := by
  have hkinds : ∀ kind : Transform, IsWord kind.text ∧ isKeyword kind.text = true :=
    fun kind => ⟨isWord_transform kind, isKeyword_transform kind⟩
  obtain ⟨_, ⟨kind, _, rfl⟩, _, ⟨_, rfl, triple, htriple, rfl⟩, rfl⟩ := h
  simp only [List.append_assoc]
  have hkind : ∀ rest, ReadByBoth p q (oneOf Transform.all Transform.text) [word kind.text] rest :=
    fun _ => oneOf_readByBoth hcut hkinds Transform.text_injective kind.mem_all
  refine (hkind _).breaksOff fun kind => ?_
  refine (dueSymbol_readByBoth hcut isSymbol_leftParen).breaksOff fun _ => ?_
  refine (triple_readByBoth hcut htriple hts).breaksOff fun v => ?_
  intro s t hst
  rcases hinside s t hst with ⟨a, ha⟩ | ⟨opened, t', ht', hopened⟩
  · exact .inl ⟨a, aborted_bind ha⟩
  · exact .inr ⟨opened, t', bind_of_unmatched ht', hopened⟩

/-- A block that is open starts with a word, and is a statement that breaks off if its rule does. -/
theorem breaksOff_statement_of_choices {x : Rule Statement} (hcut : Cut p q behind)
    (h : IsOpen keyword us) (hts : WordFirst ts)
    (hchoices : choices (level .nothing levels).statement (level .nothing levels).expression
      [word keyword] = [x, assignment (level .nothing levels).expression, unmet .statement])
    (hx : BreaksOff p q inner (us ++ ts) before x) :
    BreaksOff p q inner (us ++ ts) before (level .nothing (levels + 1)).statement := by
  have hrules := hx.orElse (keepsBlame_others levels hcut h hts)
  obtain ⟨more, rfl, _⟩ := h.exists_cons hts
  refine breaksOff_statement hcut ?_
  rw [hchoices]
  exact hrules

/-- At the cut the innermost block that is open is the reason for the failure. -/
theorem breaksOff_of_openBlocks (hcut : Cut p q behind) (h : OpenBlocks count us before keyword)
    (levels : Nat) : BreaksOff p q keyword us before (level .nothing levels).statement := by
  induction h generalizing levels with
  | @innermost us keyword h =>
    cases levels with
    | zero => exact fun s t _ => .inl ⟨_, rfl⟩
    | succ levels =>
      obtain ⟨x, hx, hchoices⟩ := exists_isForm hcut h levels
      have hbreaks := hx.breaksOff hcut
      rw [← List.append_nil us] at hbreaks ⊢
      exact breaksOff_statement_of_choices hcut h wordFirst_nil hchoices hbreaks
  | inside h hmore ih =>
    cases levels with
    | zero => exact fun s t _ => .inl ⟨_, rfl⟩
    | succ levels =>
      obtain ⟨x, hx, hchoices⟩ := exists_isForm hcut h levels
      exact breaksOff_statement_of_choices hcut h hmore.wordFirst hchoices
        (hx.breaksOff_inside hcut hmore (ih levels))
  | @transformed us ts before keyword count h hmore ih =>
    cases levels with
    | zero => exact fun s t _ => .inl ⟨_, rfl⟩
    | succ levels =>
      have hunmet : KeepsBlame q (us ++ ts) (firstOf [(unmet .statement : Rule Statement)]) :=
        keepsBlame_firstOf (by simpa using keepsBlame_unmet _)
      have hbreaks := (transformation_breaksOff hcut h hmore.wordFirst (ih levels)).orElse hunmet
      obtain ⟨_, ⟨kind, _, rfl⟩, _, ⟨_, rfl, triple, _, rfl⟩, rfl⟩ := h
      -- a transformation has no end of its own, so what is in it must be read to the last
      refine breaksOff_statement hcut ?_
      have hpassed := hbreaks.behind_passed hcut
        (fun _ => Tandem.assigned_explores (Tandem.level_expression_firm levels))
        (fun _ hus => mem_prefixes_of_mem hus) (fun text => ?_) (fails_assignment_transform kind)
      · cases kind <;> exact hpassed
      · exact not_mem_prefixes_assigned _ _

end SceneScript.Parser
