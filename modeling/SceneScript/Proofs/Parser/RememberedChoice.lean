import SceneScript.Proofs.Parser.RememberedStatement

/-!
# No statement is read twice

The alternatives for a statement in their order: what the ones before the assignment may have
remembered lies at the second token or behind a second token that is no `=`, and the assignment goes
on only behind a second token that is one.
-/

namespace SceneScript.Parser

open Rule Grammar

variable {α β : Type} {s t : State} {c d e : Cursor} {n : Nat}

/-! ## Where an assignment goes on -/

/-- A variable is assigned to at the first place, and the second one is behind the `=`. -/
def Assigns (c d : Cursor) : Prop :=
  ∃ word, isReserved word = false ∧
    (c.Reads [Token.ofWord word, equals] d ∨
      c.Reads [Token.ofWord "local", Token.ofWord word, equals] d)

/-- The tokens from one place agree as far as they go. -/
theorem reads_cons_inj {tok tok' : Token} {ts us : List Token} (h : c.Reads (tok :: ts) d)
    (k : c.Reads (tok' :: us) e) : tok = tok' ∧ ∃ f : Cursor, f.Reads ts d ∧ f.Reads us e := by
  obtain ⟨f, hf, hts⟩ := h
  obtain ⟨g, hg, hus⟩ := k
  rw [hf] at hg
  cases hg
  exact ⟨rfl, f, hts, hus⟩

theorem equals_ne_ofWord (word : String) : equals ≠ Token.ofWord word := by
  intro h
  rcases Token.ofWord_eq word with hw | hw <;> rw [hw] at h <;> cases h

theorem Assigns.pos_lt (h : Assigns c d) : c.afterTrivia.pos < d.afterTrivia.pos := by
  obtain ⟨word, _, h | h⟩ := h
  · exact h.pos_lt_afterTrivia (by simp)
  · exact h.pos_lt_afterTrivia (by simp)

theorem assigns_of_assignee {target : Bool × String} (h : assignee s = .matched target t) :
    Assigns s.cursor t.cursor := by
  obtain ⟨isLocal, word⟩ := target
  obtain ⟨_, hreads, rfl, hname, _⟩ := yields_assignee _ _ _ h
  have hfree : isReserved word = false := by
    generalize Token.ofWord word = tok at hname
    cases hname <;> assumption
  refine ⟨word, hfree, ?_⟩
  cases isLocal
  · exact .inl hreads
  · exact .inr hreads

/-- What is assigned to by the word that stands first, and where the `=` stands. -/
theorem Assigns.second {word : String} {ts : List Token} (h : Assigns c d)
    (k : c.Reads (Token.ofWord word :: ts) e) (hlocal : word ≠ "local") :
    isReserved word = false ∧ ∃ f : Cursor, f.Reads [equals] d ∧ f.Reads ts e := by
  obtain ⟨other, hfree, h | h⟩ := h
  · obtain ⟨heq, hbehind⟩ := reads_cons_inj h k
    rw [← Token.ofWord_inj heq]
    exact ⟨hfree, hbehind⟩
  · obtain ⟨heq, _⟩ := reads_cons_inj h k
    exact absurd (Token.ofWord_inj heq).symm hlocal

/-- Nothing is assigned to where no word stands. -/
theorem not_assigns_of_word?_none (hs : c.Settled) (hword : c.word? = none) : ¬Assigns c d := by
  rintro ⟨word, _, h | h⟩
  all_goals
    obtain ⟨e, he, _⟩ := h
    have he' := Cursor.eq_afterWord_of_next? hs he
    rw [he', ← Cursor.word?_eq_some_iff hs, hword] at he
    cases he

/-! ## Assignments -/

/-- An assignment goes on only over its `=`, and never touches the table of statements. -/
theorem assignment_paired (hcursor : s.cursor = t.cursor) (hf : SameFailure s t)
    (hahead : ∀ d, Assigns s.cursor d → Unseen s.statements d ∧ Unseen s.expressions d) :
    Reply.Paired (fun v w s t => v = w ∧ Fair s t)
      (fun s' t' => SameFailure s' t' ∧ s'.statements = s.statements ∧
        (s'.expressions = s.expressions ∨ ∃ d, Assigns s.cursor d)) Eq
      (assignment (level .tables n).expression s) (assignment (level .nothing n).expression t) := by
  have htarget := (untouchedBlocks s).assignee_agree (m := .operand) s t (at_untouched hcursor hf)
  cases hx : assignee s <;> cases hy : assignee t <;> simp only [hx, hy, Reply.Paired] at htarget <;>
    unfold assignment <;> rw [bind_apply, bind_apply, hx, hy]
  · rename_i target s1 target' t1
    obtain ⟨rfl, ⟨hcursor1, _⟩, hf1, hs1, he1⟩ := htarget
    have hassigns := assigns_of_assignee hx
    obtain ⟨hstatements, hexpressions⟩ := hahead _ hassigns
    have hclean : Clean s1 t1 := ⟨hcursor1, hf1, hs1 ▸ hstatements, he1 ▸ hexpressions⟩
    have hvalue := level_tables_firm n (m := .operand) (by decide) rfl s1 t1
      (hclean.remembering n)
    refine paired_bind (hvalue.mono (fun _ _ _ _ hst => hst) ?_) ?_
    · rintro s' t' ⟨_, hf', hs', _⟩
      exact ⟨hf', hs'.trans hs1, .inr ⟨_, hassigns⟩⟩
    · rintro value _ s' t' ⟨rfl, hover⟩
      exact ⟨rfl, (over_of_remembering hclean hover).fair⟩
  · obtain ⟨hf1, hs1, he1⟩ := htarget
    exact ⟨hf1, hs1, .inl he1⟩
  · exact htarget

/-! ## Traces in the tables -/

theorem tables_of_unmatched {x : Rule α}
    (h : ∀ given, (untouched given).lockstep.Agree .operand .operand x x)
    (hx : x s = .unmatched t) : t.statements = s.statements ∧ t.expressions = s.expressions := by
  have hpair := h s s s (at_untouched rfl rfl)
  rw [hx] at hpair
  exact hpair.2

theorem tables_of_matched {x : Rule α} {value : α}
    (h : ∀ given, (untouched given).lockstep.Agree .operand .operand x x)
    (hx : x s = .matched value t) : t.statements = s.statements ∧ t.expressions = s.expressions := by
  have hpair := h s s s (at_untouched rfl rfl)
  rw [hx] at hpair
  exact hpair.2.2.2

/-- The answer of a rule for statements, remembered at a place. -/
def noted (p : Nat) : Reply Statement → Reply Statement
  | .matched value t =>
    .matched value { t with statements := t.statements.insert p (some (value, t.cursor)) }
  | .unmatched t => .unmatched { t with statements := t.statements.insert p none }
  | .aborted a => .aborted a

/-- A statement that is not in the table is looked for and then is. -/
theorem remember_unseen {rule : Rule Statement} (h : s.statements[s.cursor.pos]? = none) :
    Memory.tables.statement rule s = noted s.cursor.pos (rule s) := by
  unfold Memory.tables remember
  dsimp only
  rw [h]
  dsimp only
  cases rule s <;> rfl

theorem level_tables_statement (h : Unseen s.statements s.cursor) :
    (level .tables (n + 1)).statement s = noted s.cursor.afterTrivia.pos
      (anyStatement (level .tables n).statement (level .tables n).expression
        (s.moveTo s.cursor.afterTrivia)) :=
  remember_unseen (s := s.moveTo s.cursor.afterTrivia) (h _ (Nat.le_refl _))

theorem ledBy_none (led : Led) : ledBy none led = [] := by
  unfold ledBy
  rw [List.map_eq_nil_iff, List.filter_eq_nil_iff]
  intro entry _
  simp

/-- Where no word stands, a statement is looked for in vain, and that is all that is remembered. -/
theorem statement_quiet (hword : s.cursor.afterTrivia.word? = none)
    (hunseen : Unseen s.statements s.cursor) :
    (∃ a, (level .tables n).statement s = .aborted a) ∨
      ∃ t, (level .tables n).statement s = .unmatched t ∧ t.expressions = s.expressions ∧
        ∀ d, s.cursor.afterTrivia.pos < d.afterTrivia.pos → Unseen t.statements d := by
  cases n with
  | zero =>
    left
    have hlook : s.statements[s.cursor.afterTrivia.pos]? = none := hunseen _ (Nat.le_refl _)
    have habort : Memory.tables.statement (stop .tooDeep) (s.moveTo s.cursor.afterTrivia)
        = .aborted (.tooDeep s.cursor.afterTrivia) := remember_unseen hlook
    exact ⟨_, habort⟩
  | succ n =>
    rw [level_tables_statement hunseen, anyStatement_eq _ _ (Cursor.settled_afterTrivia _)]
    rw [State.cursor_moveTo, hword, ledBy_none, ledBy_none]
    have hnone : ∀ d, ¬Assigns s.cursor.afterTrivia d := fun d =>
      not_assigns_of_word?_none (Cursor.settled_afterTrivia _) hword
    have hassign := assignment_paired (s := s.moveTo s.cursor.afterTrivia) (n := n) rfl rfl
      fun d hd => absurd hd (hnone d)
    -- without a word at the place an assignment is all that can be tried, and it cannot match
    cases hx : assignment (level .tables n).expression (s.moveTo s.cursor.afterTrivia) with
    | matched value t =>
      obtain ⟨target, u, htarget, _⟩ := matched_bind hx
      exact absurd (assigns_of_assignee htarget) (hnone _)
    | unmatched t =>
      right
      rw [hx] at hassign
      cases hy : assignment (level .nothing n).expression (s.moveTo s.cursor.afterTrivia) <;>
        rw [hy] at hassign <;> simp only [Reply.Paired] at hassign
      obtain ⟨_, hs, he⟩ := hassign
      refine ⟨_, congrArg (noted _) (orElse_of_unmatched hx), ?_, ?_⟩
      · rcases he with he | ⟨d, hd⟩
        · exact he
        · exact absurd hd (hnone d)
      · intro d hd
        refine Unseen.insert ?_ hd
        show Unseen t.statements d
        rw [hs]
        exact hunseen.mono (by omega)
    | aborted a =>
      exact .inl ⟨a, congrArg (noted _) (orElse_of_aborted hx)⟩

/-- Where a `=` stands, an expression is looked for in vain, and that is all that is remembered. -/
theorem expression_quiet (hnext : s.cursor.next? = some (equals, e))
    (hunseen : Unseen s.expressions s.cursor) :
    (∃ a, (level .tables n).expression s = .aborted a) ∨
      ∃ t, (level .tables n).expression s = .unmatched t ∧ t.statements = s.statements ∧
        ∀ d, s.cursor.afterTrivia.pos < d.afterTrivia.pos → Unseen t.expressions d := by
  have hstart : (remembering s.cursor n s.statements).lockstep.At .operand s s := by
    refine ⟨⟨rfl, Path.refl s.cursor⟩, rfl, rfl, fun p answer hp hle => ?_⟩
    rw [hunseen p hle] at hp
    cases hp
  have hpair := level_tables_firm n (m := .operand) (by decide) rfl s s hstart
  -- an expression cannot go on over the `=`
  have hstays : ∀ c m, Path s.cursor c m → s.cursor.afterTrivia = c.afterTrivia ∧ .operand = m := by
    intro c m hpath
    rcases (Path.refl s.cursor).extend hpath hpath.pos_le with heq | ⟨_, tok, f, m', hnext', hstep⟩
    · exact heq
    · rw [hnext] at hnext'
      cases hnext'
      cases hstep
  cases hx : (level .tables n).expression s with
  | matched value t =>
    rw [hx] at hpair
    cases hy : (level .nothing n).expression s <;> rw [hy] at hpair <;>
      simp only [Reply.Paired] at hpair
    obtain ⟨_, ⟨_, hpath⟩, _⟩ := hpair
    have hmode := (hstays _ _ hpath).2
    cases hmode
  | unmatched t =>
    right
    rw [hx] at hpair
    cases hy : (level .nothing n).expression s <;> rw [hy] at hpair <;>
      simp only [Reply.Paired] at hpair
    obtain ⟨_, _, hs, hkept⟩ := hpair
    refine ⟨t, rfl, hs, fun d hd p hp => ?_⟩
    rw [Option.eq_none_iff_forall_ne_some]
    intro answer hanswer
    obtain ⟨c, m, hc, hrec⟩ := hkept p answer hanswer (by omega)
    have heq := (hstays c m hrec.path).1
    rw [hrec.settled] at heq
    rw [heq, hc] at hd
    omega
  | aborted a => exact .inl ⟨a, rfl⟩

/-! ## Alternatives before the assignment -/

/-- The same failure is the farthest, and the tables are clean where an assignment goes on. -/
def Left (c : Cursor) (s t : State) : Prop :=
  SameFailure s t ∧ ∀ d, Assigns c d → Unseen s.statements d ∧ Unseen s.expressions d

theorem lead_left {x y : Rule Statement} (h : Ends x y) (hst : Clean s t)
    (htrace : ∀ u, x s = .unmatched u → ∀ d, Assigns s.cursor d →
      Unseen u.statements d ∧ Unseen u.expressions d) :
    Reply.Paired (fun v w s t => v = w ∧ Fair s t) (Left s.cursor) Eq (x s) (y t) := by
  have hpair := h s t hst
  cases hx : x s <;> cases hy : y t <;> simp only [hx, hy, Reply.Paired] at hpair ⊢
  · exact hpair
  · exact ⟨hpair, htrace _ hx⟩
  · exact hpair

/-- Nothing is assigned to a reserved word. -/
theorem not_assigns_of_reserved (hs : c.Settled) {word : String} (hword : c.word? = some word)
    (hreserved : isReserved word = true) (hlocal : word ≠ "local") : ¬Assigns c d := by
  intro h
  have hreads := Cursor.reads_of_next? ((Cursor.word?_eq_some_iff hs).1 hword)
  rw [(h.second hreads hlocal).1] at hreserved
  cases hreserved

/-- Two words are passed before anything is remembered. -/
theorem trace_of_words {x : Rule α} {y : Rule β} {g : β → Rule Statement} {word : String}
    (hlocal : word ≠ "local")
    (hx : ∀ given, (untouched given).lockstep.Agree .operand .operand x x)
    (hy : ∀ given, (untouched given).lockstep.Agree .operand .operand y y)
    (hreads : ∀ s v t, x s = .matched v t → s.cursor.Reads [Token.ofWord word] t.cursor)
    (hreads' : ∀ s v t, y s = .matched v t → ∃ other, s.cursor.Reads [Token.ofWord other] t.cursor)
    (hstatements : Unseen s.statements s.cursor) (hexpressions : Unseen s.expressions s.cursor)
    (hm : (x >>= fun _ => y >>= g) s = .unmatched t) (hd : Assigns s.cursor d) :
    Unseen t.statements d ∧ Unseen t.expressions d := by
  have hlt := hd.pos_lt
  have hclean : ∀ u : State, u.statements = s.statements ∧ u.expressions = s.expressions →
      Unseen u.statements d ∧ Unseen u.expressions d := by
    rintro u ⟨hs, he⟩
    rw [hs, he]
    exact ⟨hstatements.mono (by omega), hexpressions.mono (by omega)⟩
  rcases unmatched_bind hm with hm | ⟨_, s1, h1, hm⟩
  · -- the first word is not there, and then nothing has been looked at
    exact hclean t (tables_of_unmatched hx hm)
  obtain ⟨hs1, he1⟩ := tables_of_matched hx h1
  rcases unmatched_bind hm with hm | ⟨_, s2, h2, _⟩
  · obtain ⟨hs2, he2⟩ := tables_of_unmatched hy hm
    exact hclean t ⟨hs2.trans hs1, he2.trans he1⟩
  · -- the second token is a word and no `=`
    obtain ⟨other, hother⟩ := hreads' _ _ _ h2
    obtain ⟨_, f, hf, hf'⟩ := hd.second (hreads _ _ _ h1) hlocal
    have hsecond : f.Reads [Token.ofWord other] s2.cursor := by
      simpa using hf'.trans hother
    exact absurd (reads_cons_inj hf hsecond).1 (equals_ne_ofWord other)

/-- Behind an opening word, the `=` of an assignment is found where the block should begin. -/
theorem equals_of_opening {word : String} {place : Cursor} {u : State} (hw : Cursor.IsWord word)
    (hlocal : word ≠ "local") (h : opening word s = .matched place u) (hd : Assigns s.cursor d) :
    ∃ e, u.cursor.next? = some (equals, e) ∧ u.cursor.afterTrivia.pos < d.afterTrivia.pos := by
  obtain ⟨_, f, hf, hf'⟩ := hd.second (matched_opening hw h).2 hlocal
  have hequals : u.cursor.afterTrivia.Reads [equals] d.afterTrivia := by
    rw [← hf'.2]
    exact hf.afterTrivia
  have hlt := hequals.pos_lt (by simp)
  obtain ⟨e, he, _⟩ := hequals
  rw [Cursor.next?_afterTrivia] at he
  rw [Cursor.afterTrivia_afterTrivia] at hlt
  exact ⟨e, he, hlt⟩

theorem opening_tables {word : String} {place : Cursor} {u : State} (hw : Cursor.IsWord word)
    (h : opening word s = .matched place u) :
    u.statements = s.statements ∧ u.expressions = s.expressions := by
  have hpair := (untouchedBlocks s).opening_paired hw (m := .operand) (n := .operand) s s
    (at_untouched rfl rfl)
  rw [h] at hpair
  exact hpair.2.2.2

theorem opening_tables_unmatched {word : String} (hw : Cursor.IsWord word)
    (h : opening word s = .unmatched t) :
    t.statements = s.statements ∧ t.expressions = s.expressions := by
  have hpair := (untouchedBlocks s).opening_paired hw (m := .operand) (n := .operand) s s
    (at_untouched rfl rfl)
  rw [h] at hpair
  exact hpair.2.2

theorem block_trace (hstatements : Unseen s.statements s.cursor)
    (hexpressions : Unseen s.expressions s.cursor)
    (hm : block (level .tables n).statement s = .unmatched t) (hd : Assigns s.cursor d) :
    Unseen t.statements d ∧ Unseen t.expressions d := by
  have hlt := hd.pos_lt
  rcases unmatched_bind hm with hm | ⟨opened, u, hopen, hm⟩
  · obtain ⟨hs, he⟩ := opening_tables_unmatched (by decide) hm
    rw [hs, he]
    exact ⟨hstatements.mono (by omega), hexpressions.mono (by omega)⟩
  obtain ⟨hs, he⟩ := opening_tables (by decide) hopen
  obtain ⟨e, hnext, hud⟩ := equals_of_opening (by decide) (by decide) hopen hd
  have hle : s.cursor.afterTrivia.pos ≤ u.cursor.afterTrivia.pos :=
    (matched_opening (by decide) hopen).2.pos_le
  have hquiet := statement_quiet (n := n) (word?_eq_none_of_next? hnext equals_ne_ofWord)
    (hs ▸ hstatements.mono hle)
  rcases unmatched_bind hm with hm | ⟨body, w, hmany, hm⟩
  · exact absurd hm (many_ne_unmatched _ _ _)
  rw [Rule.many] at hmany
  rcases hquiet with ⟨a, habort⟩ | ⟨v, hv, hve, hvs⟩
  · rw [habort] at hmany
    cases hmany
  · rw [hv] at hmany
    cases hmany
    rcases unmatched_bind hm with hm | ⟨_, _, _, hm⟩
    · obtain ⟨hts, hte⟩ := tables_of_unmatched
        (fun given => (untouchedBlocks given).closing_agree "do" (c := opened) rfl) hm
      rw [hts, hte, hve, he]
      exact ⟨hvs d hud, hexpressions.mono (by omega)⟩
    · cases hm

/-- A condition begins with an expression. -/
theorem condition_trace {word : String} {f : Cursor → Expr → Rule Statement}
    (hw : Cursor.IsWord word) (hlocal : word ≠ "local")
    (hstatements : Unseen s.statements s.cursor) (hexpressions : Unseen s.expressions s.cursor)
    (hm : (opening word >>= fun opened => condition (level .tables n).expression >>= f opened) s
      = .unmatched t) (hd : Assigns s.cursor d) :
    Unseen t.statements d ∧ Unseen t.expressions d := by
  have hlt := hd.pos_lt
  rcases unmatched_bind hm with hm | ⟨opened, u, hopen, hm⟩
  · obtain ⟨hs, he⟩ := opening_tables_unmatched hw hm
    rw [hs, he]
    exact ⟨hstatements.mono (by omega), hexpressions.mono (by omega)⟩
  obtain ⟨hs, he⟩ := opening_tables hw hopen
  -- where a `=` is behind the word no expression can be read, nor anything remembered further on
  obtain ⟨e, hnext, hud⟩ := equals_of_opening hw hlocal hopen hd
  have hle : s.cursor.afterTrivia.pos ≤ u.cursor.afterTrivia.pos :=
    (matched_opening hw hopen).2.pos_le
  have hquiet := expression_quiet (n := n) hnext (he ▸ hexpressions.mono hle)
  rcases hquiet with ⟨a, habort⟩ | ⟨v, hv, hvs, hve⟩
  · have hcondition : condition (level .tables n).expression u = .aborted a := aborted_bind habort
    rw [aborted_bind hcondition] at hm
    cases hm
  · rcases unmatched_bind hm with hm | ⟨_, _, hcondition, _⟩
    · rcases unmatched_bind hm with hm | ⟨_, _, hmatched, _⟩
      · rw [hv] at hm
        cases hm
        rw [hvs, hs]
        exact ⟨hstatements.mono (by omega), hve d hud⟩
      · rw [hv] at hmatched
        cases hmatched
    · obtain ⟨_, _, hmatched, _⟩ := matched_bind hcondition
      rw [hv] at hmatched
      cases hmatched

/-! ## Every alternative -/

section

variable {word : String}

theorem left_of_single {x y : Rule Statement} (h : Reply.Paired (fun v w s t => v = w ∧ Fair s t)
    (Left s.cursor) Eq (x s) (y t)) : Reply.Paired (fun v w s t => v = w ∧ Fair s t)
    (Left s.cursor) Eq (firstOf [x] s) (firstOf [y] t) :=
  paired_orElse h fun _ _ hleft => hleft

theorem left_of_reserved {x y : Rule Statement} (h : Ends x y) (hst : Clean s t)
    (hs : s.cursor.Settled) (hword : s.cursor.word? = some word)
    (hreserved : isReserved word = true) (hlocal : word ≠ "local") :
    Reply.Paired (fun v w s t => v = w ∧ Fair s t) (Left s.cursor) Eq (x s) (y t) :=
  lead_left h hst fun _ _ _ hd => absurd hd (not_assigns_of_reserved hs hword hreserved hlocal)

/-- Behind `append light`, no command is found, whatever has been remembered. -/
theorem command_of_light (hcursor : s.cursor = t.cursor) (hf : SameFailure s t)
    (hlight : s.cursor.Reads [Token.ofWord "append", Token.ofWord "light"] e) :
    Reply.Paired (fun v w s t => v = w ∧ Fair s t) SameFailure Eq
      (command (level .tables n).expression s) (command (level .nothing n).expression t) := by
  have hname := (untouchedBlocks s).uniform.oneOf (m := .operand) (n := .operand)
    (fun name (_ : name ∈ Command.all) => Cursor.isWord_command name) s t (at_untouched hcursor hf)
  unfold command
  cases hx : oneOf Command.all Command.text s <;> cases hy : oneOf Command.all Command.text t <;>
    simp only [hx, hy, Reply.Paired] at hname <;> rw [bind_apply, bind_apply, hx, hy]
  · rename_i name s1 name' t1
    obtain ⟨rfl, hat⟩ := hname
    obtain ⟨_, hreads, rfl⟩ := yields_oneOf (fun name _ => Cursor.isWord_command name) _ _ _ hx
    obtain ⟨_, f, hf, hf'⟩ := reads_cons_inj hlight hreads
    have hopen := (untouchedBlocks s).uniform.dueSymbol (m := .operand) (n := .operand)
      Cursor.isSymbol_leftParen s1 t1 hat
    refine paired_bind (V := fun v w s t => v = w ∧ Fair s t) ?_ ?_
    · unfold arguments
      cases hx' : dueSymbol "(" s1 <;> cases hy' : dueSymbol "(" t1 <;>
        simp only [hx', hy', Reply.Paired] at hopen <;> rw [bind_apply, bind_apply, hx', hy']
      · -- behind `append` there is the word `light`, and no parenthesis
        have hparen := matched_dueSymbol Cursor.isSymbol_leftParen hx'
        have hboth := reads_cons_inj hf (by simpa using hf'.trans hparen)
        exact absurd hboth.1 (by decide)
      · exact hopen.2.1
      · exact hopen
    · rintro v _ s' t' ⟨rfl, hfair⟩
      exact ⟨rfl, hfair⟩
  · exact hname.2.1
  · exact hname

/-- What `append` leads: a light, or else a command. -/
theorem append_left (hst : Clean s t) (hs : s.cursor.Settled)
    (hword : s.cursor.word? = some "append") :
    Reply.Paired (fun v w s t => v = w ∧ Fair s t) (Left s.cursor) Eq
      (firstOf [light (level .tables n).expression, command (level .tables n).expression] s)
      (firstOf [light (level .nothing n).expression, command (level .nothing n).expression] t) := by
  have hnone : ∀ d, ¬Assigns s.cursor d := fun d =>
    not_assigns_of_reserved hs hword (by decide) (by decide)
  have hleft : ∀ u w : State, SameFailure u w → Left s.cursor u w := fun u w hf =>
    ⟨hf, fun d hd => absurd hd (hnone d)⟩
  have hlight := light_ends (n := n) s t hst
  refine paired_orElse (U := fun u w => SameFailure u w ∧
    (light (level .tables n).expression s = .unmatched u)) ?_ ?_
  · cases hx : light (level .tables n).expression s <;>
      cases hy : light (level .nothing n).expression t <;>
      simp only [hx, hy, Reply.Paired] at hlight ⊢
    · exact hlight
    · exact ⟨hlight, trivial⟩
    · exact hlight
  · rintro u w ⟨hf, hu⟩
    refine paired_orElse (U := SameFailure) ?_ fun _ _ hf => hleft _ _ hf
    -- either no light begins here and the tables are clean, or no command does
    rcases unmatched_bind hu with hu | ⟨_, s1, h1, hu⟩
    · obtain ⟨hus, hue⟩ := tables_of_unmatched (keyword_untouched (by decide)) hu
      exact command_ends _ _ ⟨hst.cursor, hf, hus ▸ hst.statements, hue ▸ hst.expressions⟩
    · obtain ⟨hs1, he1⟩ := tables_of_matched (keyword_untouched (by decide)) h1
      rcases unmatched_bind hu with hu | ⟨_, s2, h2, _⟩
      · obtain ⟨hus, hue⟩ := tables_of_unmatched (dueKeyword_untouched (by decide)) hu
        refine command_ends _ _ ⟨hst.cursor, hf, ?_, ?_⟩
        · exact (hus.trans hs1) ▸ hst.statements
        · exact (hue.trans he1) ▸ hst.expressions
      · have hreads := (matched_keyword (by decide) h1).trans (matched_dueKeyword (by decide) h2)
        exact command_of_light (s := u.moveTo s.cursor) hst.cursor hf hreads

theorem ledBefore_left (hst : Clean s t) (hs : s.cursor.Settled)
    (hword : s.cursor.word? = some word)
    (ih : Halts (level .tables n).statement (level .nothing n).statement) :
    Reply.Paired (fun v w s t => v = w ∧ Fair s t) (Left s.cursor) Eq
      (firstOf (ledBy (some word) (ledBefore (level .tables n).statement
        (level .tables n).expression)) s)
      (firstOf (ledBy (some word) (ledBefore (level .nothing n).statement
        (level .nothing n).expression)) t) := by
  -- each word leads to one alternative, or with `append` to two
  by_cases h1 : word = "set"
  · subst h1
    -- the words behind it tell where the alternative has looked
    refine left_of_single (lead_left camera_ends hst fun u hu d hd => ?_)
    exact trace_of_words (by decide) (keyword_untouched (by decide))
      (dueKeyword_untouched (by decide))
      (fun _ _ _ => matched_keyword (by decide))
      (fun _ _ _ h => ⟨"camera", matched_dueKeyword (by decide) h⟩)
      hst.statements hst.expressions hu hd
  by_cases h2 : word = "append"
  · subst h2
    exact append_left hst hs hword
  by_cases h3 : word = "do"
  · subst h3
    refine left_of_single (lead_left (block_ends ih) hst fun u hu d hd => ?_)
    exact block_trace hst.statements hst.expressions hu hd
  by_cases h4 : word = "if"
  · subst h4
    refine left_of_single (lead_left (conditional_ends ih) hst fun u hu d hd => ?_)
    exact condition_trace (by decide) (by decide) hst.statements hst.expressions hu hd
  by_cases h5 : word = "while"
  · subst h5
    refine left_of_single (lead_left (loop_ends ih) hst fun u hu d hd => ?_)
    exact condition_trace (by decide) (by decide) hst.statements hst.expressions hu hd
  by_cases h6 : word = "call"
  · subst h6
    refine left_of_single (lead_left call_ends hst fun u hu d hd => ?_)
    exact trace_of_words (by decide) (keyword_untouched (by decide)) (dueName_untouched _)
      (fun _ _ _ => matched_keyword (by decide))
      (fun _ _ _ h => ⟨_, (matched_dueName h).1⟩)
      hst.statements hst.expressions hu hd
  by_cases h7 : word = "function"
  · subst h7
    exact left_of_single
      -- a reserved word cannot be the name of an assignment, so nothing is tried behind it
      (left_of_reserved (definition_ends ih) hst hs hword (by decide) (by decide))
  by_cases h8 : word = "draw"
  · subst h8
    exact left_of_single (left_of_reserved command_ends hst hs hword (by decide) (by decide))
  by_cases h9 : word = "display"
  · subst h9
    exact left_of_single (left_of_reserved command_ends hst hs hword (by decide) (by decide))
  · -- any other word leads no alternative before the assignment
    have hnone : ∀ statement expression, ledBy (some word) (ledBefore statement expression) = [] := by
      intro statement expression
      simp [ledBy, ledBefore, h1, h2, h3, h4, h5, h6, h7, h8, h9]
    rw [hnone, hnone]
    exact ⟨hst.farthest, fun d hd =>
      ⟨hst.statements.mono (Nat.le_of_lt hd.pos_lt), hst.expressions.mono (Nat.le_of_lt hd.pos_lt)⟩⟩

/-! ## All statements -/

theorem unmet_halted {V : Statement → Statement → State → State → Prop} (h : Halted s t) :
    Reply.Paired V Halted Eq (firstOf [unmet .statement] s) (firstOf [unmet .statement] t) := by
  refine ⟨h.cursor, ?_, h.behind⟩
  show s.farthest.expect s.cursor _ = t.farthest.expect t.cursor _
  rw [h.farthest, h.cursor]

/-- Where an assignment is tried last, its failure leaves nothing behind the `end` of a block. -/
theorem assignment_halts (hcursor : s.cursor = t.cursor) (hf : SameFailure s t)
    (hs : s.cursor.Settled)
    (hahead : ∀ d, Assigns s.cursor d → Unseen s.statements d ∧ Unseen s.expressions d)
    (hend : s.cursor.word? = some "end" →
      Unseen s.statements s.cursor ∧ Unseen s.expressions s.cursor) :
    Reply.Paired (fun v w s t => v = w ∧ Fair s t) Halted Eq
      (firstOf [assignment (level .tables n).expression, unmet .statement] s)
      (firstOf [assignment (level .nothing n).expression, unmet .statement] t) := by
  refine paired_orElse (assignment_paired hcursor hf hahead) ?_
  rintro u w ⟨hf', hus, hue⟩
  refine unmet_halted ⟨hcursor, hf', fun d hd => ?_⟩
  have hd : s.cursor.afterTrivia.afterKeyword? "end" = some d := hd
  obtain ⟨hlt, hword⟩ := pos_le_of_afterKeyword? (by decide) hd
  have hnext := (Cursor.afterKeyword?_eq_some_iff (Cursor.settled_afterTrivia _) (by decide)).1 hd
  rw [hs] at hword
  obtain ⟨hstatements, hexpressions⟩ := hend hword
  refine ⟨?_, ?_⟩
  · show Unseen u.statements d
    rw [hus]
    exact hstatements.mono (by omega)
  · show Unseen u.expressions d ∨ _
    rcases hue with hue | ⟨e, he⟩
    · rw [hue]
      exact .inl (hexpressions.mono (by omega))
    · -- the `end` is assigned to, and a `=` is behind it
      right
      have hreads := Cursor.reads_of_next? hnext
      rw [hs] at hreads
      obtain ⟨_, f, hequals, hbehind⟩ := he.second hreads (by decide)
      obtain ⟨g, hg, _⟩ := hequals
      rw [Cursor.next?_eq_of_afterTrivia_eq hbehind.2] at hg
      exact word?_eq_none_of_next? hg equals_ne_ofWord

/-- What comes after the assignment starts with a reserved word. -/
theorem transformation_halts (hst : Clean s t) (hs : s.cursor.Settled)
    (hword : s.cursor.word? = some word) (hmem : word ∈ ["scale", "rotate", "translate"])
    (ih : Halts (level .tables n).statement (level .nothing n).statement) :
    Reply.Paired (fun v w s t => v = w ∧ Fair s t) Halted Eq
      (firstOf [assignment (level .tables n).expression,
        transformation (level .tables n).statement (level .tables n).expression,
        unmet .statement] s)
      (firstOf [assignment (level .nothing n).expression,
        transformation (level .nothing n).statement (level .nothing n).expression,
        unmet .statement] t) := by
  have hreserved : ∀ word ∈ ["scale", "rotate", "translate"],
      isReserved word = true ∧ word ≠ "local" ∧ word ≠ "end" := by decide
  obtain ⟨hreserved, hlocal, hend⟩ := hreserved word hmem
  have hnone : ∀ d, ¬Assigns s.cursor d := fun d =>
    not_assigns_of_reserved hs hword hreserved hlocal
  refine paired_orElse (assignment_paired hst.cursor hst.farthest
    fun d hd => absurd hd (hnone d)) ?_
  rintro u w ⟨hf, hus, hue⟩
  have hue : u.expressions = s.expressions := by
    rcases hue with hue | ⟨d, hd⟩
    · exact hue
    · exact absurd hd (hnone d)
  have hclean : Clean (u.moveTo s.cursor) (w.moveTo t.cursor) :=
    ⟨hst.cursor, hf, hus ▸ hst.statements, hue ▸ hst.expressions⟩
  refine paired_orElse (transformation_ends ih _ _ hclean) fun u' w' hf' => ?_
  refine unmet_halted ⟨hst.cursor, hf', fun d hd => ?_⟩
  have hd : s.cursor.afterTrivia.afterKeyword? "end" = some d := hd
  have hword' := (pos_le_of_afterKeyword? (by decide) hd).2
  rw [hs, hword] at hword'
  exact absurd (Option.some.inj hword') hend

end

theorem anyStatement_paired (ih : Halts (level .tables n).statement (level .nothing n).statement)
    (h : Fair s t) (hs : s.cursor.Settled) :
    Reply.Paired (fun v w s t => v = w ∧ Fair s t) Halted Eq
      (anyStatement (level .tables n).statement (level .tables n).expression s)
      (anyStatement (level .nothing n).statement (level .nothing n).expression t) := by
  rw [anyStatement_eq _ _ hs, anyStatement_eq _ _ (h.cursor ▸ hs), ← h.cursor]
  cases hword : s.cursor.word? with
  | none =>
    rw [ledBy_none, ledBy_none, ledBy_none, ledBy_none]
    refine assignment_halts h.cursor h.farthest hs (fun d hd => ?_) fun hend => ?_
    · exact absurd hd (not_assigns_of_word?_none hs hword)
    · rw [hword] at hend
      cases hend
  | some word =>
    -- a word stands here, so no expression has been read past this place
    have hclean : Clean s t := by
      refine ⟨h.cursor, h.farthest, h.statements, ?_⟩
      rcases h.expressions with hunseen | hnone
      · exact hunseen
      · rw [hs, hword] at hnone
        cases hnone
    by_cases hafter : word ∈ ["scale", "rotate", "translate"]
    · have hhalts := transformation_halts hclean hs hword hafter ih
      simp only [List.mem_cons, List.not_mem_nil, or_false] at hafter
      rcases hafter with rfl | rfl | rfl <;> exact hhalts
    have hnone : ∀ statement expression, ledBy (some word) (ledAfter statement expression) = [] := by
      intro statement expression
      simp only [List.mem_cons, List.not_mem_nil, or_false, not_or] at hafter
      simp [ledBy, ledAfter, hafter]
    rw [hnone, hnone]
    have hahead : ∀ d, Assigns s.cursor d → Unseen s.statements d ∧ Unseen s.expressions d :=
      fun d hd => ⟨hclean.statements.mono (Nat.le_of_lt hd.pos_lt),
        hclean.expressions.mono (Nat.le_of_lt hd.pos_lt)⟩
    -- `end` leads no alternative, so an assignment is all that is tried
    by_cases hend : word = "end"
    · subst hend
      exact assignment_halts h.cursor h.farthest hs hahead fun _ =>
        ⟨hclean.statements, hclean.expressions⟩
    rw [firstOf_append, firstOf_append]
    refine paired_orElse (ledBefore_left hclean hs hword ih) ?_
    rintro u w ⟨hf, hleft⟩
    refine assignment_halts (s := u.moveTo s.cursor) (t := w.moveTo t.cursor) h.cursor hf hs hleft
      fun hend' => ?_
    have hend' : s.cursor.word? = some "end" := hend'
    rw [hword] at hend'
    exact absurd (Option.some.inj hend') hend

/-- A parser that remembers statements and expressions keeps step with one that does not. -/
theorem level_tables_halts (n : Nat) :
    Halts (level .tables n).statement (level .nothing n).statement := by
  induction n with
  | zero =>
    intro s t h
    have habort : Memory.tables.statement (stop .tooDeep) (s.moveTo s.cursor.afterTrivia)
        = .aborted (.tooDeep s.cursor.afterTrivia) :=
      remember_unseen (h.statements _ (Nat.le_refl _))
    have hleft : (level .tables 0).statement s = .aborted (.tooDeep s.cursor.afterTrivia) := habort
    rw [hleft, h.cursor]
    rfl
  | succ n ih =>
    intro s t h
    rw [level_tables_statement h.statements]
    have hpair := anyStatement_paired ih h.afterTrivia (Cursor.settled_afterTrivia _)
    show Reply.Paired _ _ _ (noted _ _) (anyStatement (level .nothing n).statement
      (level .nothing n).expression (t.moveTo t.cursor.afterTrivia))
    cases hx : anyStatement (level .tables n).statement (level .tables n).expression
        (s.moveTo s.cursor.afterTrivia) <;>
      cases hy : anyStatement (level .nothing n).statement (level .nothing n).expression
        (t.moveTo t.cursor.afterTrivia) <;>
      simp only [hx, hy, Reply.Paired] at hpair
    · rename_i v s' w t'
      obtain ⟨rfl, hfair⟩ := hpair
      obtain ⟨ts, hts, hread⟩ := anyStatement_sound (within_level n) (inside_level n) _ _ _ hy
      -- the new entry lies before the cursor, because a statement has been read
      have hlt := hts.pos_lt_afterTrivia (isStatement_ne_nil hread.isStatement)
      rw [State.cursor_moveTo, Cursor.afterTrivia_afterTrivia, ← h.cursor, ← hfair.cursor] at hlt
      exact ⟨rfl, hfair.cursor, hfair.farthest, hfair.statements.insert hlt, hfair.expressions⟩
    · rename_i s' t'
      refine ⟨hpair.cursor, hpair.farthest, fun d hd => ?_⟩
      obtain ⟨hstatements, hexpressions⟩ := hpair.behind d hd
      refine ⟨hstatements.insert ?_, hexpressions⟩
      -- here it lies at the cursor, and before what is behind an `end`
      have hcursor := cursor_of_unmatched_firstOf hy
      have hlt := (pos_le_of_afterKeyword? (by decide) hd).1
      have hs' : s'.cursor = s.cursor.afterTrivia := by
        rw [hpair.cursor, hcursor, State.cursor_moveTo, h.cursor]
      rwa [hs', Cursor.afterTrivia_afterTrivia] at hlt
    · exact hpair

end SceneScript.Parser
