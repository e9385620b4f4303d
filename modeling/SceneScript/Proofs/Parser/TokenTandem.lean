import SceneScript.Proofs.Parser.Tandem

/-!
# Tokens and names in tandem

The rules for single tokens keep two parsers in tandem, for every tandem.  A word is the only token
that one parser may find where the other finds nothing, and there no word can come next; so a rule
whose language has words in it never gets to such a place.
-/

namespace SceneScript.Parser

open Rule Grammar Cursor Computability

/-- The token of a scene keyword. -/
theorem ofWord_eq_word {keyword : String} (h : isKeyword keyword = true) :
    Token.ofWord keyword = word keyword := by
  rw [Token.ofWord, if_pos h]
  rfl

namespace Tandem

variable {T : Tandem} {α : Type} {ts us : List Token} {L : Language Token} {s t : State}
variable {c d : Cursor}

/-! ## A token -/

/-- A token that both find is read by both, or takes the first beyond. -/
theorem SettledAt.read {β : Type} {U : State → State → Prop} {V : α → β → Prop} {v : α} {w : β}
    {tok : Token} (h : T.SettledAt ts s t) (hcd : T.cursors (ts ++ [tok]) c d ∨ T.beyond c.pos)
    (hmem : [tok] ∈ L) (hvw : V v w) :
    T.Alike (fun v w s' t' => V v w ∧ ∃ us ∈ L, T.At (ts ++ us) s' t') U
      (.matched v (s.moveTo c)) (.matched w (t.moveTo d)) := by
  rcases hcd with hcd | hbeyond
  · exact .inl ⟨hvw, [tok], hmem, hcd, T.moveTo _ _ h.1.2⟩
  · exact .inr (.inl (.inl hbeyond))

/-- A movement that is known by the token it passes keeps two parsers together. -/
theorem move_tracks {f : Cursor → Option Cursor} {tok : Token}
    (hf : ∀ c d, c.Settled → (f c = some d ↔ c.next? = some (tok, d))) :
    T.Tracks (T.SettledAt ts) (T.SettledAt ts) ts (token tok) Eq (move f) (move f) := by
  intro hL s t hst
  have hnone : ∀ c : Cursor, c.Settled → (∀ d, c.next? ≠ some (tok, d)) → f c = none := by
    intro c hc hne
    rw [Option.eq_none_iff_forall_ne_some]
    exact fun d hd => hne d ((hf c d hc).1 hd)
  unfold Rule.move
  rcases T.next hst.1.1 hst.2.1 hst.2.2 with ⟨u, c, d, hs, ht, hcd⟩ | ⟨hs, ht⟩ | ⟨hs, ht, hword⟩
  · by_cases hu : u = tok
    · subst hu
      rw [(hf _ _ hst.2.1).2 hs, (hf _ _ hst.2.2).2 ht]
      exact hst.read hcd rfl rfl
    · rw [hnone _ hst.2.1 (by simp [hs, hu]), hnone _ hst.2.2 (by simp [ht, hu])]
      exact .inl hst
  · rw [hnone _ hst.2.1 (by simp [hs]), hnone _ hst.2.2 (by simp [ht])]
    exact .inl hst
  · have hbare : ∀ c : Cursor, c.Settled → c.Bare → ∀ d, c.next? ≠ some (tok, d) := by
      intro c hc hbare d hd
      obtain ⟨word, rfl⟩ := hbare.next? hc hd
      exact hword word (hL _ rfl)
    -- no word can come next, but the rule's token can, so that token is no word
    rw [hnone _ hst.2.1 (hbare _ hst.2.1 hs), hnone _ hst.2.2 (hbare _ hst.2.2 ht)]
    exact .inl hst

theorem move_symbol_tracks {symbol : String} {tok : Token} (hs : IsSymbol symbol tok) :
    T.Tracks (T.SettledAt ts) (T.SettledAt ts) ts (token tok) Eq (move (afterSymbol? symbol))
      (move (afterSymbol? symbol)) :=
  move_tracks fun _ _ hc => afterSymbol?_eq_some_iff hc hs

theorem move_keyword_tracks {keyword : String} (hw : IsWord keyword)
    (hk : isKeyword keyword = true) :
    T.Tracks (T.SettledAt ts) (T.SettledAt ts) ts (token (word keyword)) Eq
      (move (afterKeyword? keyword)) (move (afterKeyword? keyword)) := by
  rw [← ofWord_eq_word hk]
  exact move_tracks fun _ _ hc => afterKeyword?_eq_some_iff hc hw

theorem symbol_firm {symbol : String} {tok : Token} (hs : IsSymbol symbol tok) :
    T.Firm (token tok) (Rule.symbol symbol) :=
  fun _ => (move_symbol_tracks hs).firm.afterTrivia

/-- A comma that may be left out. -/
theorem separator_tracks {U : State → State → Prop} : T.Tracks (T.At ts) U ts separators Eq
    (Rule.symbol ",").optionally (Rule.symbol ",").optionally :=
  (symbol_firm isSymbol_comma).optionally

theorem keyword_firm {keyword : String} (hw : IsWord keyword) (hk : isKeyword keyword = true) :
    T.Firm (token (word keyword)) (Rule.keyword keyword) :=
  fun _ => (move_keyword_tracks hw hk).firm.afterTrivia

theorem dueSymbol_firm {symbol : String} {tok : Token} (hs : IsSymbol symbol tok) :
    T.Firm (token tok) (dueSymbol symbol) := by
  intro ts
  have hunmet : T.Tracks (T.SettledAt ts) (T.SettledAt ts) ts (token tok) (@Eq Unit)
      (unmet (.literal symbol)) (unmet (.literal symbol)) :=
    tracks_unmet (phrases_symbol hs) id
  exact ((move_symbol_tracks hs).loose.orElse_settled hunmet).firm.afterTrivia

theorem dueKeyword_firm {keyword : String} (hw : IsWord keyword) (hk : isKeyword keyword = true) :
    T.Firm (token (word keyword)) (dueKeyword keyword) := by
  intro ts
  have hunmet : T.Tracks (T.SettledAt ts) (T.SettledAt ts) ts (token (word keyword))
      (@Eq Unit) (unmet (.literal keyword)) (unmet (.literal keyword)) := by
    refine tracks_unmet ?_ id
    rw [phrases_word hw, ofWord_eq_word hk]
  exact ((move_keyword_tracks hw hk).loose.orElse_settled hunmet).firm.afterTrivia

/-- One of some keywords. -/
theorem oneOf_firm {choices : List α} {keyword : α → String}
    (h : ∀ choice ∈ choices, IsWord (keyword choice) ∧ isKeyword (keyword choice) = true) :
    T.Firm (oneTokenOf choices fun choice => word (keyword choice)) (oneOf choices keyword) := by
  unfold oneOf
  induction choices with
  | nil => exact fun ts => tracks_firstOf_nil
  | cons choice more ih =>
    intro ts
    obtain ⟨hw, hk⟩ := h choice (List.mem_cons_self ..)
    have hfirst : T.Tracks (T.At ts) (T.At ts) ts
        (oneTokenOf (choice :: more) fun choice => word (keyword choice)) Eq
        (do Rule.keyword (keyword choice); return choice)
        (do Rule.keyword (keyword choice); return choice) := by
      refine Tracks.mono ((keyword_firm hw hk ts).map fun _ _ _ => rfl) ?_
      rintro _ rfl
      exact ⟨choice, List.mem_cons_self .., rfl⟩
    have hmore := (ih (fun other hmem => h other (List.mem_cons_of_mem _ hmem))).mono
      (M := oneTokenOf (choice :: more) fun choice => word (keyword choice)) (by
        rintro _ ⟨other, hmem, rfl⟩
        exact ⟨other, List.mem_cons_of_mem _ hmem, rfl⟩) ts
    have : Steady (firstOf (more.map fun choice => do
        Rule.keyword (keyword choice); return choice)) := steady_oneOf more keyword
    exact hfirst.anywhere.orElse_at hmore

/-- One of some operators. -/
theorem operator_explores (operators : List Operator) :
    T.Explores (oneTokenOf operators operatorToken) (operator operators) := by
  refine fun ts => Tracks.afterTrivia (Tracks.loose ?_)
  induction operators with
  | nil => exact tracks_firstOf_nil
  | cons op more ih =>
    have hfirst : T.Tracks (T.SettledAt ts) (T.SettledAt ts) ts
        (oneTokenOf (op :: more) operatorToken) Eq
        (do move (afterSymbol? op.symbol); return op)
        (do move (afterSymbol? op.symbol); return op) := by
      refine Tracks.mono ((move_symbol_tracks (isSymbol_operator op)).map fun _ _ _ => rfl) ?_
      rintro _ rfl
      exact ⟨op, List.mem_cons_self .., rfl⟩
    have hmore := ih.mono (M := oneTokenOf (op :: more) operatorToken) (by
      rintro _ ⟨other, hmem, rfl⟩
      exact ⟨other, List.mem_cons_of_mem _ hmem, rfl⟩)
    have : Steady (firstOf (more.map fun op => do move (afterSymbol? op.symbol); return op)) :=
      steady_firstOf fun rule hmem => by
        obtain ⟨other, _, rfl⟩ := List.mem_map.1 hmem
        infer_instance
    exact hfirst.loose.orElse_settled hmore

/-! ## Literals -/

/-- Where another token comes next no text is read. -/
theorem text?_of_next? {u : Token} (hc : c.Settled) (h : c.next? = some (u, d))
    (hne : ∀ value, u ≠ .text value) : c.text? = .ok none := by
  rw [next?_eq_some_iff hc] at h
  unfold token? at h
  split at h
  · cases h
  · cases h
    exact absurd rfl (hne _)
  · assumption

theorem number?_of_next? {u : Token} (hc : c.Settled) (h : c.next? = some (u, d))
    (hne : ∀ x, u ≠ .number x) : c.number? = .ok none := by
  rw [next?_eq_some_iff hc] at h
  obtain ⟨_, _, htext⟩ | ⟨_, hu, _⟩ | ⟨_, _, hword, _⟩ | ⟨_, _, hr, hchar, _⟩ := token?_cases h
  · obtain ⟨quote, rest, hr, hquote, _⟩ := eq_of_text? htext
    exact number?_eq_none hr (isWordStart_eq_false_of_quote hquote).2
  · exact absurd hu (hne _)
  · obtain ⟨x, rest, hr, hx⟩ := rest_eq_cons_of_word? hword
    exact number?_eq_none hr (isDigit_eq_false_of_isWordStart hx)
  · exact number?_eq_none hr (isWordStart_eq_false_of_ofChar? hchar).2.1

/-- A literal that is found as a token, where nothing stands it is for the tandem to say. -/
theorem literal_tracks [Occurs L] {scan : Cursor → Except LexicalError (Option (α × Cursor))}
    {toToken : α → Token}
    (hscan : ∀ c v d, c.Settled → (scan c = .ok (some (v, d)) ↔ c.next? = some (toToken v, d)))
    (hother : ∀ c u d, c.Settled → c.next? = some (u, d) → (∀ v, u ≠ toToken v) →
      scan c = .ok none)
    (hbare : ∀ c, c.Bare → scan c = .ok none)
    (hnothing : ∀ s t, T.SettledAt ts s t → s.cursor.next? = none → t.cursor.next? = none →
      ts ∈ T.viable → Reply.Paired (fun _ _ _ _ => False) T.states T.aborts
        (literal scan s) (literal scan t))
    (hL : ∀ v, [toToken v] ∈ L) :
    T.Tracks (T.SettledAt ts) T.states ts L Eq (literal scan) (literal scan) := by
  intro hallows s t hst
  rcases T.next hst.1.1 hst.2.1 hst.2.2 with ⟨u, c, d, hs, ht, hcd⟩ | ⟨hs, ht⟩ | ⟨hs, ht, _⟩
  · unfold literal
    by_cases hu : ∃ v, u = toToken v
    · obtain ⟨v, rfl⟩ := hu
      rw [(hscan _ _ _ hst.2.1).2 hs, (hscan _ _ _ hst.2.2).2 ht]
      exact hst.read hcd (hL v) rfl
    · have hne : ∀ v, u ≠ toToken v := fun v hv => hu ⟨v, hv⟩
      rw [hother _ _ _ hst.2.1 hs hne, hother _ _ _ hst.2.2 ht hne]
      exact .inl hst.1.2
  · refine .inl ((hnothing s t hst hs ht hallows.viable).mono ?_ fun _ _ hU => hU)
    exact fun _ _ _ _ hfalse => hfalse.elim
  · unfold literal
    rw [hbare _ hs, hbare _ ht]
    exact .inl hst.1.2

/-- A number that one finds the other finds, and a malformed one is the same for both. -/
theorem number_tracks : T.Tracks (T.SettledAt ts) T.states ts numbers Eq
    (literal number?) (literal number?) := by
  refine literal_tracks (fun _ _ _ hc => number?_eq_some_iff hc)
    (fun _ _ _ => number?_of_next?) (fun _ => Bare.number?) ?_ fun v => ⟨v, rfl⟩
  exact fun s t hst hs ht hviable => T.number hst.1.1 hst.2.1 hst.2.2 hs ht hviable hst.1.2

theorem text_tracks : T.Tracks (T.SettledAt ts) T.states ts texts Eq
    (literal text?) (literal text?) := by
  refine literal_tracks (fun _ _ _ hc => text?_eq_some_iff hc)
    (fun _ _ _ => text?_of_next?) (fun _ => Bare.text?) ?_ fun v => ⟨v, rfl⟩
  exact fun s t hst hs ht hviable => T.text hst.1.1 hst.2.1 hst.2.2 hs ht hviable hst.1.2

/-! ## Names -/

theorem mem_names {word : String} (h : isReserved word = false) : [Token.ofWord word] ∈ names :=
  ⟨_, word, rfl, isName_ofWord h⟩

/-- Where a name can come, both find the same name, or the same reserved word, or no word. -/
inductive Named (T : Tandem) (ts : List Token) (c d : Cursor) : Prop
  | name (word : String) (c' d' : Cursor) : c.name? = some (word, c') → d.name? = some (word, d') →
      [Token.ofWord word] ∈ names →
      T.cursors (ts ++ [Token.ofWord word]) c' d' ∨ T.beyond c'.pos → Named T ts c d
  | reserved (word : String) : c.name? = none → d.name? = none → c.word? = some word →
      d.word? = some word → isReserved word = true →
      T.cursors (ts ++ [Token.ofWord word]) (c.afterWord word) (d.afterWord word)
        ∨ T.beyond (c.afterWord word).pos → Named T ts c d
  | nothing : c.name? = none → d.name? = none → c.word? = none → d.word? = none → Named T ts c d

theorem name?_of_word?_none (h : c.word? = none) : c.name? = none := by
  rw [name?, h]

/-- A reserved word is no name. -/
theorem name?_of_reserved {word : String} (h : c.word? = some word)
    (hres : isReserved word = true) : c.name? = none := by
  rw [name?, h]
  exact if_pos hres

theorem name?_of_free {word : String} (h : c.word? = some word)
    (hfree : isReserved word = false) : c.name? = some (word, c.afterWord word) := by
  rw [name?, h]
  simp [hfree]

theorem name_eq_matched {word : String} (h : s.cursor.name? = some (word, c)) :
    Rule.name s = .matched word (s.moveTo c) := by
  unfold Rule.name
  rw [h]

theorem name_eq_unmatched (h : s.cursor.name? = none) : Rule.name s = .unmatched s := by
  unfold Rule.name
  rw [h]

theorem word?_eq_none_of_next? (hc : c.Settled)
    (h : ∀ word d, c.next? ≠ some (Token.ofWord word, d)) : c.word? = none := by
  rw [Option.eq_none_iff_forall_ne_some]
  exact fun word hword => h word _ ((word?_eq_some_iff hc).1 hword)

/-- Where a name can come next the two find the same word, or no word. -/
theorem SettledAt.named (h : T.SettledAt ts s t) (hL : T.Allows ts names) :
    Named T ts s.cursor t.cursor := by
  have hnone : s.cursor.word? = none → t.cursor.word? = none → Named T ts s.cursor t.cursor :=
    fun hs ht => .nothing (name?_of_word?_none hs) (name?_of_word?_none ht) hs ht
  rcases T.next h.1.1 h.2.1 h.2.2 with ⟨u, c, d, hs, ht, hcd⟩ | ⟨hs, ht⟩ | ⟨_, _, hword⟩
  · by_cases hu : ∃ word, u = Token.ofWord word
    · obtain ⟨word, rfl⟩ := hu
      obtain rfl := eq_afterWord_of_next? h.2.1 hs
      obtain rfl := eq_afterWord_of_next? h.2.2 ht
      have hsw := (word?_eq_some_iff h.2.1).2 hs
      have htw := (word?_eq_some_iff h.2.2).2 ht
      cases hres : isReserved word with
      | true =>
        exact .reserved word (name?_of_reserved hsw hres) (name?_of_reserved htw hres) hsw htw
          hres hcd
      | false =>
        exact .name word _ _ (name?_of_free hsw hres) (name?_of_free htw hres) (mem_names hres) hcd
    · -- both find a token that is no word, so neither finds a word
      have hne : ∀ {c d : Cursor}, c.next? = some (u, d) → ∀ word e,
          c.next? ≠ some (Token.ofWord word, e) := by
        intro c d hc word e he
        rw [hc] at he
        exact hu ⟨word, (Prod.mk.inj (Option.some.inj he)).1⟩
      exact hnone (word?_eq_none_of_next? h.2.1 (hne hs)) (word?_eq_none_of_next? h.2.2 (hne ht))
  · exact hnone (word?_eq_none_of_next? h.2.1 (by simp [hs]))
      (word?_eq_none_of_next? h.2.2 (by simp [ht]))
  · -- where a name can come a word can, as this one
    exact absurd (hL _ (mem_names (show isReserved "x" = false by decide))) (hword "x")

theorem name_tracks : T.Tracks (T.SettledAt ts) T.states ts names Eq Rule.name Rule.name := by
  intro hL s t hst
  cases hst.named hL with
  | name word c d hs ht hmem hcd =>
    rw [name_eq_matched hs, name_eq_matched ht]
    exact hst.read hcd hmem rfl
  | reserved word hs ht _ _ _ _ =>
    rw [name_eq_unmatched hs, name_eq_unmatched ht]
    exact .inl hst.1.2
  | nothing hs ht _ _ =>
    rw [name_eq_unmatched hs, name_eq_unmatched ht]
    exact .inl hst.1.2

/-- A name, or else a rule that is tried where no name stands. -/
theorem name_orElse_tracks {x y : Rule String}
    (hreserved : ∀ s t word, T.SettledAt ts s t → T.Allows ts names → s.cursor.word? = some word →
      t.cursor.word? = some word → isReserved word = true →
      T.cursors (ts ++ [Token.ofWord word]) (s.cursor.afterWord word) (t.cursor.afterWord word)
        ∨ T.beyond (s.cursor.afterWord word).pos →
      T.Alike (fun _ _ _ _ => False) (T.SettledAt ts) (x s) (y t))
    (hnothing : ∀ s t, T.SettledAt ts s t → T.Allows ts names → s.cursor.word? = none →
      t.cursor.word? = none → T.Alike (fun _ _ _ _ => False) (T.SettledAt ts) (x s) (y t)) :
    T.Tracks (T.SettledAt ts) (T.SettledAt ts) ts names Eq (Rule.name.orElse x)
      (Rule.name.orElse y) := by
  intro hL s t hst
  have helse : ∀ {s : State} {x : Rule String}, s.cursor.name? = none →
      Rule.name.orElse x s = x s :=
    fun hs => orElse_of_unmatched (name_eq_unmatched hs)
  have hfalse : ∀ {r q : Reply String}, T.Alike (fun _ _ _ _ => False) (T.SettledAt ts) r q →
      T.Alike (fun v w s' t' => v = w ∧ ∃ us ∈ names, T.At (ts ++ us) s' t') (T.SettledAt ts) r q :=
    fun h => h.mono (fun _ _ _ _ hfalse => hfalse.elim) fun _ _ hU => hU
  cases hst.named hL with
  | name word c d hs ht hmem hcd =>
    rw [orElse_of_matched (name_eq_matched hs), orElse_of_matched (name_eq_matched ht)]
    exact hst.read hcd hmem rfl
  | reserved word hs ht hsw htw hres hcd =>
    rw [helse hs, helse ht]
    exact hfalse (hreserved s t word hst hL hsw htw hres hcd)
  | nothing hs ht hsw htw =>
    rw [helse hs, helse ht]
    exact hfalse (hnothing s t hst hL hsw htw)

theorem dueName_firm {what : Expectation} (hwhat : what.phrases = names) :
    T.Firm names (dueName what) := by
  intro ts
  refine Tracks.afterTrivia (Tracks.firm (name_orElse_tracks ?_ ?_))
  · intro s t word hst hL hsw htw hres _
    rw [hsw, htw]
    exact .inl (T.reserved hst.1.1 hst.2.1 hst.2.2 hsw hres hL)
  · intro s t hst hL hsw htw
    rw [hsw, htw]
    exact .inl (hst.unmet hwhat (fun _ => ⟨hsw, htw⟩) hL)

/-! ## Blocks -/

/-- Both stand where a keyword of a block, or a `local`, is. -/
structure Opened (T : Tandem) (keyword : String) (ts : List Token) (c d : Cursor) : Prop where
  cursors : T.cursors ts c d
  settled : c.Settled ∧ d.Settled
  word? : c.word? = some keyword

theorem opening_tracks {keyword : String} (hw : IsWord keyword) (hk : isKeyword keyword = true) :
    T.Tracks (T.At ts) (T.At ts) ts (token (word keyword)) (Opened T keyword ts)
      (opening keyword) (opening keyword) := by
  refine Tracks.afterTrivia (Tracks.firm ?_)
  intro hL s t hst
  have hmove := move_keyword_tracks hw hk hL s t hst
  show T.Alike _ _ ((move (afterKeyword? keyword) >>= fun _ => pure s.cursor) s)
    ((move (afterKeyword? keyword) >>= fun _ => pure t.cursor) t)
  rcases hmove with hpair | hgone | ⟨⟨place, word, hy⟩, hbeyond⟩
  · rw [bind_apply, bind_apply]
    cases hx : move (afterKeyword? keyword) s <;> cases hy : move (afterKeyword? keyword) t <;>
      simp only [hx, hy, Reply.Paired] at hpair
    · have hword := (word?_of_afterKeyword? hw (matched_move hx)).1
      exact .inl ⟨⟨hst.1.1, hst.2, hword⟩, hpair.2⟩
    · exact .inl hpair
    · exact .inl hpair
  · exact .inr (.inl (hgone.bind fun _ _ _ hgone => Gone.lost hgone))
  · exact .inr (.inr ⟨⟨place, word, aborted_bind hy⟩, hbeyond⟩)

/-- What closes a block names the opening that both have seen. -/
theorem closing_tracks {keyword : String} (h : Opened T keyword ts c d)
    (hopen : IsOpen keyword us) :
    T.Tracks (T.At (ts ++ us)) T.states (ts ++ us) (token (word "end")) Eq
      (closing keyword c) (closing keyword d) := by
  have hend : T.Tracks (T.SettledAt (ts ++ us)) T.states (ts ++ us) (token (word "end")) (@Eq Unit)
      (fun s => .unmatched ((s.expect (.literal "end")).blame (.unclosed keyword c)))
      (fun t => .unmatched ((t.expect (.literal "end")).blame (.unclosed keyword d))) := by
    intro hL s t hst
    -- the keyword is expected before the block is blamed
    have hphrases : (Expectation.literal "end").phrases = token (word "end") :=
      phrases_word (by decide)
    have hexpect := (hst.unmet hphrases (fun h => h.elim) hL).1.2
    have hviable : ts ++ us ++ [word "end"] ∈ T.viable := hL _ rfl
    exact .inl (T.unclosed (s := s.expect (.literal "end")) (t := t.expect (.literal "end"))
      h.cursors h.settled.1 h.settled.2 hopen hst.1.1 hst.2.1 hst.2.2 hviable hexpect)
  have : @Steady Unit (fun s => .unmatched ((s.expect (.literal "end")).blame
      (.unclosed keyword c))) := by
    refine @Steady.mk _ _ nofun fun h => ?_
    cases h
    exact (State.upto_expect _ _).trans (State.upto_blame _ _)
  have hword : IsWord "end" := by decide
  exact Tracks.afterTrivia ((move_keyword_tracks hword (by decide)).loose.orElse_settled hend)

end Tandem

end SceneScript.Parser
