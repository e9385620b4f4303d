import SceneScript.Proofs.Parser.Severed

/-!
# What is read on both sides of a cut

Whole statements and the headers of blocks are read in the source and in what is left of it, because
something that begins with a word comes behind them, or nothing.
-/

namespace SceneScript.Parser

open Rule Grammar Cursor Computability

variable {α β : Type} {p q : Cursor} {behind us rest hs ts vs : List Token} {s t : State}
variable {levels : Nat}

theorem WordFirst.bounds {k : List Token} (h : WordFirst k) : Bounds k := by
  cases k with
  | nil => exact bounds_nil
  | cons t k =>
    obtain ⟨word, ht⟩ := h t rfl
    exact bounds_of_word? ht

theorem wordFirst_of_mem (hvs : vs ∈ statements∗) (hrest : WordFirst rest) :
    WordFirst (vs ++ rest) := by
  obtain ⟨ss, hss⟩ := isBody_of_mem hvs
  exact wordFirst_append_of_isBody hss hrest

/-! ## Rules one after the other -/

theorem rule_id_map (x : Rule α) : id <$> x = x := by
  funext s
  show andThen x (fun v => pure (id v)) s = x s
  unfold andThen
  cases x s <;> rfl

theorem rule_bind_assoc {γ : Type} (x : Rule α) (f : α → Rule β) (g : β → Rule γ) :
    x >>= f >>= g = x >>= fun v => f v >>= g := by
  funext s
  show andThen (andThen x f) g s = andThen x (fun v => andThen (f v) g) s
  unfold andThen
  cases x s <;> rfl

/-- What a rule yields at one place is what it yields at another one, changed. -/
theorem bind_of_map {x : Rule α} {change : α → α} {f : α → Rule β}
    (h : x s = (x t).map change) : (x >>= f) s = (x >>= fun v => f (change v)) t := by
  show andThen x f s = andThen x (fun v => f (change v)) t
  unfold andThen
  rw [h]
  cases x t <;> rfl

instance : LawfulMonad Rule := LawfulMonad.mk' Rule rule_id_map (fun _ _ => rfl) rule_bind_assoc

theorem readByBoth_pure (v : α) : ReadByBoth p q (pure v) [] rest :=
  fun s t hst => .inr ⟨v, s, t, rfl, rfl, .refl _, hst⟩

theorem ReadByBoth.bind {x : Rule α} {f : α → Rule β} (hx : ReadByBoth p q x us (vs ++ rest))
    (hf : ∀ v, ReadByBoth p q (f v) vs rest) : ReadByBoth p q (x >>= f) (us ++ vs) rest := by
  intro s t hst
  rw [List.append_assoc] at hst
  rcases hx s t hst with ⟨a, ha⟩ | ⟨v, s', t', hs, ht, hreads, hst'⟩
  · exact .inl ⟨a, aborted_bind ha⟩
  · rw [bind_of_matched hs, bind_of_matched ht]
    rcases hf v s' t' hst' with habort | ⟨w, s'', t'', hs', ht', hreads', hst''⟩
    · exact .inl habort
    · exact .inr ⟨w, s'', t'', hs', ht', hreads.trans hreads', hst''⟩

/-! ## Statements that both parsers read -/

theorem statement_readByBoth (levels : Nat) (h : Cut p q behind) (hts : ts ∈ statements)
    (hrest : WordFirst rest) : ReadByBoth p q (level .nothing levels).statement ts rest := by
  obtain ⟨st, hst⟩ := hts
  refine h.phrase_readByBoth (fun _ => (Tandem.level_statement_firm levels).explores)
    endsItself_statements ⟨st, hst⟩ hrest fun k hk _ => ?_
  exact ((completeStatement_level levels).statement ts st hst k hk.bounds).mono fun _ _ hv => hv.2

/-- Both parsers read the statements that are complete, and then go on alike. -/
theorem many_severed (levels : Nat) (h : Cut p q behind) (hvs : vs ∈ statements∗)
    (hrest : WordFirst rest) (hst : Severed p q (vs ++ rest) s t) :
    (∃ a, (level .nothing levels).statement.many s = .aborted a)
      ∨ ∃ ss s' t', (level .nothing levels).statement.many s
            = ((level .nothing levels).statement.many s').map (ss ++ ·)
          ∧ (level .nothing levels).statement.many t
            = ((level .nothing levels).statement.many t').map (ss ++ ·)
          ∧ t.cursor.Reads vs t'.cursor ∧ Severed p q rest s' t' := by
  obtain ⟨body, hbody⟩ := isBody_of_mem hvs
  -- induction on the statements that are complete; the next one starts with a word, and so does
  -- what comes behind them all
  induction body generalizing vs s t with
  | nil =>
    cases hbody
    exact .inr ⟨[], s, t, (Reply.map_nil_append _).symm, (Reply.map_nil_append _).symm, .refl _, hst⟩
  | cons st body ih =>
    cases hbody with
    | @cons ts us _ _ hfirst hmore =>
      rw [List.append_assoc] at hst
      have hread := statement_readByBoth levels h ⟨st, hfirst⟩
        (wordFirst_append_of_isBody hmore hrest)
      rcases hread s t hst with ⟨a, ha⟩ | ⟨v, s₁, t₁, hs, ht, hreads, hst'⟩
      · exact .inl ⟨a, Tandem.many_of_aborted ha⟩
      · rw [Tandem.many_of_matched (advances_level levels) hs,
          Tandem.many_of_matched (advances_level levels) ht]
        rcases ih (mem_of_isBody hmore) hst' hmore with
          ⟨a, ha⟩ | ⟨ss, s', t', hs', ht', hreads', hst''⟩
        · rw [ha]
          exact .inl ⟨a, rfl⟩
        · rw [hs', ht']
          exact .inr ⟨v :: ss, s', t', Reply.map_cons_append v ss _, Reply.map_cons_append v ss _,
            hreads.trans hreads', hst''⟩

/-! ## Headers -/

theorem condition_readByBoth (h : Cut p q behind) (hcs : hs ∈ conditions) (hrest : WordFirst rest) :
    ReadByBoth p q (condition (level .nothing levels).expression) hs rest := by
  refine h.phrase_readByBoth (fun _ => Tandem.condition_explores
    (Tandem.level_expression_firm levels)) endsItself_conditions hcs hrest ?_
  intro k hk hne
  obtain ⟨t, more, rfl⟩ := List.exists_cons_of_ne_nil hne
  obtain ⟨text, ht⟩ := hk t rfl
  obtain ⟨c, hc⟩ := hcs
  exact (condition_complete (complete_level levels) hc t text more ht).mono fun _ _ hv => hv.2

theorem dueKeyword_readByBoth (h : Cut p q behind) {text : String} (hw : IsWord text)
    (hk : isKeyword text = true) : ReadByBoth p q (dueKeyword text) [word text] rest :=
  h.token_readByBoth (fun _ => (Tandem.dueKeyword_firm hw hk).explores)
    (by rintro _ rfl; rfl) (parses_dueKeyword hw rfl)

/-- A condition and the keyword behind it. -/
theorem guard_readByBoth (levels : Nat) (h : Cut p q behind) (hcs : hs ∈ conditions) {text : String}
    (hw : IsWord text) (hk : isKeyword text = true) :
    ReadByBoth p q (do
      let test ← condition (level .nothing levels).expression
      dueKeyword text
      return test) (hs ++ [word text]) rest :=
  (condition_readByBoth h hcs (wordFirst_cons (show (word text).word? = some text from rfl))).bind
    fun test => (dueKeyword_readByBoth h hw hk).bind fun _ => readByBoth_pure test

theorem dueSymbol_readByBoth (h : Cut p q behind) {symbol : String} {tok : Token}
    (hsymbol : IsSymbol symbol tok) : ReadByBoth p q (dueSymbol symbol) [tok] rest :=
  h.token_readByBoth (fun _ => (Tandem.dueSymbol_firm hsymbol).explores)
    (by rintro _ rfl; rfl) (parses_dueSymbol hsymbol)

theorem dueName_readByBoth (h : Cut p q behind) {what : Expectation} (hwhat : what.phrases = names)
    (hns : hs ∈ names) : ReadByBoth p q (dueName what) hs rest := by
  obtain ⟨tok, name, rfl, hname⟩ := hns
  refine h.token_readByBoth (fun _ => (Tandem.dueName_firm hwhat).explores) ?_
    ((parses_dueName hname).mono fun _ _ hv => hv.2)
  rintro _ ⟨_, _, rfl, _⟩
  rfl

theorem oneOf_readByBoth (h : Cut p q behind) {choices : List α} {text : α → String} {choice : α}
    (hchoices : ∀ choice, IsWord (text choice) ∧ isKeyword (text choice) = true)
    (hinj : ∀ a b, text a = text b → a = b) (hmem : choice ∈ choices) :
    ReadByBoth p q (oneOf choices text) [word (text choice)] rest := by
  refine h.token_readByBoth (fun _ => (Tandem.oneOf_firm fun c _ => hchoices c).explores) ?_
    ((parses_oneOf (fun c => (hchoices c).1) hinj hmem rfl).mono fun _ _ hv => hv.2)
  rintro _ ⟨_, _, rfl⟩
  rfl

/-- The name of a function and its parameters in parentheses. -/
def signature (params : Rule (List String)) : Rule (String × List String) := do
  let name ← dueName .functionName
  dueSymbol "("
  let params ← params
  dueSymbol ")"
  return (name, params)

theorem signature_bind (params : Rule (List String)) (f : String × List String → Rule α) :
    signature params >>= f = (do
      let name ← dueName .functionName
      dueSymbol "("
      let params ← params
      dueSymbol ")"
      f (name, params)) := by
  simp [signature, -bind_pure_comp]

/-- Parameters are read by both because there is a parenthesis behind them. -/
theorem parameters_readByBoth (h : Cut p q behind) (hps : hs ∈ parameterLists)
    (hrest : WordFirst rest) : ReadByBoth p q (many parameter) hs ([rightParen] ++ rest) := by
  refine h.readByBoth (fun _ => Tandem.parameters_explores)
    (M := parameterLists * token rightParen) ?_ ?_ ?_
  · -- the parameters alone could go on with one more, with the parenthesis behind them they cannot
    exact fun us hus => ⟨[rightParen], Language.append_mem_mul hus rfl⟩
  · intro text
    rw [← List.append_assoc, List.append_assoc]
    exact endsItself_parameters.not_mem_prefixes (Language.append_mem_mul hps rfl)
      (hrest.append (wordFirst_cons (Token.word?_ofWord text))) (by simp)
  · obtain ⟨params, hparams⟩ := hps
    exact (parameters_parse hparams).mono fun _ _ hv => hv.2

theorem triple_readByBoth (h : Cut p q behind) (hts : ts ∈ triples rightParen)
    (hrest : WordFirst rest) :
    ReadByBoth p q (triple (level .nothing levels).expression ")") ts rest := by
  refine h.phrase_readByBoth (fun _ => Tandem.triple_explores isSymbol_rightParen
    (Tandem.level_expression_firm levels)) endsItself_triples hts hrest fun k _ _ => ?_
  obtain ⟨xs, ⟨x, hx⟩, _, ⟨_, rfl, _, ⟨ys, ⟨y, hy⟩, _, ⟨_, rfl, _, ⟨zs, ⟨z, hz⟩, _, rfl, rfl⟩,
    rfl⟩, rfl⟩, rfl⟩, rfl⟩ := hts
  have hsum := (complete_level levels).sum
  have hparses := (triple_parses (k := k) isSymbol_rightParen stop_rightParen (hsum _ _ hx)
    (hsum _ _ hy) (hsum _ _ hz)).mono fun _ _ hv => hv.2
  simpa using hparses

end SceneScript.Parser
