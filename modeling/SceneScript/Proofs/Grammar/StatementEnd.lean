import SceneScript.Proofs.Grammar.Languages
import SceneScript.Proofs.Parser.Lockstep
import SceneScript.Proofs.Parser.StatementComplete

/-!
# Where a statement ends

There is nothing between two statements, so where one ends has to follow from its tokens.  It does:
`afterStatement` finds the end from the brackets, the operators and the words that open and close
blocks, without regard to what else stands between.  A statement that a word can follow is
therefore not the start of a longer one.
-/

namespace SceneScript.Parser

open Grammar

variable {ts us cs k : List Token} {t : Token} {m : Mode} {n : Nat} {e : Expr}

/-- No token comes, or a word. -/
def WordFirst (k : List Token) : Prop := ∀ t, k.head? = some t → ∃ word, t.word? = some word

theorem wordFirst_nil : WordFirst [] := nofun

theorem wordFirst_cons {word : String} (h : t.word? = some word) : WordFirst (t :: k) := by
  intro u hu
  exact ⟨word, Option.some.inj hu ▸ h⟩

theorem wordFirst_end (k : List Token) : WordFirst (word "end" :: k) :=
  wordFirst_cons (show (word "end").word? = some "end" from rfl)

theorem WordFirst.append (hk : WordFirst k) (hus : WordFirst us) : WordFirst (k ++ us) := by
  cases k with
  | nil => exact hus
  | cons t k => exact hk

theorem WordFirst.head?_ne (h : WordFirst k) (ht : t.word? = none) : k.head? ≠ some t := by
  intro hk
  obtain ⟨word, hword⟩ := h t hk
  exact Token.ne_of_word? hword ht rfl

/-! ## Expressions -/

/-- What is left behind the tokens that an expression can go on with. -/
def Mode.skip : Mode → List Token → List Token
  | _, [] => []
  | m, t :: ts =>
    match m.step t with
    | some next => next.skip ts
    | none => t :: ts

theorem skip_cons {next : Mode} (h : m.step t = some next) (ts : List Token) :
    m.skip (t :: ts) = next.skip ts := by
  rw [Mode.skip, h]

theorem skip_operator (hk : WordFirst k) : Mode.operator.skip k = k := by
  cases k with
  | nil => rfl
  | cons t k =>
    obtain ⟨word, hword⟩ := hk t rfl
    cases t <;> first | rfl | cases hword

/-- The tokens are passed as an operand is, in brackets or not. -/
def Spans (ts : List Token) : Prop :=
  ∀ m : Mode, m ≠ .operator → ∀ k, m.skip (ts ++ k) = m.after.skip k

theorem Spans.opened (h : Spans ts) (m : Mode) (k : List Token) :
    m.opened.skip (ts ++ k) = m.opened.skip k := by
  rw [h m.opened m.opened_ne_operator, m.after_opened]

theorem spans_token (h : ∀ m : Mode, m ≠ .operator → m.step t = some m.after) : Spans [t] :=
  fun m hm k => skip_cons (h m hm) k

theorem step_keyword (hm : m ≠ .operator) (text : String) : m.step (word text) = some m.after := by
  cases m <;> first | rfl | exact absurd rfl hm

theorem step_name {name : String} (hm : m ≠ .operator) (h : IsName t name) :
    m.step t = some m.after := by
  cases h <;> cases m <;> first | rfl | exact absurd rfl hm

/-- What stands in parentheses is passed if the brackets in it are. -/
theorem skip_parens (h : ∀ (m : Mode) k, m.opened.skip (ts ++ k) = m.opened.skip k) (m : Mode)
    (k : List Token) : m.skip (leftParen :: (ts ++ rightParen :: k)) = m.after.skip k := by
  rw [skip_cons m.step_leftParen, h, skip_cons m.step_rightParen]

/-- Three expressions with commas between them and a closing bracket behind them. -/
theorem skip_triple {xs ys zs : List Token} {close : Token} (hx : Spans xs) (hy : Spans ys)
    (hz : Spans zs) (m : Mode) (hclose : m.opened.step close = some m.after) (k : List Token) :
    m.opened.skip (xs ++ comma :: (ys ++ comma :: (zs ++ close :: k))) = m.after.skip k := by
  rw [hx.opened, skip_cons m.step_comma, hy.opened, skip_cons m.step_comma, hz.opened,
    skip_cons hclose]

theorem skip_separator (h : IsSeparator ts) (m : Mode) (k : List Token) :
    m.opened.skip (ts ++ k) = m.opened.skip k := by
  cases h with
  | none => rfl
  | comma => exact skip_cons m.step_comma k

mutual

theorem spans_value : ∀ {ts : List Token} {e : Expr}, IsValue ts e → Spans ts
  | _, _, .number x => spans_token fun _ hm => Mode.step_number hm x
  | _, _, .color c => spans_token fun _ hm => step_keyword hm c.text
  | _, _, .rgb hr hg hb => by
    intro m hm k
    have htriple := skip_triple (spans_sum hr) (spans_sum hg) (spans_sum hb) m m.step_rightParen k
    simp only [List.cons_append, List.append_assoc, List.nil_append]
    rw [skip_cons (step_keyword hm _), skip_cons m.after.step_leftParen, m.opened_after, htriple]
  | _, _, .vector hx hy hz => by
    intro m hm k
    have htriple := skip_triple (spans_sum hx) (spans_sum hy) (spans_sum hz) m m.step_rightAngle k
    simp only [List.cons_append, List.append_assoc, List.nil_append]
    rw [skip_cons (Mode.step_leftAngle hm), htriple]
  | _, _, .texture h => by
    intro m hm k
    simp only [List.cons_append, List.append_assoc, List.nil_append]
    rw [skip_cons (step_keyword hm _), skip_parens (spans_sum h).opened, m.after_after]
  | _, _, .paren h => by
    intro m hm k
    simp only [List.cons_append, List.append_assoc, List.nil_append]
    rw [skip_parens (spans_sum h).opened]
  | _, _, .solid kind h => by
    intro m hm k
    simp only [List.cons_append, List.append_assoc, List.nil_append]
    rw [skip_cons (step_keyword hm _), skip_parens (skip_arguments h), m.after_after]
  | _, _, .text value => spans_token fun _ hm => Mode.step_text hm value
  | _, _, .identifier h => spans_token fun _ hm => step_name hm h

theorem spans_negation : ∀ {ts : List Token} {e : Expr}, IsNegation ts e → Spans ts
  | _, _, .value h => spans_value h
  | _, _, .minus h => fun m hm k => (skip_cons (Mode.step_minus hm) _).trans (spans_value h m hm k)

theorem spans_product : ∀ {ts : List Token} {e : Expr}, IsProduct ts e → Spans ts
  | _, _, .factor h => spans_negation h
  | _, _, .times op hop hl hr => by
    intro m hm k
    rw [List.append_assoc, List.cons_append, spans_product hl m hm,
      skip_cons (Mode.step_operatorToken hm (by omega)), spans_negation hr m hm]

theorem spans_sum : ∀ {ts : List Token} {e : Expr}, IsSum ts e → Spans ts
  | _, _, .term h => spans_product h
  | _, _, .plus op hop hl hr => by
    intro m hm k
    rw [List.append_assoc, List.cons_append, spans_sum hl m hm,
      skip_cons (Mode.step_operatorToken hm (by omega)), spans_product hr m hm]

theorem skip_arguments : ∀ {ts : List Token} {es : List Expr}, IsArguments ts es →
    ∀ (m : Mode) k, m.opened.skip (ts ++ k) = m.opened.skip k
  | _, _, .nil => fun _ _ => rfl
  | _, _, .cons h hsep hmore => by
    intro m k
    rw [List.append_assoc, List.append_assoc, (spans_sum h).opened, skip_separator hsep,
      skip_arguments hmore]

end

theorem skip_parameters {names : List String} (h : IsParameters ts names) (m : Mode)
    (k : List Token) : m.opened.skip (ts ++ k) = m.opened.skip k := by
  induction h with
  | nil => rfl
  | cons hname hsep _ ih =>
    rw [List.cons_append, List.append_assoc, skip_cons (step_name m.opened_ne_operator hname),
      m.after_opened, skip_separator hsep, ih]

/-- Behind a whole expression. -/
theorem skip_sum (h : IsSum ts e) (hk : WordFirst k) : Mode.operand.skip (ts ++ k) = k :=
  (spans_sum h .operand nofun k).trans (skip_operator hk)

/-- Behind a whole list in parentheses. -/
theorem skip_list (h : ∀ (m : Mode) k, m.opened.skip (ts ++ k) = m.opened.skip k)
    (hk : WordFirst k) : Mode.operand.skip (leftParen :: (ts ++ rightParen :: k)) = k :=
  (skip_parens h .operand k).trans (skip_operator hk)

/-- What is left behind a condition. -/
def afterCondition (ts : List Token) : List Token :=
  match Mode.operand.skip ts with
  | [] => []
  | t :: us => if t = leftAngle ∨ t = rightAngle then Mode.operand.skip us else t :: us

theorem afterCondition_append {c : Expr} (h : IsCondition cs c) (hk : WordFirst k) :
    afterCondition (cs ++ k) = k := by
  cases h with
  | plain h =>
    rw [afterCondition, skip_sum h hk]
    cases k with
    | nil => rfl
    | cons t k =>
      have hne : ¬(t = leftAngle ∨ t = rightAngle) := by
        rintro (rfl | rfl) <;> exact hk.head?_ne rfl rfl
      exact if_neg hne
  | @compared ls rs left right op hop hl hr =>
    have hcompare : operatorToken op = leftAngle ∨ operatorToken op = rightAngle := by
      revert hop
      cases op <;> decide
    have hstop : Mode.operator.skip (operatorToken op :: (rs ++ k))
        = operatorToken op :: (rs ++ k) := by
      rcases hcompare with h | h <;> rw [h] <;> rfl
    have hleft : Mode.operand.skip (ls ++ operatorToken op :: (rs ++ k))
        = operatorToken op :: (rs ++ k) := (spans_sum hl .operand nofun _).trans hstop
    rw [List.append_assoc, List.cons_append, afterCondition, hleft]
    exact (if_pos hcompare).trans (skip_sum hr hk)

/-! ## Statements -/

mutual

/-- What is left behind a statement of at most so many tokens. -/
def afterStatement : Nat → List Token → List Token
  | 0, ts => ts
  | _, [] => []
  | n + 1, t :: us =>
    if us.head? = some equals then Mode.operand.skip us.tail
    else if t = word "local" then Mode.operand.skip (us.drop 2)
    else if t = word "do" then afterEnd n us
    else if t = word "if" ∨ t = word "while" then afterEnd n (afterCondition us).tail
    else if t = word "function" then afterEnd n (Mode.operand.skip us.tail)
    else if t ∈ Transform.all.map (word ·.text) then afterStatement n (Mode.operand.skip us)
    else Mode.operand.skip (us.dropWhile (· ≠ leftParen))

/-- What is left behind the `end` of a body of at most so many tokens. -/
def afterEnd : Nat → List Token → List Token
  | 0, ts => ts
  | _, [] => []
  | n + 1, t :: us =>
    if t = word "end" ∧ us.head? ≠ some equals then us
    else afterEnd n (afterStatement n (t :: us))

end

/-- What is left behind `=` and an expression. -/
theorem afterStatement_assigned (hn : 0 < n) (h : IsSum ts e) (hk : WordFirst k) :
    afterStatement n (t :: equals :: (ts ++ k)) = k := by
  obtain ⟨n, rfl⟩ := Nat.exists_eq_add_one.2 hn
  rw [afterStatement, List.head?_cons, if_pos rfl]
  exact skip_sum h hk

theorem afterEnd_of_end (hn : 0 < n) (hk : WordFirst k) : afterEnd n (word "end" :: k) = k := by
  obtain ⟨n, rfl⟩ := Nat.exists_eq_add_one.2 hn
  rw [afterEnd, if_pos ⟨rfl, hk.head?_ne rfl⟩]

/-- A condition does not start with `=`. -/
theorem head?_ne_equals_of_isCondition {c : Expr} {word : String} (h : IsCondition cs c)
    (ht : t.word? = some word) : (cs ++ t :: k).head? ≠ some equals := by
  intro heq
  obtain ⟨us, hus⟩ := List.head?_eq_some_iff.1 heq
  have hafter := afterCondition_append h (wordFirst_cons (k := k) ht)
  rw [hus] at hafter
  obtain ⟨rfl, _⟩ := List.cons.inj (show equals :: us = t :: k from hafter)
  cases ht

theorem head?_ne_equals_of_isBody {ss : List Statement} (h : IsBody ts ss) (k : List Token) :
    (ts ++ word "end" :: k).head? ≠ some equals :=
  (bounds_append_of_isBody h
    (bounds_of_word? (show (word "end").word? = some "end" from rfl))).2

theorem wordFirst_append_of_isBody {ss : List Statement} (h : IsBody ts ss) (hk : WordFirst k) :
    WordFirst (ts ++ k) := by
  cases h with
  | nil => exact hk
  | cons hfirst _ =>
    obtain ⟨t, rest, word, rfl, ht⟩ := leadingWord_of_isStatement hfirst
    exact wordFirst_cons ht

/-- The word `end` starts no statement but an assignment. -/
theorem head?_eq_equals_of_end {st : Statement} (h : IsStatement (t :: us) st)
    (ht : t = word "end") (k : List Token) : (us ++ k).head? = some equals := by
  -- each form starts with a word of its own, which is no `end`, except for assignments
  generalize hts : t :: us = ts at h
  cases h with
  | @assignment isLocal _ _ _ _ hname _ =>
    cases isLocal with
    | true => exact absurd (ht.symm.trans (List.cons.inj hts).1) (by decide)
    | false =>
      obtain ⟨_, rfl⟩ := List.cons.inj hts
      rfl
  | command name =>
    exact absurd (ht.symm.trans (List.cons.inj hts).1) (by cases name <;> decide)
  | transformation kind =>
    exact absurd (ht.symm.trans (List.cons.inj hts).1) (by cases kind <;> decide)
  | _ => exact absurd (ht.symm.trans (List.cons.inj hts).1) (by decide)

/-- A form that is not told from the others by its first word is a list behind some words. -/
theorem afterStatement_list (text : String) (words : List Token) (hn : 0 < n)
    (htext : word text ∉ [word "local", word "do", word "if", word "while", word "function"]
      ++ Transform.all.map (word ·.text))
    (hwords : ∀ t ∈ words, ∃ word, t.word? = some word)
    (h : ∀ (m : Mode) k, m.opened.skip (ts ++ k) = m.opened.skip k) (hk : WordFirst k) :
    afterStatement n (word text :: (words ++ leftParen :: (ts ++ rightParen :: k))) = k := by
  obtain ⟨n, rfl⟩ := Nat.exists_eq_add_one.2 hn
  have hparen : ∀ t ∈ words, decide (t ≠ leftParen) = true := by
    intro t ht
    obtain ⟨word, hword⟩ := hwords t ht
    exact decide_eq_true (Token.ne_of_word? hword rfl)
  have hne : (words ++ leftParen :: (ts ++ rightParen :: k)).head? ≠ some equals := by
    cases words with
    | nil => simp [leftParen, equals]
    | cons t words =>
      obtain ⟨word, hword⟩ := hwords t (List.mem_cons_self ..)
      exact head?_ne_of_word? hword rfl _
  simp only [List.mem_append, List.mem_cons, List.not_mem_nil, or_false, not_or] at htext
  -- only the last branch of `afterStatement` is left, which drops what is before the parenthesis
  obtain ⟨⟨hlocal, hdo, hif, hwhile, hfunction⟩, htransform⟩ := htext
  rw [afterStatement, if_neg hne, if_neg hlocal, if_neg hdo, if_neg (by simp [hif, hwhile]),
    if_neg hfunction, if_neg htransform, List.dropWhile_append_of_pos hparen]
  exact skip_list h hk

/-- In a conditional and in a loop a body stands behind a condition and a word. -/
theorem afterStatement_tested {keyword opener : String} {c : Expr}
    (hkeyword : keyword = "if" ∨ keyword = "while") (hc : IsCondition cs c) (us : List Token) :
    afterStatement (n + 1) (word keyword :: (cs ++ word opener :: us)) = afterEnd n us := by
  have hopener : (word opener).word? = some opener := rfl
  have hafter := afterCondition_append hc (wordFirst_cons (k := us) hopener)
  have htested : word keyword = word "if" ∨ word keyword = word "while" :=
    hkeyword.imp (congrArg word) (congrArg word)
  have hother : word keyword ≠ word "local" ∧ word keyword ≠ word "do" := by
    rcases hkeyword with rfl | rfl <;> decide
  rw [afterStatement, if_neg (head?_ne_equals_of_isCondition hc hopener), if_neg hother.1,
    if_neg hother.2, if_pos htested, hafter, List.tail_cons]

mutual

theorem afterStatement_append : ∀ {ts : List Token} {st : Statement}, IsStatement ts st →
    ∀ {n k}, ts.length ≤ n → WordFirst k → afterStatement n (ts ++ k) = k
  | _, _, .camera h, n, k, hn, hk => by
    have hafter := afterStatement_list "set" [word "camera"] (Nat.zero_lt_of_lt hn) (by decide)
      (by simp [word, Token.word?]) (spans_sum h).opened hk
    simpa using hafter
  | _, _, .light h, n, k, hn, hk => by
    have hafter := afterStatement_list "append" [word "light"] (Nat.zero_lt_of_lt hn)
      (by decide) (by simp [word, Token.word?]) (skip_arguments h) hk
    simpa using hafter
  | _, _, @IsStatement.call t _ _ _ hname h, n, k, hn, hk => by
    have hafter := afterStatement_list "call" [t] (Nat.zero_lt_of_lt hn) (by decide)
      (by simp [hname.word?]) (skip_arguments h) hk
    simpa using hafter
  | _, _, .command name h, n, k, hn, hk => by
    have hafter := afterStatement_list name.text [] (Nat.zero_lt_of_lt hn)
      (by cases name <;> decide) nofun (skip_arguments h) hk
    simpa using hafter
  | _, _, .block h, n, k, hn, hk => by
    obtain ⟨n, rfl⟩ := Nat.exists_eq_add_one.2 (Nat.zero_lt_of_lt hn)
    simp only [List.length_cons, List.length_append, List.length_nil] at hn
    simp only [List.cons_append, List.append_assoc, List.nil_append]
    rw [afterStatement, if_neg (head?_ne_equals_of_isBody h k), if_neg (by decide), if_pos rfl]
    exact afterEnd_append h (by omega) hk
  | _, _, .conditional hc h, n, k, hn, hk => by
    obtain ⟨n, rfl⟩ := Nat.exists_eq_add_one.2 (Nat.zero_lt_of_lt hn)
    simp only [List.length_cons, List.length_append, List.length_nil] at hn
    simp only [List.cons_append, List.append_assoc, List.nil_append]
    rw [afterStatement_tested (.inl rfl) hc]
    exact afterEnd_append h (by omega) hk
  | _, _, .loop hc h, n, k, hn, hk => by
    obtain ⟨n, rfl⟩ := Nat.exists_eq_add_one.2 (Nat.zero_lt_of_lt hn)
    simp only [List.length_cons, List.length_append, List.length_nil] at hn
    simp only [List.cons_append, List.append_assoc, List.nil_append]
    rw [afterStatement_tested (.inr rfl) hc]
    exact afterEnd_append h (by omega) hk
  | _, _, @IsStatement.definition t ps ts _ _ _ hname hparams h, n, k, hn, hk => by
    obtain ⟨n, rfl⟩ := Nat.exists_eq_add_one.2 (Nat.zero_lt_of_lt hn)
    have hbody := wordFirst_append_of_isBody h (wordFirst_end k)
    simp only [List.length_cons, List.length_append, List.length_nil] at hn
    simp only [List.cons_append, List.append_assoc, List.nil_append]
    rw [afterStatement, if_neg (head?_ne_of_word? hname.word? rfl _), if_neg (by decide),
      if_neg (by decide), if_neg (by decide), if_pos rfl, List.tail_cons,
      skip_list (skip_parameters hparams) hbody]
    exact afterEnd_append h (by omega) hk
  | _, _, .assignment isLocal hname h, n, k, hn, hk => by
    cases isLocal with
    | false => exact afterStatement_assigned (Nat.zero_lt_of_lt hn) h hk
    | true =>
      obtain ⟨n, rfl⟩ := Nat.exists_eq_add_one.2 (Nat.zero_lt_of_lt hn)
      simp only [localTokens, List.cons_append, List.nil_append, if_true]
      rw [afterStatement, if_neg (head?_ne_of_word? hname.word? rfl _), if_pos rfl]
      exact skip_sum h hk
  | _, _, .transformation kind hx hy hz h, n, k, hn, hk => by
    obtain ⟨n, rfl⟩ := Nat.exists_eq_add_one.2 (Nat.zero_lt_of_lt hn)
    obtain ⟨t, rest, text, rfl, ht⟩ := leadingWord_of_isStatement h
    simp only [List.length_cons, List.length_append] at hn
    simp only [List.cons_append, List.append_assoc]
    have hskip := skip_triple (spans_sum hx) (spans_sum hy) (spans_sum hz) .operand
      (Mode.step_rightParen .operand) (t :: (rest ++ k))
    -- behind the header the statement inside is looked at, with a token less to go
    rw [Mode.after, skip_operator (wordFirst_cons ht)] at hskip
    rw [afterStatement, if_neg (by simp [leftParen, equals]), if_neg (by cases kind <;> decide),
      if_neg (by cases kind <;> decide), if_neg (by cases kind <;> decide),
      if_neg (by cases kind <;> decide), if_pos (by cases kind <;> decide),
      skip_cons (Mode.step_leftParen _), hskip]
    exact afterStatement_append h (by simp; omega) hk

theorem afterEnd_append : ∀ {ts : List Token} {ss : List Statement}, IsBody ts ss →
    ∀ {n k}, ts.length < n → WordFirst k → afterEnd n (ts ++ word "end" :: k) = k
  | _, _, .nil, _, _, hn, hk => afterEnd_of_end (Nat.zero_lt_of_lt hn) hk
  | _, _, @IsBody.cons ts us _ _ h hmore, n, k, hn, hk => by
    obtain ⟨n, rfl⟩ := Nat.exists_eq_add_one.2 (Nat.zero_lt_of_lt hn)
    rw [List.length_append] at hn
    have hfirst := afterStatement_append h (n := n) (k := us ++ word "end" :: k) (by omega)
      (wordFirst_append_of_isBody hmore (wordFirst_end k))
    obtain ⟨t, rest, text, rfl, ht⟩ := leadingWord_of_isStatement h
    -- a statement of the body is not taken for the `end` of the body
    have hne : ¬(t = word "end" ∧ (rest ++ (us ++ word "end" :: k)).head? ≠ some equals) :=
      fun hend => hend.2 (head?_eq_equals_of_end h hend.1 _)
    rw [List.length_cons] at hn
    rw [List.append_assoc, List.cons_append, afterEnd, if_neg hne, ← List.cons_append, hfirst]
    exact afterEnd_append hmore (by omega) hk

end

/-! ## Phrases that end themselves -/

/-- Where a phrase ends is found from its tokens, if there is a word behind it or nothing. -/
def EndsItself (L : Language Token) : Prop :=
  ∃ behind : List Token → List Token, ∀ us ∈ L, ∀ k, WordFirst k → behind (us ++ k) = k

/-- With a word behind it such a phrase is not the start of a longer one. -/
theorem EndsItself.not_mem_prefixes {L : Language Token} (h : EndsItself L) (hus : us ∈ L)
    (hk : WordFirst k) (hne : k ≠ []) : us ++ k ∉ prefixes L := by
  rintro ⟨more, hlonger⟩
  obtain ⟨behind, hbehind⟩ := h
  obtain ⟨t, rest, rfl⟩ := List.exists_cons_of_ne_nil hne
  obtain ⟨word, ht⟩ := hk t rfl
  -- read as the phrase and what is behind it, and as the longer phrase and nothing
  have hshort := hbehind us hus (t :: (rest ++ more)) (wordFirst_cons ht)
  have hlong := hbehind _ hlonger [] wordFirst_nil
  simp only [List.append_assoc, List.cons_append, List.append_nil] at hshort hlong
  rw [hshort] at hlong
  cases hlong

theorem endsItself_statements : EndsItself statements := by
  refine ⟨fun ts => afterStatement ts.length ts, ?_⟩
  rintro us ⟨st, hst⟩ k hk
  exact afterStatement_append hst (by simp) hk

theorem endsItself_conditions : EndsItself conditions := by
  refine ⟨afterCondition, ?_⟩
  rintro us ⟨c, hc⟩ k hk
  exact afterCondition_append hc hk

/-- Three expressions in parentheses, without the one that opens. -/
theorem endsItself_triples : EndsItself (triples rightParen) := by
  refine ⟨Mode.operand.opened.skip, ?_⟩
  rintro _ ⟨xs, ⟨x, hx⟩, _, ⟨_, rfl, _, ⟨ys, ⟨y, hy⟩, _, ⟨_, rfl, _, ⟨zs, ⟨z, hz⟩, _, rfl, rfl⟩,
    rfl⟩, rfl⟩, rfl⟩, rfl⟩ k hk
  have htriple := skip_triple (spans_sum hx) (spans_sum hy) (spans_sum hz) .operand
    Mode.operand.step_rightParen k
  rw [Mode.after, skip_operator hk] at htriple
  simpa using htriple

/-- Parameters in parentheses, without the one that opens. -/
theorem endsItself_parameters : EndsItself (parameterLists * token rightParen) := by
  refine ⟨Mode.operand.opened.skip, ?_⟩
  rintro _ ⟨ps, ⟨params, hps⟩, _, rfl, rfl⟩ k hk
  have hclosed : Mode.operand.opened.skip (ps ++ rightParen :: k) = k := by
    rw [skip_parameters hps, skip_cons Mode.operand.step_rightParen]
    exact skip_operator hk
  simpa using hclosed

end SceneScript.Parser
