import SceneScript.Grammar
import SceneScript.Proofs.Cursor.Ahead
import SceneScript.Proofs.Parser.Paired

/-!
# Expressions in lockstep

Two parsers go through expressions in lockstep if they do so token by token.  `Lockstep` says what
that asks of the places where the two stand and of the rest of their states, and the rules for
expressions keep it, whatever rules for the expressions inside do.

Where they stand comes with a *mode*: whether an operand is due, or one has just been read, or how
many brackets are open.  The modes follow the tokens alone, so a place that is reached twice is
reached in one mode.
-/

namespace SceneScript.Parser

/-! ## Modes -/

/-- How far an expression has been read. -/
inductive Mode where
  | operand
  | operator
  | inside (depth : Nat)
  deriving DecidableEq

namespace Mode

/-- The mode behind a value. -/
def after : Mode → Mode
  | operand => operator
  | operator => operator
  | inside depth => inside depth

/-- The mode behind an opening bracket. -/
def opened : Mode → Mode
  | operand => inside 0
  | operator => inside 0
  | inside depth => inside (depth + 1)

/-- The mode behind a closing bracket, with so many other brackets open. -/
def closed : Nat → Mode
  | 0 => operator
  | depth + 1 => inside depth

/-- The mode behind a token, if an expression can go on with it.  In brackets everything can. -/
def step : Mode → Token → Option Mode
  | operand, .operator x =>
    if x = '-' then some operand else if x = '<' then some (inside 0) else none
  | operand, .punctuation x => if x = '(' then some (inside 0) else none
  | operand, _ => some operator
  | operator, .operator x => if x = '<' ∨ x = '>' ∨ x = '=' then none else some operand
  | operator, .punctuation x => if x = '(' then some (inside 0) else none
  | operator, _ => none
  | inside depth, .operator x =>
    if x = '<' then some (inside (depth + 1))
    else if x = '>' then some (closed depth) else some (inside depth)
  | inside depth, .punctuation x =>
    if x = '(' then some (inside (depth + 1))
    else if x = ')' then some (closed depth) else some (inside depth)
  | inside depth, _ => some (inside depth)

@[simp] theorem opened_after (m : Mode) : m.after.opened = m.opened := by
  cases m <;> rfl

@[simp] theorem after_after (m : Mode) : m.after.after = m.after := by
  cases m <;> rfl

theorem opened_ne_operator (m : Mode) : m.opened ≠ operator := by
  cases m <;> simp [opened]

@[simp] theorem after_opened (m : Mode) : m.opened.after = m.opened := by
  cases m <;> rfl

/-- A parenthesis is opened in every mode, to group or to call. -/
theorem step_leftParen (m : Mode) : m.step Grammar.leftParen = some m.opened := by
  cases m <;> rfl

theorem step_leftAngle {m : Mode} (hm : m ≠ operator) :
    m.step Grammar.leftAngle = some m.opened := by
  cases m <;> first | rfl | exact absurd rfl hm

/-- A parenthesis that is closed leaves a value behind. -/
theorem step_rightParen (m : Mode) : m.opened.step Grammar.rightParen = some m.after := by
  cases m <;> rfl

theorem step_rightAngle (m : Mode) : m.opened.step Grammar.rightAngle = some m.after := by
  cases m <;> rfl

/-- Behind a comma it goes on as behind what opened. -/
theorem step_comma (m : Mode) : m.opened.step Grammar.comma = some m.opened := by
  cases m <;> rfl

theorem step_minus {m : Mode} (hm : m ≠ operator) : m.step Grammar.minus = some m := by
  cases m <;> first | rfl | exact absurd rfl hm

/-- A word is a value, and so it leaves one behind. -/
theorem step_word {m : Mode} (hm : m ≠ operator) (word : String) :
    m.step (Token.ofWord word) = some m.after := by
  rcases Token.ofWord_eq word with h | h <;> rw [h] <;> cases m <;>
    first | rfl | exact absurd rfl hm

theorem step_number {m : Mode} (hm : m ≠ operator) (x : Binary64) :
    m.step (.number x) = some m.after := by
  cases m <;> first | rfl | exact absurd rfl hm

theorem step_text {m : Mode} (hm : m ≠ operator) (text : String) :
    m.step (.text text) = some m.after := by
  cases m <;> first | rfl | exact absurd rfl hm

/-- Behind an operator a value is due again. -/
theorem step_operatorToken {m : Mode} (hm : m ≠ operator) {op : Operator} (hop : 1 < op.precedence) :
    m.after.step (Grammar.operatorToken op) = some m := by
  cases m <;> cases op <;> first | rfl | exact absurd rfl hm | simp [Operator.precedence] at hop

/-- In brackets everything can come next. -/
theorem step_inside (depth : Nat) (t : Token) : ∃ m, (inside depth).step t = some m := by
  cases t <;> simp only [step] <;> repeat' split
  all_goals exact ⟨_, rfl⟩

end Mode

/-! ## Lockstep -/

/-- What two parsers keep that go in lockstep. -/
structure Lockstep where
  /-- Where the two stand. -/
  cursors : Mode → Cursor → Cursor → Prop
  /-- The rest of their states, where the cursors are of no account. -/
  states : State → State → Prop
  aborts : Abort → Abort → Prop
  moveTo {s t : State} (c d : Cursor) : states s t → states (s.moveTo c) (t.moveTo d)
  trivia {m : Mode} {c d : Cursor} : cursors m c d → cursors m c.afterTrivia d.afterTrivia
  /-- The same token comes next for both, or none for either. -/
  next {m : Mode} {c d : Cursor} : cursors m c d → c.Settled → d.Settled →
    (c.next? = none ∧ d.next? = none) ∨ ∃ t c' d', c.next? = some (t, c') ∧ d.next? = some (t, d')
      ∧ ∀ n, m.step t = some n → cursors n c' d'
  expect {m : Mode} {s t : State} (e : Expectation) : cursors m s.cursor t.cursor →
    s.cursor.Settled → t.cursor.Settled → states s t → states (s.expect e) (t.expect e)
  number {m : Mode} {s t : State} : m ≠ .operator → cursors m s.cursor t.cursor →
    s.cursor.Settled → t.cursor.Settled → states s t →
    Reply.Paired (fun v w s t => v = w ∧ cursors m.after s.cursor t.cursor ∧ states s t) states
      aborts (Rule.literal Cursor.number? s) (Rule.literal Cursor.number? t)
  text {m : Mode} {s t : State} : m ≠ .operator → cursors m s.cursor t.cursor →
    s.cursor.Settled → t.cursor.Settled → states s t →
    Reply.Paired (fun v w s t => v = w ∧ cursors m.after s.cursor t.cursor ∧ states s t) states
      aborts (Rule.literal Cursor.text? s) (Rule.literal Cursor.text? t)

namespace Lockstep

open Rule

variable (L : Lockstep) {α β : Type} {m n o : Mode}

/-- The two are in lockstep. -/
def At (m : Mode) (s t : State) : Prop := L.cursors m s.cursor t.cursor ∧ L.states s t

/-- The two are in lockstep and stand before no trivia. -/
def SettledAt (m : Mode) (s t : State) : Prop :=
  L.At m s t ∧ s.cursor.Settled ∧ t.cursor.Settled

/-- From `P` the two rules match alike and stay in lockstep, or do not match and leave `U`. -/
def Keeps (P U : State → State → Prop) (m : Mode) (x y : Rule α) : Prop :=
  Paired P (fun v w s t => v = w ∧ L.At m s t) U L.aborts x y

/-- The two rules keep step from one mode to another.  Where they do not match, their cursors may
be anywhere. -/
def Agree (m n : Mode) (x y : Rule α) : Prop := L.Keeps (L.At m) L.states n x y

/-- The two rules keep step, and pass nothing but trivia where they do not match. -/
def Firm (m n : Mode) (x y : Rule α) : Prop := L.Keeps (L.At m) (L.At m) n x y

variable {L} {P P' U U' : State → State → Prop} {x y : Rule α}

theorem Keeps.weaken (h : L.Keeps P U m x y) (hP : ∀ s t, P' s t → P s t) : L.Keeps P' U m x y :=
  Paired.weaken h hP

/-- Rules that agree do so behind blanks. -/
theorem Agree.settled (h : L.Agree m n x y) : L.Keeps (L.SettledAt m) L.states n x y :=
  h.weaken fun _ _ hst => hst.1

/-- Firm rules agree. -/
theorem Firm.agree (h : L.Firm m n x y) : L.Agree m n x y :=
  h.mono (fun _ _ hst => hst) (fun _ _ _ _ hst => hst) fun _ _ hst => hst.2

/-- Two rules keep step if their first parts do and their second ones do behind them. -/
theorem Keeps.bind {f g : α → Rule β} (h : L.Keeps P U m x y)
    (hfg : ∀ v, L.Keeps (L.At m) U n (f v) (g v)) : L.Keeps P U n (x >>= f) (y >>= g) := by
  refine Paired.bind h fun v w => ?_
  rintro s t ⟨rfl, hst⟩
  exact hfg v s t hst

theorem keeps_pure (value : α) : L.Keeps (L.At m) U m (pure value) (pure value) :=
  paired_pure fun _ _ hst => ⟨rfl, hst⟩

/-! ## Tokens -/

/-- Both parsers skip blanks and comments. -/
theorem trivia_paired {V : Unit → Unit → State → State → Prop}
    (h : ∀ s t, L.SettledAt m s t → V () () s t) :
    Paired (L.At m) V U L.aborts Rule.trivia Rule.trivia := by
  intro s t hst
  exact h _ _ ⟨⟨L.trivia hst.1, L.moveTo _ _ hst.2⟩, Cursor.settled_afterTrivia _,
    Cursor.settled_afterTrivia _⟩

/-- Trivia does not matter. -/
theorem Keeps.after_trivia {f g : Unit → Rule α} (h : L.Keeps (L.SettledAt m) U n (f ()) (g ())) :
    L.Keeps (L.At m) U n (Rule.trivia >>= f) (Rule.trivia >>= g) :=
  (trivia_paired (V := fun _ _ => L.SettledAt m) fun _ _ hst => hst).bind fun _ _ => h

/-- Both parsers step over a token, or neither does. -/
theorem move_keeps {f : Cursor → Option Cursor} {t : Token}
    (hf : ∀ c d, c.Settled → (f c = some d ↔ c.next? = some (t, d))) (hm : m.step t = some n) :
    L.Keeps (L.SettledAt m) (L.SettledAt m) n (move f) (move f) := by
  intro s u hsu
  obtain ⟨⟨hc, hst⟩, hs, hu⟩ := id hsu
  have hnone : ∀ c : Cursor, c.Settled → (∀ d, c.next? ≠ some (t, d)) → f c = none := by
    intro c hc hne
    rw [Option.eq_none_iff_forall_ne_some]
    exact fun d hd => hne d ((hf c d hc).1 hd)
  unfold Rule.move
  rcases L.next hc hs hu with ⟨hn, hn'⟩ | ⟨t', c', d', hsome, hsome', hstep⟩
  · rw [hnone _ hs (by simp [hn]), hnone _ hu (by simp [hn'])]
    exact hsu
  · by_cases htt : t' = t
    · subst htt
      rw [(hf _ _ hs).2 hsome, (hf _ _ hu).2 hsome']
      exact ⟨rfl, hstep n hm, L.moveTo _ _ hst⟩
    · rw [hnone _ hs (by simp [hsome, htt]), hnone _ hu (by simp [hsome', htt])]
      exact hsu

theorem move_symbol_keeps {symbol : String} {t : Token} (hs : Cursor.IsSymbol symbol t)
    (hm : m.step t = some n) : L.Keeps (L.SettledAt m) (L.SettledAt m) n
      (move (Cursor.afterSymbol? symbol)) (move (Cursor.afterSymbol? symbol)) :=
  move_keeps (fun _ _ hc => Cursor.afterSymbol?_eq_some_iff hc hs) hm

theorem move_keyword_keeps {word : String} (hw : Cursor.IsWord word) (hm : m ≠ .operator) :
    L.Keeps (L.SettledAt m) (L.SettledAt m) m.after
      (move (Cursor.afterKeyword? word)) (move (Cursor.afterKeyword? word)) :=
  move_keeps (fun _ _ hc => Cursor.afterKeyword?_eq_some_iff hc hw) (Mode.step_word hm word)

theorem Keeps.loose (h : L.Keeps P (L.SettledAt m) n x y) : L.Keeps P L.states n x y :=
  h.mono (fun _ _ hst => hst) (fun _ _ _ _ hst => hst) fun _ _ hst => hst.1.2

theorem Keeps.firm (h : L.Keeps P (L.SettledAt m) n x y) : L.Keeps P (L.At m) n x y :=
  h.mono (fun _ _ hst => hst) (fun _ _ _ _ hst => hst) fun _ _ hst => hst.1

/-- Both parsers read a symbol, or neither does. -/
theorem symbol_firm {symbol : String} {t : Token} (hs : Cursor.IsSymbol symbol t)
    (hm : m.step t = some n) : L.Firm m n (Rule.symbol symbol) (Rule.symbol symbol) :=
  Keeps.after_trivia (move_symbol_keeps hs hm).firm

/-- Both parsers read a keyword, or neither does. -/
theorem keyword_firm {word : String} (hw : Cursor.IsWord word) (hm : m ≠ .operator) :
    L.Firm m m.after (Rule.keyword word) (Rule.keyword word) :=
  Keeps.after_trivia (move_keyword_keeps hw hm).firm

/-! ## Choice -/

/-- Both parsers note what is expected. -/
theorem unmet_keeps (e : Expectation) :
    L.Keeps (L.SettledAt m) (L.SettledAt m) n (unmet e : Rule α) (unmet e) := by
  refine paired_unmet fun s t hst => ?_
  exact ⟨⟨hst.1.1, L.expect e hst.1.1 hst.2.1 hst.2.2 hst.1.2⟩, hst.2⟩

/-- Choices between two rules keep step if both rules do. -/
theorem Keeps.orElse {x' y' : Rule α} (h : L.Keeps (L.SettledAt m) L.states n x y)
    (h' : L.Keeps (L.SettledAt m) U n x' y') :
    L.Keeps (L.SettledAt m) U n (x.orElse x') (y.orElse y') :=
  Paired.orElse h (fun _ _ _ _ hst hst' => ⟨⟨hst.1.1, L.moveTo _ _ hst'⟩, hst.2⟩) h'

theorem firstOf_nil_keeps :
    L.Keeps (L.SettledAt m) (L.SettledAt m) n (firstOf ([] : List (Rule α))) (firstOf []) :=
  paired_firstOf_nil

/-- A rule that is tried keeps step firmly, since both parsers go back if it fails. -/
theorem Keeps.attempt (h : L.Keeps (L.At m) L.states n x y) :
    L.Firm m n x.attempt y.attempt :=
  Paired.attempt h fun _ _ _ _ hst hst' => ⟨hst.1, L.moveTo _ _ hst'⟩

theorem dueSymbol_agree {symbol : String} {t : Token} (hs : Cursor.IsSymbol symbol t)
    (hm : m.step t = some n) : L.Agree m n (dueSymbol symbol) (dueSymbol symbol) :=
  Keeps.after_trivia ((move_symbol_keeps hs hm).loose.orElse (unmet_keeps _).loose)

/-- A choice of rules that keep step from one place. -/
theorem Firm.orElse {x' y' : Rule α} (h : L.Firm m n x y) (h' : L.Firm m n x' y') :
    L.Firm m n (x.orElse x') (y.orElse y') :=
  Paired.orElse h (fun _ _ _ _ hst hst' => ⟨hst.1, L.moveTo _ _ hst'.2⟩) h'

/-- One of some keywords. -/
theorem oneOf_firm {choices : List α} {word : α → String}
    (h : ∀ choice ∈ choices, L.Firm m n (Rule.keyword (word choice)) (Rule.keyword (word choice))) :
    L.Firm m n (oneOf choices word) (oneOf choices word) := by
  unfold oneOf
  induction choices with
  | nil => exact paired_firstOf_nil
  | cons choice more ih =>
    refine Firm.orElse ?_ (ih fun other ho => h other (List.mem_cons_of_mem _ ho))
    exact Keeps.bind (h choice (List.mem_cons_self ..)) fun _ => keeps_pure choice

/-! ## Lists of expressions -/

section

variable {inner inner' : Rule Expr}

theorem argument_firm (h : L.Firm m.opened m.opened inner inner') :
    L.Firm m.opened m.opened (argument inner) (argument inner') := by
  refine Keeps.bind h fun arg => ?_
  have hcomma : L.Firm m.opened m.opened (Rule.symbol ",") (Rule.symbol ",") :=
    symbol_firm Cursor.isSymbol_comma (Mode.step_comma m)
  have hopt : L.Keeps (L.At m.opened) (L.At m.opened) m.opened
      (optionally (Rule.symbol ",")) (optionally (Rule.symbol ",")) :=
    Paired.optionally (hcomma.mono (fun _ _ hst => hst) (fun _ _ _ _ hst => hst)
      fun _ _ hst => ⟨rfl, hst⟩)
  exact hopt.bind fun _ => keeps_pure arg

/-- Both parsers read arguments alike, if they read each argument alike. -/
theorem arguments_agree (h : L.Firm m.opened m.opened inner inner')
    (heven : Even (L.At m.opened) (argument inner) (argument inner')) :
    L.Agree m m.after (arguments inner) (arguments inner') := by
  refine Keeps.bind (dueSymbol_agree Cursor.isSymbol_leftParen (Mode.step_leftParen m))
    fun _ => ?_
  refine Keeps.bind (m := m.opened) (Paired.many (argument_firm h) heven fun _ _ => id) fun args => ?_
  refine Keeps.bind (dueSymbol_agree Cursor.isSymbol_rightParen (Mode.step_rightParen m))
    fun _ => ?_
  exact keeps_pure args

/-- Both parsers read three expressions alike. -/
theorem triple_agree (h : L.Firm m.opened m.opened inner inner') {close : String} {t : Token}
    (hclose : Cursor.IsSymbol close t) (hstep : m.opened.step t = some m.after) :
    L.Agree m.opened m.after (triple inner close) (triple inner' close) := by
  have hcomma : L.Agree m.opened m.opened (dueSymbol ",") (dueSymbol ",") :=
    dueSymbol_agree Cursor.isSymbol_comma (Mode.step_comma m)
  refine Keeps.bind h.agree fun first => hcomma.bind fun _ => ?_
  refine Keeps.bind h.agree fun second => hcomma.bind fun _ => ?_
  refine Keeps.bind h.agree fun third => Keeps.bind (dueSymbol_agree hclose hstep) fun _ => ?_
  exact keeps_pure (first, second, third)

/-! ## Values -/

theorem rgb_agree (hm : m ≠ .operator) (h : L.Firm m.opened m.opened inner inner') :
    L.Agree m m.after (rgb inner) (rgb inner') := by
  refine Keeps.bind (keyword_firm (by decide) hm).agree fun _ => ?_
  refine Keeps.bind (Firm.agree (symbol_firm Cursor.isSymbol_leftParen (Mode.step_leftParen _)))
    fun _ => ?_
  rw [Mode.opened_after]
  refine Keeps.bind (triple_agree h Cursor.isSymbol_rightParen (Mode.step_rightParen m))
    fun parts => ?_
  exact keeps_pure (Expr.rgb parts.1 parts.2.1 parts.2.2)

/-- Both parsers read a vector alike. -/
theorem vector_agree (hm : m ≠ .operator) (h : L.Firm m.opened m.opened inner inner') :
    L.Agree m m.after (vector inner) (vector inner') := by
  refine Keeps.bind (symbol_firm Cursor.isSymbol_leftAngle (Mode.step_leftAngle hm)).agree
    fun _ => ?_
  refine Keeps.bind (triple_agree h Cursor.isSymbol_rightAngle (Mode.step_rightAngle m))
    fun parts => ?_
  exact keeps_pure (Expr.vector parts.1 parts.2.1 parts.2.2)

theorem texture_agree (hm : m ≠ .operator) (h : L.Firm m.opened m.opened inner inner') :
    L.Agree m m.after (texture inner) (texture inner') := by
  refine Keeps.bind (keyword_firm (by decide) hm).agree fun _ => ?_
  refine Keeps.bind (Firm.agree (symbol_firm Cursor.isSymbol_leftParen (Mode.step_leftParen _)))
    fun _ => ?_
  rw [Mode.opened_after]
  refine Keeps.bind h.agree fun path => ?_
  refine Keeps.bind (dueSymbol_agree Cursor.isSymbol_rightParen (Mode.step_rightParen m))
    fun _ => ?_
  exact keeps_pure (Expr.texture path)

/-- Both parsers read parentheses alike. -/
theorem paren_agree (h : L.Firm m.opened m.opened inner inner') :
    L.Agree m m.after (paren inner) (paren inner') := by
  refine Keeps.bind (Firm.agree (symbol_firm Cursor.isSymbol_leftParen (Mode.step_leftParen m)))
    fun _ => ?_
  refine Keeps.bind h.agree fun content => ?_
  refine Keeps.bind (dueSymbol_agree Cursor.isSymbol_rightParen (Mode.step_rightParen m))
    fun _ => ?_
  exact keeps_pure (Expr.paren content)

/-- Both parsers read a solid alike. -/
theorem solid_keeps (hm : m ≠ .operator) (h : L.Firm m.opened m.opened inner inner')
    (heven : Even (L.At m.opened) (argument inner) (argument inner')) :
    L.Keeps (L.SettledAt m) L.states m.after (solid inner) (solid inner') := by
  rw [← Mode.opened_after] at h heven
  have hargs := arguments_agree h heven
  rw [Mode.after_after] at hargs
  have hkind : L.Firm m m.after (oneOf Solid.all Solid.text) (oneOf Solid.all Solid.text) :=
    oneOf_firm fun kind _ => keyword_firm (Cursor.isWord_solid kind) hm
  refine Keeps.bind (Agree.settled (Firm.agree hkind)) fun kind => ?_
  refine Keeps.bind hargs fun args => ?_
  exact keeps_pure (Expr.solid kind args)

theorem name_keeps (hm : m ≠ .operator) :
    L.Keeps (L.SettledAt m) L.states m.after Rule.name Rule.name := by
  intro s u hsu
  obtain ⟨⟨hc, hst⟩, hs, hu⟩ := hsu
  have hname : ∀ c : Cursor, c.Settled → (∀ w d, c.next? = some (Token.ofWord w, d) →
      isReserved w = true) → c.name? = none := by
    intro c hc hres
    rw [Option.eq_none_iff_forall_ne_some]
    rintro ⟨w, d⟩ hd
    obtain ⟨hnext, hfree⟩ := (Cursor.name?_eq_some_iff hc).1 hd
    simp [hres w d hnext] at hfree
  unfold Rule.name
  rcases L.next hc hs hu with ⟨hn, hn'⟩ | ⟨t, c', d', hsome, hsome', hstep⟩
  · rw [hname _ hs (by simp [hn]), hname _ hu (by simp [hn'])]
    exact hst
  · by_cases hw : ∃ w, t = Token.ofWord w ∧ isReserved w = false
    · obtain ⟨w, rfl, hfree⟩ := hw
      rw [(Cursor.name?_eq_some_iff hs).2 ⟨hsome, hfree⟩,
        (Cursor.name?_eq_some_iff hu).2 ⟨hsome', hfree⟩]
      exact ⟨rfl, hstep _ (Mode.step_word hm w), L.moveTo _ _ hst⟩
    · have hres : ∀ w, t = Token.ofWord w → isReserved w = true := by
        intro w hw'
        by_cases hfree : isReserved w = true
        · exact hfree
        · exact absurd ⟨w, hw', by simpa using hfree⟩ hw
      rw [hname _ hs fun w d h => hres w (by simpa [hsome] using congrArg (·.map Prod.fst) h),
        hname _ hu fun w d h => hres w (by simpa [hsome'] using congrArg (·.map Prod.fst) h)]
      exact hst

/-- Both parsers read a value alike, of whatever kind. -/
theorem value_firm (hm : m ≠ .operator) (h : L.Firm m.opened m.opened inner inner')
    (heven : Even (L.At m.opened) (argument inner) (argument inner')) :
    L.Firm m m.after (value inner) (value inner') := by
  refine Keeps.after_trivia (Keeps.firm ?_)
  refine Keeps.orElse ?number ?_
  case number =>
    have hscan : L.Keeps (L.SettledAt m) L.states m.after (literal Cursor.number?)
        (literal Cursor.number?) := fun s t hst => L.number hm hst.1.1 hst.2.1 hst.2.2 hst.1.2
    exact hscan.bind fun x => keeps_pure (Expr.number x)
  refine Keeps.orElse ?color ?_
  case color =>
    have hcolor : L.Firm m m.after (oneOf Color.all Color.text) (oneOf Color.all Color.text) :=
      oneOf_firm fun c _ => keyword_firm (Cursor.isWord_color c) hm
    exact Keeps.bind (Agree.settled (Firm.agree hcolor)) fun c => keeps_pure (Expr.color c)
  refine Keeps.orElse (Agree.settled (rgb_agree hm h)) ?_
  refine Keeps.orElse (Agree.settled (vector_agree hm h)) ?_
  refine Keeps.orElse (Agree.settled (texture_agree hm h)) ?_
  refine Keeps.orElse (Agree.settled (paren_agree h)) ?_
  refine Keeps.orElse (solid_keeps hm h heven) ?_
  refine Keeps.orElse ?text ?_
  case text =>
    have hscan : L.Keeps (L.SettledAt m) L.states m.after (literal Cursor.text?)
        (literal Cursor.text?) := fun s t hst => L.text hm hst.1.1 hst.2.1 hst.2.2 hst.1.2
    exact hscan.bind fun x => keeps_pure (Expr.text x)
  refine Keeps.orElse ((name_keeps hm).bind fun x => keeps_pure (Expr.identifier x)) ?_
  exact Keeps.orElse (unmet_keeps .value).loose firstOf_nil_keeps

/-! ## Operators -/

/-- Both parsers read a value with minus signs alike. -/
theorem signed_firm (hm : m ≠ .operator) (h : L.Firm m m.after (value inner) (value inner')) :
    L.Firm m m.after (signed inner) (signed inner') := by
  refine Keeps.after_trivia ?_
  have hminus := move_symbol_keeps (L := L) Cursor.isSymbol_minus (Mode.step_minus hm)
  have hnegate : L.Agree m m.after (do return Expr.negate (← value inner))
      (do return Expr.negate (← value inner')) :=
    Keeps.bind (Firm.agree h) fun e => keeps_pure (Expr.negate e)
  refine Paired.attempt (U := L.states) ?_ fun _ _ _ _ hst hst' => ⟨hst.1.1, L.moveTo _ _ hst'⟩
  intro s t hst
  have hmove := hminus s t hst
  dsimp only
  -- both read a minus, or both go on where they are
  cases hs : move (Cursor.afterSymbol? "-") s <;> cases ht : move (Cursor.afterSymbol? "-") t <;>
    simp only [hs, ht, Reply.Paired] at hmove
  · exact hnegate _ _ hmove.2
  · exact Firm.agree h _ _ hmove.1
  · exact hmove

/-- Both parsers read an operator alike, if it is one of a sum or a product. -/
theorem operator_agree {operators : List Operator} (hm : m ≠ .operator)
    (hop : ∀ op ∈ operators, 1 < op.precedence) :
    L.Agree m.after m (operator operators) (operator operators) := by
  refine Keeps.after_trivia (Keeps.loose (m := m.after) ?_)
  induction operators with
  | nil => exact firstOf_nil_keeps
  | cons op more ih =>
    have hmove := move_symbol_keeps (L := L) (Cursor.isSymbol_operator op)
      (Mode.step_operatorToken hm (hop op (List.mem_cons_self ..)))
    exact Keeps.orElse (hmove.loose.bind fun _ => keeps_pure op)
      (ih fun other ho => hop other (List.mem_cons_of_mem _ ho))

/-- Both parsers read an operator and its operand alike. -/
theorem operation_firm {operators : List Operator} {operand operand' : Rule Expr}
    (hm : m ≠ .operator) (hop : ∀ op ∈ operators, 1 < op.precedence)
    (h : L.Firm m m.after operand operand') :
    L.Firm m.after m.after (attempt (operation operators operand))
      (attempt (operation operators operand')) :=
  Keeps.attempt (Keeps.bind (operator_agree hm hop) fun op =>
    Keeps.bind (Firm.agree h) fun right => keeps_pure (op, right))

/-- Both parsers read a row of operators alike. -/
theorem chain_firm {operators : List Operator} {operand operand' : Rule Expr}
    (hm : m ≠ .operator) (hop : ∀ op ∈ operators, 1 < op.precedence)
    (h : L.Firm m m.after operand operand')
    (heven : Even (L.At m.after) (attempt (operation operators operand))
      (attempt (operation operators operand'))) :
    L.Firm m m.after (chain operators operand) (chain operators operand') := by
  refine Keeps.bind h fun first => ?_
  refine Keeps.bind (m := m.after) (Paired.many (operation_firm hm hop h) heven fun _ _ => id)
    fun more => ?_
  exact keeps_pure _

/-- The lists in an expression go on for both, or for neither. -/
structure EvenIn (L : Lockstep) (m : Mode) (inner inner' : Rule Expr) : Prop where
  arguments : Even (L.At m.opened) (argument inner) (argument inner')
  factors : Even (L.At m.after)
    (attempt (operation [.multiply, .divide, .modulo] (signed inner)))
    (attempt (operation [.multiply, .divide, .modulo] (signed inner')))
  terms : Even (L.At m.after) (attempt (operation [.add, .subtract] (product inner)))
    (attempt (operation [.add, .subtract] (product inner')))

/-- Both parsers read a product alike. -/
theorem product_firm (hm : m ≠ .operator) (h : L.Firm m.opened m.opened inner inner')
    (heven : EvenIn L m inner inner') : L.Firm m m.after (product inner) (product inner') := by
  have hvalue := value_firm hm h heven.arguments
  exact chain_firm hm (by decide) (signed_firm hm hvalue) heven.factors

/-- If two rules for the expressions inside keep step, the rules for sums made of them do. -/
theorem sum_firm (hm : m ≠ .operator) (h : L.Firm m.opened m.opened inner inner')
    (heven : EvenIn L m inner inner') : L.Firm m m.after (sum inner) (sum inner') :=
  chain_firm hm (by decide) (product_firm hm h heven) heven.terms

/-! ## Two that stand at one place -/

/-- Two that always stand at one place go on together. -/
theorem Firm.even (heq : ∀ {m c d}, L.cursors m c d → c = d) (h : L.Firm m n x y) :
    Even (L.At m) x y := by
  intro s t v w s' t' hst hs ht
  have hxy := h s t hst
  rw [hs, ht] at hxy
  obtain ⟨_, hst'⟩ := hxy
  rw [heq hst.1, heq hst'.1]

theorem evenIn_of_eq (heq : ∀ {m c d}, L.cursors m c d → c = d) (hm : m ≠ .operator)
    (h : L.Firm m.opened m.opened inner inner') : EvenIn L m inner inner' := by
  have harg := Firm.even heq (argument_firm h)
  have hsigned := signed_firm hm (value_firm hm h harg)
  have hproduct : Even (L.At m.after)
      (attempt (operation [.multiply, .divide, .modulo] (signed inner)))
      (attempt (operation [.multiply, .divide, .modulo] (signed inner'))) :=
    Firm.even heq (operation_firm hm (by decide) hsigned)
  have hfactors : L.Firm m m.after (product inner) (product inner') :=
    chain_firm hm (by decide) hsigned hproduct
  exact ⟨harg, hproduct, Firm.even heq (operation_firm hm (by decide) hfactors)⟩

end

/-! ## Whatever the mode -/

/-- Where the two may stand does not depend on the mode. -/
structure Uniform (L : Lockstep) : Prop where
  cursors {m n : Mode} {c d : Cursor} : L.cursors m c d → L.cursors n c d

/-- Where all modes are one, states are side by side in any of them. -/
theorem Uniform.at (hu : L.Uniform) {s t : State} (h : L.At m s t) : L.At n s t :=
  ⟨hu.cursors h.1, h.2⟩

theorem Uniform.settledAt (hu : L.Uniform) {s t : State} (h : L.SettledAt m s t) :
    L.SettledAt n s t :=
  ⟨hu.at h.1, h.2⟩

/-- Where all modes are one, any step over a token keeps step. -/
theorem Uniform.move_keeps (hu : L.Uniform) {f : Cursor → Option Cursor} {t : Token}
    (hf : ∀ c d, c.Settled → (f c = some d ↔ c.next? = some (t, d))) :
    L.Keeps (L.SettledAt m) (L.SettledAt m) n (move f) (move f) := by
  -- a mode in which any token can come next
  obtain ⟨o, hm⟩ := Mode.step_inside 0 t
  refine (Lockstep.move_keeps hf hm).mono (fun _ _ => hu.settledAt) ?_ fun _ _ => hu.settledAt
  rintro v w s t ⟨hvw, hst⟩
  exact ⟨hvw, hu.at hst⟩

theorem Uniform.move_symbol (hu : L.Uniform) {symbol : String} {t : Token}
    (hs : Cursor.IsSymbol symbol t) : L.Keeps (L.SettledAt m) (L.SettledAt m) n
      (move (Cursor.afterSymbol? symbol)) (move (Cursor.afterSymbol? symbol)) :=
  hu.move_keeps fun _ _ hc => Cursor.afterSymbol?_eq_some_iff hc hs

theorem Uniform.move_keyword (hu : L.Uniform) {word : String} (hw : Cursor.IsWord word) :
    L.Keeps (L.SettledAt m) (L.SettledAt m) n
      (move (Cursor.afterKeyword? word)) (move (Cursor.afterKeyword? word)) :=
  hu.move_keeps fun _ _ hc => Cursor.afterKeyword?_eq_some_iff hc hw

theorem Uniform.symbol (hu : L.Uniform) {symbol : String} {t : Token}
    (hs : Cursor.IsSymbol symbol t) : L.Firm m n (Rule.symbol symbol) (Rule.symbol symbol) :=
  Keeps.after_trivia (hu.move_symbol hs).firm

theorem Uniform.keyword (hu : L.Uniform) {word : String} (hw : Cursor.IsWord word) :
    L.Firm m n (Rule.keyword word) (Rule.keyword word) :=
  Keeps.after_trivia (hu.move_keyword hw).firm

theorem Uniform.dueSymbol (hu : L.Uniform) {symbol : String} {t : Token}
    (hs : Cursor.IsSymbol symbol t) : L.Firm m n (dueSymbol symbol) (dueSymbol symbol) :=
  Keeps.after_trivia (Keeps.firm ((hu.move_symbol hs).loose.orElse (unmet_keeps _)))

theorem Uniform.dueKeyword (hu : L.Uniform) {word : String} (hw : Cursor.IsWord word) :
    L.Firm m n (dueKeyword word) (dueKeyword word) :=
  Keeps.after_trivia (Keeps.firm ((hu.move_keyword hw).loose.orElse (unmet_keeps _)))

/-- Where all modes are one, both parsers read the same of some words. -/
theorem Uniform.oneOf (hu : L.Uniform) {choices : List α} {word : α → String}
    (hw : ∀ choice ∈ choices, Cursor.IsWord (word choice)) :
    L.Firm m n (oneOf choices word) (oneOf choices word) :=
  oneOf_firm fun choice hc => hu.keyword (hw choice hc)

/-- Where all modes are one, both parsers read the same of some operators. -/
theorem Uniform.operator (hu : L.Uniform) (operators : List Operator) :
    L.Firm m n (operator operators) (operator operators) := by
  refine Keeps.after_trivia (Keeps.firm ?_)
  induction operators with
  | nil => exact firstOf_nil_keeps
  | cons op more ih =>
    exact Keeps.orElse ((hu.move_symbol (Cursor.isSymbol_operator op)).loose.bind
      fun _ => keeps_pure op) ih

end Lockstep

end SceneScript.Parser
