import SceneScript.Proofs.Parser.ExpressionComplete
import SceneScript.Proofs.Parser.TokenTandem

/-!
# Expressions in tandem

If the rule for the expressions inside keeps two parsers in tandem, so does every rule that is made
of it.  The one difficulty are the words that start a value and may be names all the same: if the
first parser has looked beyond at such a word, then the value that it finds in the end is that word
at least.
-/

namespace SceneScript.Parser

open Rule Grammar Cursor Computability

theorem isKeyword_color (c : Color) : isKeyword c.text = true := by cases c <;> decide

theorem isKeyword_solid (kind : Solid) : isKeyword kind.text = true := by cases kind <;> decide

/-- Where none of some rules matches, each has been tried in vain. -/
theorem unmatched_of_firstOf {α : Type} {rules : List (Rule α)} {s t : State}
    (h : firstOf rules s = .unmatched t) :
    ∀ rule ∈ rules, ∃ u w, u.cursor = s.cursor ∧ rule u = .unmatched w := by
  induction rules generalizing s with
  | nil => simp
  | cons first rules ih =>
    obtain ⟨u, hfirst, hmore⟩ := unmatched_orElse h
    intro rule hmem
    rcases List.mem_cons.1 hmem with rfl | hmem
    · exact ⟨s, u, rfl, hfirst⟩
    · exact ih hmore rule hmem

namespace Tandem

variable {T : Tandem} {levels : Nat} {expression : Rule Expr} {ts : List Token} {s t : State}

/-! ## Lists of expressions -/

theorem argument_firm (h : T.Firm sums expression) :
    T.Firm (sums * separators) (argument expression) := by
  intro ts
  refine (h ts).bind fun us v w _ hvw => ?_
  exact separator_tracks.map fun _ _ _ => hvw

theorem arguments_explores [Loud expression] (hin : Inside levels expression)
    (h : T.Firm sums expression) : T.Explores calls (arguments expression) := by
  have hmany : T.Explores argumentLists (argument expression).many := fun ts =>
    ((argument_firm h).many (advances_argument hin)).mono argumentLists_le
  refine (dueSymbol_firm isSymbol_leftParen).explores.bind fun _ => ?_
  exact hmany.bind fun _ => (dueSymbol_firm isSymbol_rightParen).explores.map

/-- Three sums are read with the two commas between them and the token behind. -/
theorem triple_explores [Loud expression] {close : String} {last : Token}
    (hclose : IsSymbol close last) (h : T.Firm sums expression) :
    T.Explores (triples last) (triple expression close) := by
  have hcomma := (dueSymbol_firm (T := T) isSymbol_comma).explores
  exact h.explores.bind fun _ => hcomma.bind fun _ => h.explores.bind fun _ =>
    hcomma.bind fun _ => h.explores.bind fun _ => (dueSymbol_firm hclose).explores.map

/-- A sum is read between parentheses, whatever is made of it. -/
theorem enclosed_explores [Loud expression] {make : Expr → Expr} (h : T.Firm sums expression) :
    T.Explores (token leftParen * (sums * token rightParen)) (do
      Rule.symbol "("
      let inner ← expression
      dueSymbol ")"
      return make inner) :=
  (symbol_firm isSymbol_leftParen).explores.bind fun _ => h.explores.bind fun _ =>
    (dueSymbol_firm isSymbol_rightParen).explores.map

/-! ## Values -/

/-- The first parser looks beyond with the next word, which may be a name. -/
def Last (T : Tandem) (s : State) : Prop :=
  ∃ word, s.cursor.word? = some word ∧ isReserved word = false
    ∧ T.beyond (s.cursor.afterWord word).pos

/-- Both are before no trivia, and the next word is in what they have in common. -/
def ValueAt (T : Tandem) (ts : List Token) (s t : State) : Prop := T.SettledAt ts s t ∧ ¬T.Last s

theorem valueAt_back {u w : State} (h : T.ValueAt ts s t) (hst : T.states u w) :
    T.ValueAt ts (u.moveTo s.cursor) (w.moveTo t.cursor) :=
  ⟨settledAt_back h.1 hst, h.2⟩

theorem Tracks.valueAt {α : Type} {L : Language Token} {U : State → State → Prop} {x y : Rule α}
    (h : T.Tracks (T.SettledAt ts) U ts L Eq x y) : T.Tracks (T.ValueAt ts) U ts L Eq x y :=
  h.weaken (fun _ _ hst => hst.1) fun _ _ hU => hU

theorem Explores.valueAt {α : Type} {L : Language Token} {x : Rule α} (h : T.Explores L x) :
    T.Tracks (T.ValueAt ts) T.states ts L Eq x x :=
  h.settled.valueAt

/-- What starts with a keyword that may be a name. -/
theorem callable_tracks {L : Language Token} [Occurs L] {keyword : String} (hw : IsWord keyword)
    (hk : isKeyword keyword = true) (hfree : isReserved keyword = false) {f : Unit → Rule Expr}
    [∀ v, Steady (f v)] (hf : T.Explores L (f ())) :
    T.Tracks (T.ValueAt ts) T.states ts (token (word keyword) * L) Eq
      (Rule.keyword keyword >>= f) (Rule.keyword keyword >>= f) := by
  refine (keyword_firm hw hk).explores.valueAt.bind_of (fun us _ _ _ _ => hf (ts ++ us)) ?_
  -- the keyword itself is in what the two have in common, as `s` is not at its last word, so what
  -- is beyond is a mark that was left
  intro s t u v hst hm hgone
  have hmove : s.cursor.afterTrivia.afterKeyword? keyword = some u.cursor :=
    matched_move (matched_trivia_bind hm)
  rw [hst.1.2.1] at hmove
  obtain ⟨hword, hafter⟩ := word?_of_afterKeyword? hw hmove
  rcases hgone with hcursor | hfarthest
  · exact absurd ⟨keyword, hword, hfree, hafter ▸ hcursor⟩ hst.2
  · exact lost_of_beyond hfarthest

theorem rgb_tracks [Loud expression] (h : T.Firm sums expression) :
    T.Tracks (T.ValueAt ts) T.states ts values Eq (rgb expression) (rgb expression) := by
  refine (callable_tracks (by decide) (by decide) (by decide) ?_).mono rgb_le
  exact (symbol_firm isSymbol_leftParen).explores.bind fun _ =>
    (triple_explores isSymbol_rightParen h).map

theorem texture_tracks [Loud expression] (h : T.Firm sums expression) :
    T.Tracks (T.ValueAt ts) T.states ts values Eq (texture expression) (texture expression) :=
  (callable_tracks (by decide) (by decide) (by decide) (enclosed_explores h)).mono texture_le

theorem vector_explores [Loud expression] (h : T.Firm sums expression) :
    T.Explores values (vector expression) := by
  refine Explores.mono ?_ vector_le
  exact (symbol_firm isSymbol_leftAngle).explores.bind fun _ =>
    (triple_explores isSymbol_rightAngle h).map

theorem paren_explores [Loud expression] (h : T.Firm sums expression) :
    T.Explores values (paren expression) :=
  (enclosed_explores h).mono paren_le

theorem color_explores : T.Explores values color := by
  refine Explores.mono (Explores.map (Firm.explores (oneOf_firm fun c _ => ?_))) colors_le
  exact ⟨isWord_color c, isKeyword_color c⟩

theorem solid_explores [Loud expression] (hin : Inside levels expression)
    (h : T.Firm sums expression) : T.Explores values (solid expression) := by
  refine Explores.mono (Explores.bind (Firm.explores (oneOf_firm fun kind _ => ?_)) fun _ => ?_)
    solid_le
  · exact ⟨isWord_solid kind, isKeyword_solid kind⟩
  · exact (arguments_explores hin h).map

/-- The choices of a value. -/
def valueChoices (expression : Rule Expr) : Rule Expr :=
  firstOf
    [Parser.number, color, rgb expression, vector expression, texture expression,
     paren expression, solid expression, Parser.text, identifier, unmet .value]

/-- Where a word stands that may be a name, some value is found, and the word is part of it. -/
theorem lost_of_last [Loud expression] (hin : Inside levels expression) (hs : s.cursor.Settled)
    (h : T.Last s) : T.Lost (valueChoices expression s) := by
  obtain ⟨word, hword, hfree, hbeyond⟩ := h
  cases hm : valueChoices expression s with
  | aborted a => exact ⟨_, hbeyond⟩
  | matched e u =>
    have hvalue : value expression s = .matched e u := (trivia_bind_settled hs).trans hm
    -- the value that is found has tokens, of which the word is the first
    obtain ⟨us, hreads, hread⟩ := value_sound hin s e u hvalue
    have hne : us ≠ [] := (IsNegation.value hread.isValue).ne_nil
    cases us with
    | nil => exact absurd rfl hne
    | cons t us =>
      obtain ⟨d, hd, hmore⟩ := hreads
      have hnext := (word?_eq_some_iff hs).1 hword
      obtain rfl := (Prod.mk.inj (Option.some.inj (hnext.symm.trans hd))).2
      exact .inl (T.beyond_of_le hmore.onward.pos_le hbeyond)
  | unmatched u =>
    -- then even the rule for names has not matched, although the word is a name
    obtain ⟨w, w', hcursor, hunmatched⟩ := unmatched_of_firstOf hm identifier (by simp)
    have hname := name?_of_free hword hfree
    rw [← hcursor] at hname
    have hmatched : identifier w = .matched (.identifier word)
        (w.moveTo (w.cursor.afterWord word)) := by
      unfold identifier
      rw [bind_apply, name_eq_matched hname]
      rfl
    rw [hmatched] at hunmatched
    cases hunmatched

/-- Two parsers keep together over all choices of a value. -/
theorem valueChoices_tracks [Loud expression] (hin : Inside levels expression)
    (h : T.Firm sums expression) :
    T.Tracks (T.ValueAt ts) T.states ts values Eq (valueChoices expression)
      (valueChoices expression) := by
  have hback : ∀ s t u w, T.ValueAt ts s t → T.states u w →
      T.ValueAt ts (u.moveTo s.cursor) (w.moveTo t.cursor) := fun _ _ _ _ => valueAt_back
  have hnumber : T.Tracks (T.SettledAt ts) T.states ts numbers Eq Parser.number Parser.number :=
    number_tracks.congr Expr.number
  have htext : T.Tracks (T.SettledAt ts) T.states ts texts Eq Parser.text Parser.text :=
    text_tracks.congr Expr.text
  have hname : T.Tracks (T.SettledAt ts) T.states ts names Eq identifier identifier :=
    name_tracks.congr Expr.identifier
  have hunmet : T.Tracks (T.SettledAt ts) (T.SettledAt ts) ts values (@Eq Expr)
      (unmet .value) (unmet .value) := tracks_unmet rfl id
  have : Steady color := by
    unfold color
    infer_instance
  unfold valueChoices Parser.number Parser.text identifier
  refine (hnumber.mono numbers_le).valueAt.orElse hback ?_
  refine color_explores.valueAt.orElse hback ?_
  refine (rgb_tracks h).orElse hback ?_
  refine (vector_explores h).valueAt.orElse hback ?_
  refine (texture_tracks h).orElse hback ?_
  refine (paren_explores h).valueAt.orElse hback ?_
  refine (solid_explores hin h).valueAt.orElse hback ?_
  refine (htext.mono texts_le).valueAt.orElse hback ?_
  refine (hname.mono names_le).valueAt.orElse hback ?_
  refine hunmet.loose.valueAt.orElse hback ?_
  exact tracks_firstOf_nil.weaken (fun _ _ hst => hst) fun _ _ hst => hst.1.1.2

theorem value_explores [Loud expression] (hin : Inside levels expression)
    (h : T.Firm sums expression) : T.Explores values (value expression) := by
  refine fun ts => Tracks.afterTrivia fun hL s t hst => ?_
  by_cases hlast : T.Last s
  · exact .inr (.inl (lost_of_last hin hst.2.1 hlast))
  · exact valueChoices_tracks hin h hL s t ⟨hst, hlast⟩

/-! ## Operators -/

/-- A negation goes back to the minus if no value comes behind it. -/
theorem signed_firm [Loud expression] (hin : Inside levels expression)
    (h : T.Firm sums expression) : T.Firm negations (signed expression) := by
  have hvalue := value_explores hin h
  refine fun ts => Tracks.afterTrivia (Tracks.firm (Tracks.attempt (fun hL s t hst => ?_)
    fun _ _ _ _ => settledAt_back))
  have hminus : T.Allows ts (token minus * values) := hL.mono minus_le
  have hnegate : ∀ us ∈ token minus, T.Tracks (T.At (ts ++ us)) T.states (ts ++ us) values Eq
      (do return Expr.negate (← value expression)) (do return Expr.negate (← value expression)) :=
    fun us _ => hvalue.map (ts ++ us)
  -- both read a minus or neither does, unless the first has looked too far
  rcases move_symbol_tracks isSymbol_minus hminus.left s t hst with hpair | hgone | hexcused
  · cases hx : move (afterSymbol? "-") s <;> cases hy : move (afterSymbol? "-") t <;>
      simp only [hx, hy, Reply.Paired] at hpair
    · rename_i s' _ t'
      obtain ⟨_, us, hus, hat⟩ := hpair
      refine (hnegate us hus (hminus.right hus) s' t' hat).mono ?_ fun _ _ hU => hU
      rintro v w s'' t'' ⟨hvw, vs, hvs, hat'⟩
      rw [List.append_assoc] at hat'
      exact ⟨hvw, us ++ vs, mem_of_le minus_le (Language.append_mem_mul hus hvs), hat'⟩
    · -- no minus: a value without a sign
      exact (hvalue.mono values_le) ts hL _ _ hpair.1
    · exact .inl hpair
  · refine .inr (.inl ?_)
    cases hx : move (afterSymbol? "-") s <;> rw [hx] at hgone
    · exact Gone.lost (x := do return Expr.negate (← value expression)) hgone
    · exact lost_of_beyond (x := value expression) hgone
    · exact hgone
  · obtain ⟨⟨place, word, hy⟩, hbeyond⟩ := hexcused
    refine .inr (.inr ⟨⟨place, word, ?_⟩, hbeyond⟩)
    simp only [hy]

theorem operation_explores {operand : Rule Expr} [Loud operand] {L : Language Token} [Occurs L]
    (operators : List Operator) (h : T.Explores L operand) :
    T.Explores (operations operators L) (operation operators operand) :=
  (operator_explores operators).bind fun _ => h.map

/-- A chain keeps together if its operands do: both stop at the same operator. -/
theorem chain_firm {operand : Rule Expr} [Loud operand] {L : Language Token} [Occurs L]
    {P : List Token → Expr → Prop} (operators : List Operator) (hyields : Yields operand P)
    (h : T.Firm L operand) :
    T.Firm (L * (operations operators L)∗) (chain operators operand) := by
  have hadv : Advances (operation operators operand).attempt := advances_operation hyields
  refine fun ts => (h ts).bind ?_
  rintro us v _ _ rfl
  exact ((operation_explores operators h.explores).attempt.many hadv).congr _

theorem sum_firm [Loud expression] (hin : Inside levels expression) (h : T.Firm sums expression) :
    T.Firm sums (sum expression) := by
  have hproduct : T.Firm products (product expression) :=
    (chain_firm _ (signed_sound hin) (signed_firm hin h)).mono products_le
  have : Loud (product expression) := loud_chain _
  exact (chain_firm _ (product_sound hin) hproduct).mono sums_le

theorem condition_explores [Loud expression] (h : T.Firm sums expression) :
    T.Explores conditions (condition expression) := by
  have hsplit : sums * (1 + operations [.lessThan, .greaterThan] sums) ≤ conditions := by
    rw [mul_add, mul_one]
    exact add_le_iff.2 ⟨conditions_plain_le, conditions_compared_le⟩
  -- what comes behind the left side does not depend on it, so the common beginning is read once
  refine Explores.mono (h.explores.bind fun left ts => ?_) hsplit
  have hcompared : T.Explores (1 + operations [.lessThan, .greaterThan] sums) (do
      let op ← operator [.lessThan, .greaterThan]
      let right ← expression
      return Expr.binary left op right) :=
    Explores.mono ((operator_explores _).bind fun _ => h.explores.map) le_add_self
  exact (hcompared ts).orElse_at ((tracks_pure rfl).mono le_self_add)

/-- The rules for expressions of the parser that remembers nothing. -/
theorem level_expression_firm (levels : Nat) :
    T.Firm sums (level .nothing levels).expression := by
  induction levels with
  | zero =>
    refine fun ts => Tracks.afterTrivia fun hL s t hst => ?_
    exact .inl (T.tooDeep hst.1.1 hst.2.1 hst.2.2 hL.viable)
  | succ levels ih =>
    exact fun ts => Tracks.afterTrivia
      ((sum_firm (inside_level levels) ih ts).weaken (fun _ _ hst => hst.1) fun _ _ hU => hU)

end Tandem

end SceneScript.Parser
