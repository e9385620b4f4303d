import SceneScript.Proofs.Parser.ExpressionSound
import SceneScript.Proofs.Parser.Parses

/-!
# What the rules for expressions do with the tokens ahead

Each form of an expression is parsed if the expressions inside are.  The alternatives that are
tried before the one that fits do not match, because of the first token or the one behind it.
-/

namespace SceneScript.Parser

open Rule Grammar Cursor

variable {D : Prop} {expression : Rule Expr} {ts k : List Token}

/-! ## Stops -/

/-- The token cannot go on an expression: it is no operator of a sum or a product, and it is no
parenthesis, which could make a call of a word before it. -/
def Stop (t : Token) : Prop :=
  t ≠ leftParen ∧ ∀ op : Operator, op.isComparison = false → t ≠ operatorToken op

/-- No token goes on an expression here. -/
def Stops (k : List Token) : Prop := ∀ t, k.head? = some t → Stop t

theorem stops_cons {t : Token} (h : Stop t) : Stops (t :: k) := by
  intro u hu
  rw [← Option.some.inj hu]
  exact h

theorem stops_nil : Stops [] := by
  intro t ht
  cases ht

theorem stop_rightParen : Stop rightParen :=
  ⟨by decide, fun op _ => by cases op <;> decide⟩

theorem stop_comma : Stop comma := ⟨by decide, fun op _ => by cases op <;> decide⟩

theorem stop_comparison (op : Operator) (h : op.isComparison = true) : Stop (operatorToken op) := by
  refine ⟨by cases op <;> decide, fun other hother => ?_⟩
  revert h hother
  cases op <;> cases other <;> decide

/-- Words go on no expression. -/
theorem stop_of_word? {t : Token} {word : String} (h : t.word? = some word) : Stop t := by
  refine ⟨fun ht => ?_, fun op _ ht => ?_⟩
  · rw [ht] at h
    cases h
  · rw [ht] at h
    cases op <;> cases h

theorem Stops.head?_ne_leftParen (h : Stops k) : k.head? ≠ some leftParen :=
  fun hk => (h _ hk).1 rfl

/-! ## Sums and arguments inside -/

/-- The rule reads the tokens as an expression if nothing behind them goes on it. -/
def ParsesSum (D : Prop) (x : Rule Expr) (ts : List Token) (Q : Expr → Prop) : Prop :=
  ∀ k, Stops k → Parses D x (Facing (ts ++ k)) fun v us => Q v ∧ us = k

/-- The rule, repeated, reads the tokens up to a closing parenthesis. -/
def ParsesArguments (D : Prop) (x : Rule Expr) (ts : List Token) (Q : List Expr → Prop) : Prop :=
  ∀ k, Parses D (argument x).many (Facing (ts ++ rightParen :: k)) fun vs us =>
    Q vs ∧ us = rightParen :: k

/-- Arguments are read in their parentheses. -/
theorem arguments_parses {Q : List Expr → Prop} (h : ParsesArguments D expression ts Q) :
    Parses D (arguments expression) (Facing (leftParen :: (ts ++ rightParen :: k)))
      fun vs us => Q vs ∧ us = k := by
  refine (parses_dueSymbol isSymbol_leftParen).bind fun _ us hus => ?_
  rw [hus]
  refine (h k).bind fun args us hargs => ?_
  rw [hargs.2]
  exact (parses_dueSymbol isSymbol_rightParen).bind fun _ us hus => parses_pure ⟨hargs.1, hus⟩

/-- Three expressions are read with the commas between them and what closes them. -/
theorem triple_parses {close : String} {last : Token} {xs ys zs : List Token} {X Y Z : Expr → Prop}
    (hclose : IsSymbol close last) (hlast : Stop last) (hx : ParsesSum D expression xs X)
    (hy : ParsesSum D expression ys Y) (hz : ParsesSum D expression zs Z) :
    Parses D (triple expression close)
      (Facing (xs ++ comma :: (ys ++ comma :: (zs ++ last :: k))))
      fun v us => (X v.1 ∧ Y v.2.1 ∧ Z v.2.2) ∧ us = k := by
  refine (hx _ (stops_cons stop_comma)).bind fun x us hx => ?_
  rw [hx.2]
  refine (parses_dueSymbol isSymbol_comma).bind fun _ us hus => ?_
  rw [hus]
  refine (hy _ (stops_cons stop_comma)).bind fun y us hy => ?_
  rw [hy.2]
  refine (parses_dueSymbol isSymbol_comma).bind fun _ us hus => ?_
  rw [hus]
  refine (hz _ (stops_cons hlast)).bind fun z us hz => ?_
  rw [hz.2]
  exact (parses_dueSymbol hclose).bind fun _ us hus => parses_pure ⟨⟨hx.1, hy.1, hz.1⟩, hus⟩

/-- One expression between the parentheses is not three. -/
theorem fails_triple {close : String} {Q : Expr → Prop} (h : ParsesSum D expression ts Q) :
    Fails D (triple expression close) (Facing (ts ++ rightParen :: k)) := by
  refine (h _ (stops_cons stop_rightParen)).bind_fails fun x us hx => ?_
  rw [hx.2]
  exact (fails_dueSymbol isSymbol_comma (by simp [rightParen, comma])).bind

/-! ## The forms of a value -/

/-- A color is read that is mixed of three parts. -/
theorem rgb_parses {rs gs bs : List Token} {R G B : Expr → Prop}
    (hr : ParsesSum D expression rs R) (hg : ParsesSum D expression gs G)
    (hb : ParsesSum D expression bs B) :
    Parses D (rgb expression) (Facing (word "rgb" :: leftParen ::
        (rs ++ comma :: (gs ++ comma :: (bs ++ rightParen :: k)))))
      fun v us => (∃ r g b, v = .rgb r g b ∧ R r ∧ G g ∧ B b) ∧ us = k := by
  refine (parses_keyword (by decide) rfl).bind fun _ us hus => ?_
  rw [hus]
  refine (parses_symbol isSymbol_leftParen).bind fun _ us hus => ?_
  rw [hus]
  refine (triple_parses isSymbol_rightParen stop_rightParen hr hg hb).bind fun v us hv => ?_
  exact parses_pure ⟨⟨v.1, v.2.1, v.2.2, rfl, hv.1⟩, hv.2⟩

/-- A vector is read between angle brackets. -/
theorem vector_parses {xs ys zs : List Token} {X Y Z : Expr → Prop}
    (hx : ParsesSum D expression xs X) (hy : ParsesSum D expression ys Y)
    (hz : ParsesSum D expression zs Z) :
    Parses D (vector expression) (Facing (leftAngle ::
        (xs ++ comma :: (ys ++ comma :: (zs ++ rightAngle :: k)))))
      fun v us => (∃ x y z, v = .vector x y z ∧ X x ∧ Y y ∧ Z z) ∧ us = k := by
  refine (parses_symbol isSymbol_leftAngle).bind fun _ us hus => ?_
  rw [hus]
  have hstop : Stop rightAngle := stop_comparison .greaterThan rfl
  refine (triple_parses isSymbol_rightAngle hstop hx hy hz).bind fun v us hv => ?_
  exact parses_pure ⟨⟨v.1, v.2.1, v.2.2, rfl, hv.1⟩, hv.2⟩

/-- A texture is read with its path. -/
theorem texture_parses {Q : Expr → Prop} {t : Token} (ht : t.word? = some "texture")
    (h : ParsesSum D expression ts Q) :
    Parses D (texture expression) (Facing (t :: leftParen :: (ts ++ rightParen :: k)))
      fun v us => (∃ path, v = .texture path ∧ Q path) ∧ us = k := by
  refine (parses_keyword (by decide) ht).bind fun _ us hus => ?_
  rw [hus]
  refine (parses_symbol isSymbol_leftParen).bind fun _ us hus => ?_
  rw [hus]
  refine (h _ (stops_cons stop_rightParen)).bind fun path us hpath => ?_
  rw [hpath.2]
  exact (parses_dueSymbol isSymbol_rightParen).bind
    fun _ us hus => parses_pure ⟨⟨path, rfl, hpath.1⟩, hus⟩

/-- An expression is read in parentheses. -/
theorem paren_parses {Q : Expr → Prop} (h : ParsesSum D expression ts Q) :
    Parses D (paren expression) (Facing (leftParen :: (ts ++ rightParen :: k)))
      fun v us => (∃ inner, v = .paren inner ∧ Q inner) ∧ us = k := by
  refine (parses_symbol isSymbol_leftParen).bind fun _ us hus => ?_
  rw [hus]
  refine (h _ (stops_cons stop_rightParen)).bind fun inner us hinner => ?_
  rw [hinner.2]
  exact (parses_dueSymbol isSymbol_rightParen).bind
    fun _ us hus => parses_pure ⟨⟨inner, rfl, hinner.1⟩, hus⟩

/-- A solid is read with its arguments. -/
theorem solid_parses {Q : List Expr → Prop} (kind : Solid)
    (h : ParsesArguments D expression ts Q) :
    Parses D (solid expression)
      (Facing (word kind.text :: leftParen :: (ts ++ rightParen :: k)))
      fun v us => (∃ args, v = .solid kind args ∧ Q args) ∧ us = k := by
  refine (parses_oneOf isWord_solid Solid.text_injective kind.mem_all rfl).bind
    fun found us hfound => ?_
  rw [hfound.1, hfound.2]
  exact (arguments_parses h).bind fun args us hargs => parses_pure ⟨⟨args, rfl, hargs.1⟩, hargs.2⟩

/-! ## The forms that do not fit -/

theorem fails_number (hne : ∀ x, ts.head? ≠ some (.number x)) : Fails D number (AtTokens ts) :=
  (fails_literal (fun _ _ _ hc h => (number?_eq_some_iff hc).1 h) hne).bind

theorem fails_text (hne : ∀ value, ts.head? ≠ some (.text value)) : Fails D text (AtTokens ts) :=
  (fails_literal (fun _ _ _ hc h => (text?_eq_some_iff hc).1 h) hne).bind

theorem fails_color (hne : ∀ c : Color, leadingWord ts ≠ some c.text) :
    Fails D color (Facing ts) :=
  (fails_oneOf isWord_color fun c _ => hne c).bind

theorem fails_rgb (hne : leadingWord ts ≠ some "rgb") : Fails D (rgb expression) (Facing ts) :=
  (fails_keyword (by decide) hne).bind

/-- With one expression in parentheses behind it the word makes no color. -/
theorem fails_rgb_paren {t : Token} {Q : Expr → Prop} (h : ParsesSum D expression ts Q) :
    Fails D (rgb expression) (Facing (t :: leftParen :: (ts ++ rightParen :: k))) := by
  refine fails_behind_word (by decide) ((parses_symbol isSymbol_leftParen).bind_fails ?_)
  intro _ us hus
  rw [hus]
  exact (fails_triple h).bind

theorem fails_vector (hne : ts.head? ≠ some leftAngle) :
    Fails D (vector expression) (Facing ts) :=
  (fails_symbol isSymbol_leftAngle hne).bind

theorem fails_texture (hne : leadingWord ts ≠ some "texture") :
    Fails D (texture expression) (Facing ts) :=
  (fails_keyword (by decide) hne).bind

theorem fails_paren (hne : ts.head? ≠ some leftParen) : Fails D (paren expression) (Facing ts) :=
  (fails_symbol isSymbol_leftParen hne).bind

theorem fails_solid (hne : ∀ kind : Solid, leadingWord ts ≠ some kind.text) :
    Fails D (solid expression) (Facing ts) :=
  (fails_oneOf isWord_solid fun kind _ => hne kind).bind

theorem fails_identifier (hne : leadingWord ts = none) : Fails D identifier (AtTokens ts) := by
  refine (fails_name fun word hword => ?_).bind
  rw [hne] at hword
  cases hword

/-! ## Values -/

/-- A number is the first kind of value that is tried. -/
theorem value_parses_number (x : Binary64) :
    Parses D (value expression) (Facing (.number x :: k)) fun v us => v = .number x ∧ us = k := by
  refine (Parses.orElse ?_).behind
  refine (parses_literal (v := x) fun c d hc hd => (number?_eq_some_iff hc).2 hd).bind ?_
  exact fun v us hv => parses_pure ⟨congrArg Expr.number hv.1, hv.2⟩

/-- A color's name is no number, so it is read as a color. -/
theorem value_parses_color (c : Color) {t : Token} (ht : t.word? = some c.text) :
    Parses D (value expression) (Facing (t :: k)) fun v us => v = .color c ∧ us = k := by
  have hnumber : ∀ x, (t :: k).head? ≠ some (.number x) := by
    intro x hx
    rw [Option.some.inj hx] at ht
    cases ht
  have hcolor : Parses D color (Facing (t :: k)) fun v us => v = .color c ∧ us = k :=
    (parses_oneOf isWord_color Color.text_injective c.mem_all ht).bind
      fun v us hv => parses_pure ⟨congrArg Expr.color hv.1, hv.2⟩
  exact ((fails_number hnumber).orElse_parses
    (hcolor.settled).orElse).behind

/-- A word that is no color and makes nothing with the tokens behind it. -/
theorem value_parses_identifier {t : Token} {name : String} (h : IsName t name)
    (hcolor : ∀ c : Color, name ≠ c.text) (hrgb : Fails D (rgb expression) (Facing (t :: k)))
    (htexture : Fails D (texture expression) (Facing (t :: k))) :
    Parses D (value expression) (Facing (t :: k)) fun v us => v = .identifier name ∧ us = k := by
  have hsolid : ∀ kind : Solid, leadingWord (t :: k) ≠ some kind.text := by
    intro kind heq
    have hfree := h.not_reserved
    rw [leadingWord_cons, h.word?] at heq
    rw [Option.some.inj heq] at hfree
    cases kind <;> revert hfree <;> decide
  have hsymbol : ∀ u : Token, u.word? = none → (t :: k).head? ≠ some u := by
    intro u hu heq
    rw [← Option.some.inj heq, h.word?] at hu
    cases hu
  have hidentifier : Parses D identifier (AtTokens (t :: k)) fun v us =>
      v = .identifier name ∧ us = k :=
    (parses_name h).bind fun v us hv => parses_pure ⟨congrArg Expr.identifier hv.1, hv.2⟩
  have hcolor' : ∀ c : Color, leadingWord (t :: k) ≠ some c.text := by
    intro c heq
    rw [leadingWord_cons, h.word?] at heq
    exact hcolor c (Option.some.inj heq)
  -- a name comes last of all values, so each of the others is tried in vain before it
  refine Parses.behind ?_
  refine (fails_number fun x => hsymbol _ rfl).orElse_parses ?_
  refine (fails_color hcolor').settled.orElse_parses ?_
  refine hrgb.settled.orElse_parses ?_
  refine (fails_vector (hsymbol _ rfl)).settled.orElse_parses ?_
  refine htexture.settled.orElse_parses ?_
  refine (fails_paren (hsymbol _ rfl)).settled.orElse_parses ?_
  refine (fails_solid hsolid).settled.orElse_parses ?_
  refine (fails_text fun value => hsymbol _ rfl).orElse_parses ?_
  exact hidentifier.orElse

theorem value_parses_rgb {rs gs bs : List Token} {R G B : Expr → Prop}
    (hr : ParsesSum D expression rs R) (hg : ParsesSum D expression gs G)
    (hb : ParsesSum D expression bs B) :
    Parses D (value expression) (Facing (word "rgb" :: leftParen ::
        (rs ++ comma :: (gs ++ comma :: (bs ++ rightParen :: k)))))
      fun v us => (∃ r g b, v = .rgb r g b ∧ R r ∧ G g ∧ B b) ∧ us = k := by
  refine Parses.behind ?_
  refine (fails_number (by simp [word])).orElse_parses ?_
  refine (fails_color ?_).settled.orElse_parses ?_
  · intro c
    cases c <;> simp [word, Token.word?, Color.text]
  exact (rgb_parses hr hg hb).settled.orElse

/-- An angle bracket begins no kind of value that is tried before a vector. -/
theorem value_parses_vector {xs ys zs : List Token} {X Y Z : Expr → Prop}
    (hx : ParsesSum D expression xs X) (hy : ParsesSum D expression ys Y)
    (hz : ParsesSum D expression zs Z) :
    Parses D (value expression) (Facing (leftAngle ::
        (xs ++ comma :: (ys ++ comma :: (zs ++ rightAngle :: k)))))
      fun v us => (∃ x y z, v = .vector x y z ∧ X x ∧ Y y ∧ Z z) ∧ us = k := by
  refine Parses.behind ?_
  refine (fails_number (by simp [leftAngle])).orElse_parses ?_
  refine (fails_color fun c => leadingWord_ne rfl _ _).settled.orElse_parses ?_
  refine (fails_rgb (leadingWord_ne rfl _ _)).settled.orElse_parses ?_
  exact (vector_parses hx hy hz).settled.orElse

theorem value_parses_texture {Q : Expr → Prop} {t : Token} (ht : t.word? = some "texture")
    (h : ParsesSum D expression ts Q) :
    Parses D (value expression) (Facing (t :: leftParen :: (ts ++ rightParen :: k)))
      fun v us => (∃ path, v = .texture path ∧ Q path) ∧ us = k := by
  have hsymbol : ∀ u : Token, u.word? = none → ∀ us, (t :: us).head? ≠ some u := by
    intro u hu us heq
    rw [← Option.some.inj heq, ht] at hu
    cases hu
  refine Parses.behind ?_
  refine (fails_number fun x => hsymbol _ rfl _).orElse_parses ?_
  refine (fails_color fun c => ?_).settled.orElse_parses ?_
  · rw [leadingWord_cons, ht]
    cases c <;> simp [Color.text]
  refine (fails_rgb (by simp [ht])).settled.orElse_parses ?_
  refine (fails_vector (hsymbol _ rfl _)).settled.orElse_parses ?_
  exact (texture_parses ht h).settled.orElse

/-- A parenthesis begins no kind of value that is tried before an expression in parentheses. -/
theorem value_parses_paren {Q : Expr → Prop} (h : ParsesSum D expression ts Q) :
    Parses D (value expression) (Facing (leftParen :: (ts ++ rightParen :: k)))
      fun v us => (∃ inner, v = .paren inner ∧ Q inner) ∧ us = k := by
  refine Parses.behind ?_
  refine (fails_number (by simp [leftParen])).orElse_parses ?_
  refine (fails_color fun c => leadingWord_ne rfl _ _).settled.orElse_parses ?_
  refine (fails_rgb (leadingWord_ne rfl _ _)).settled.orElse_parses ?_
  refine (fails_vector (by simp [leftParen, leftAngle])).settled.orElse_parses ?_
  refine (fails_texture (leadingWord_ne rfl _ _)).settled.orElse_parses ?_
  exact (paren_parses h).settled.orElse

theorem value_parses_solid {Q : List Expr → Prop} (kind : Solid)
    (h : ParsesArguments D expression ts Q) :
    Parses D (value expression)
      (Facing (word kind.text :: leftParen :: (ts ++ rightParen :: k)))
      fun v us => (∃ args, v = .solid kind args ∧ Q args) ∧ us = k := by
  refine Parses.behind ?_
  refine (fails_number (by simp [word])).orElse_parses ?_
  refine (fails_color fun c => ?_).settled.orElse_parses ?_
  · cases c <;> cases kind <;> simp [word, Token.word?, Color.text, Solid.text]
  refine (fails_rgb ?_).settled.orElse_parses ?_
  · cases kind <;> simp [word, Token.word?, Solid.text]
  refine (fails_vector (by simp [word, leftAngle])).settled.orElse_parses ?_
  refine (fails_texture ?_).settled.orElse_parses ?_
  · cases kind <;> simp [word, Token.word?, Solid.text]
  refine (fails_paren (by simp [word, leftParen])).settled.orElse_parses ?_
  exact (solid_parses kind h).settled.orElse

/-- A text in quotes is a value that only the rule for texts reads. -/
theorem value_parses_text (text : String) :
    Parses D (value expression) (Facing (.text text :: k)) fun v us => v = .text text ∧ us = k := by
  refine Parses.behind ?_
  refine (fails_number (by simp)).orElse_parses ?_
  refine (fails_color fun c => leadingWord_ne rfl _ _).settled.orElse_parses ?_
  refine (fails_rgb (leadingWord_ne rfl _ _)).settled.orElse_parses ?_
  refine (fails_vector (by simp [leftAngle])).settled.orElse_parses ?_
  refine (fails_texture (leadingWord_ne rfl _ _)).settled.orElse_parses ?_
  refine (fails_paren (by simp [leftParen])).settled.orElse_parses ?_
  refine (fails_solid fun kind => leadingWord_ne rfl _ _).settled.orElse_parses ?_
  refine (Parses.orElse ?_)
  refine (parses_literal (v := text) fun c d hc hd => (text?_eq_some_iff hc).2 hd).bind ?_
  exact fun v us hv => parses_pure ⟨congrArg Expr.text hv.1, hv.2⟩

/-! ## Operands and operations -/

/-- A minus sign negates the value behind it. -/
theorem signed_parses_minus {Q : Expr → List Token → Prop}
    (h : Parses D (value expression) (Facing ts) Q) :
    Parses D (signed expression) (Facing (minus :: ts))
      fun v us => ∃ e, v = .negate e ∧ Q e us := by
  refine Parses.behind (Parses.attempt fun s hs => ?_)
  rcases parses_move_symbol (D := False) isSymbol_minus s hs with ⟨_, t, us, hm, hus, rfl⟩ | ⟨h, _⟩
  · have hvalue : Parses D (do return Expr.negate (← value expression)) (Facing us)
        fun v us => ∃ e, v = Expr.negate e ∧ Q e us :=
      h.bind fun v us hv => parses_pure ⟨v, rfl, hv⟩
    unfold Deep
    simp only [hm]
    exact hvalue t hus
  · exact h.elim

/-- Without a minus sign the value stands for itself. -/
theorem signed_parses_value {Q : Expr → List Token → Prop} (hne : ts.head? ≠ some minus)
    (h : Parses D (value expression) (Facing ts) Q) :
    Parses D (signed expression) (Facing ts) Q := by
  refine Parses.behind (Parses.attempt fun s hs => ?_)
  have hstay := move_unmatched isSymbol_minus hne hs
  unfold Deep
  simp only [hstay]
  exact h s hs.facing

/-- An operator is read with its operand. -/
theorem operation_parses {operators : List Operator} {operand : Rule Expr} {op : Operator}
    {Q : Expr → List Token → Prop} (hop : op ∈ operators) (h : Parses D operand (Facing ts) Q) :
    Parses D (operation operators operand) (Facing (operatorToken op :: ts))
      fun v us => v.1 = op ∧ Q v.2 us := by
  refine (parses_operator hop).bind fun found us hfound => ?_
  rw [hfound.1, hfound.2]
  exact h.bind fun right us hright => parses_pure ⟨rfl, hright⟩

/-- No operation is read where no operator stands. -/
theorem fails_operation {operators : List Operator} {operand : Rule Expr}
    (hne : ∀ op ∈ operators, ts.head? ≠ some (operatorToken op)) :
    Fails D (operation operators operand) (Facing ts) :=
  (fails_operator hne).bind

/-- An operation is not empty. -/
theorem advances_operation {operators : List Operator} {operand : Rule Expr}
    {P : List Token → Expr → Prop} (h : Yields operand P) :
    Advances (attempt (operation operators operand)) := by
  refine (yields_operation h).advances ?_
  rintro ts v ⟨rs, rfl, _⟩
  exact List.cons_ne_nil _ _

/-! ## No operand -/

/-- No expression starts with these. -/
def Bars (t : Token) : Prop := t = rightParen ∨ t = equals

theorem Bars.ne {t u : Token} (h : Bars t) (hparen : u ≠ rightParen) (hequals : u ≠ equals) :
    (t :: ts).head? ≠ some u := by
  rcases h with rfl | rfl
  · exact fun heq => hparen (Option.some.inj heq).symm
  · exact fun heq => hequals (Option.some.inj heq).symm

theorem Bars.word? {t : Token} (h : Bars t) : t.word? = none := by
  rcases h with rfl | rfl <;> rfl

/-- No value begins with a token that bars one. -/
theorem fails_value {t : Token} (h : Bars t) : Fails D (value expression) (Facing (t :: ts)) := by
  have hlead := leadingWord_ne h.word? ts
  refine Fails.behind ?_
  refine (fails_number fun x => h.ne nofun nofun).orElse ?_
  refine (fails_color fun c => hlead _).settled.orElse ?_
  refine (fails_rgb (hlead _)).settled.orElse ?_
  refine (fails_vector (h.ne (by decide) (by decide))).settled.orElse ?_
  refine (fails_texture (hlead _)).settled.orElse ?_
  refine (fails_paren (h.ne (by decide) (by decide))).settled.orElse ?_
  refine (fails_solid fun kind => hlead _).settled.orElse ?_
  refine (fails_text fun v => h.ne nofun nofun).orElse ?_
  refine (fails_identifier (show leadingWord (t :: ts) = none from h.word?)).orElse ?_
  exact fails_unmet.orElse fun s _ => .inl ⟨s, rfl⟩

theorem fails_signed {t : Token} (h : Bars t) :
    Fails D (signed expression) (Facing (t :: ts)) := by
  refine Fails.behind (Fails.attempt fun s hs => ?_)
  have hstay := move_unmatched isSymbol_minus (h.ne (by decide) (by decide)) hs
  unfold Deep
  simp only [hstay]
  exact fails_value h s hs.facing

/-- No sum begins with a token that bars a value. -/
theorem fails_sum {t : Token} (h : Bars t) : Fails D (sum expression) (Facing (t :: ts)) :=
  (fails_signed h).bind.bind

end SceneScript.Parser
