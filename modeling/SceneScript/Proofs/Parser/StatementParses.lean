import SceneScript.Proofs.Parser.Dispatch
import SceneScript.Proofs.Parser.ExpressionParses
import SceneScript.Proofs.Parser.StatementSound

/-!
# What the rules for statements do with the tokens ahead

Each form of a statement is parsed if the statements and expressions inside are.  A word that opens
a form may also be a name that is assigned to; the forms it opens do not match then, because none
of them goes on with `=`.
-/

namespace SceneScript.Parser

open Rule Grammar Cursor

variable {D : Prop} {statement : Rule Statement} {expression : Rule Expr} {ts k : List Token}

/-! ## Bounds -/

/-- Nothing goes on a statement here, and a word before it is not assigned to. -/
def Bounds (k : List Token) : Prop := Stops k ∧ k.head? ≠ some equals

theorem bounds_nil : Bounds [] := ⟨stops_nil, nofun⟩

theorem bounds_of_word? {t : Token} {word : String} (h : t.word? = some word) : Bounds (t :: k) :=
  ⟨stops_cons (stop_of_word? h), head?_ne_of_word? h rfl k⟩

/-- No statement starts here: there is no word, or an `end` that is not assigned to. -/
def NoStatement (k : List Token) : Prop :=
  leadingWord k = none ∨ ∃ t us, k = t :: us ∧ t.word? = some "end" ∧ us.head? ≠ some equals

/-- The rule reads the tokens as a statement if nothing behind them goes on it. -/
def ParsesStatement (D : Prop) (x : Rule Statement) (ts : List Token) (Q : Statement → Prop) :
    Prop :=
  ∀ k, Bounds k → Parses D x (Facing (ts ++ k)) fun v us => Q v ∧ us = k

/-- The rule, repeated, reads the tokens up to where no statement starts. -/
def ParsesBody (D : Prop) (x : Rule Statement) (ts : List Token) (Q : List Statement → Prop) :
    Prop :=
  ∀ k, NoStatement k → Bounds k → Parses D x.many (Facing (ts ++ k)) fun vs us => Q vs ∧ us = k

/-- A body ends where no statement begins. -/
theorem body_parses_nil (hstays : Stays statement)
    (hfails : ∀ k, NoStatement k → Fails D statement (Facing k)) :
    ParsesBody D statement [] (· = []) :=
  fun k hk _ => (hfails k hk).many hstays

/-- A body goes on with a statement as long as one is there. -/
theorem body_parses_cons {us : List Token} {Q : Statement → Prop} {R : List Statement → Prop}
    (hadv : Advances statement) (hus : ∀ k, Bounds k → Bounds (us ++ k))
    (h : ParsesStatement D statement ts Q) (hmore : ParsesBody D statement us R) :
    ParsesBody D statement (ts ++ us) fun vs => ∃ v rest, vs = v :: rest ∧ Q v ∧ R rest := by
  intro k hk hbounds
  rw [List.append_assoc]
  refine Parses.many hadv (h _ (hus k hbounds)) ?_
  rintro v rs ⟨hv, rfl⟩
  exact (hmore k hk hbounds).mono fun rest ws hrest => ⟨⟨v, rest, rfl, hv, hrest.1⟩, hrest.2⟩

/-- A body and the `end` behind it. -/
theorem parses_body_end {Q : List Statement → Prop} {R : Statement → Prop} {keyword : String}
    {opened : Cursor} {make : List Statement → Statement} (h : ParsesBody D statement ts Q)
    (hk : Bounds k) (hR : ∀ body, Q body → R (make body)) :
    Parses D (do
        let body ← statement.many
        closing keyword opened
        return make body)
      (Facing (ts ++ word "end" :: k)) fun v us => R v ∧ us = k := by
  have hend : (word "end").word? = some "end" := rfl
  refine (h _ (.inr ⟨_, k, rfl, hend, hk.2⟩) (bounds_of_word? hend)).bind fun body us hbody => ?_
  rw [hbody.2]
  exact (parses_closing hend).bind fun _ us hus => parses_pure ⟨hR body hbody.1, hus⟩

/-! ## Conditions -/

/-- The rule reads the tokens as a condition if a word is behind them. -/
def ParsesCondition (D : Prop) (x : Rule Expr) (ts : List Token) (Q : Expr → Prop) : Prop :=
  ∀ t w k, t.word? = some w →
    Parses D (condition x) (Facing (ts ++ t :: k)) fun v us => Q v ∧ us = t :: k

/-- A sum alone is a condition. -/
theorem condition_parses_plain {Q : Expr → Prop} (h : ParsesSum D expression ts Q) :
    ParsesCondition D expression ts Q := by
  intro t w k ht
  refine (h _ (stops_cons (stop_of_word? ht))).bind fun left us hleft => ?_
  rw [hleft.2]
  have hnone : ∀ op ∈ [Operator.lessThan, .greaterThan],
      (t :: k).head? ≠ some (operatorToken op) := by
    intro op hop heq
    rw [Option.some.inj heq] at ht
    cases op <;> cases ht
  exact (fails_operator hnone).bind.orElse_parses (parses_pure ⟨hleft.1, rfl⟩)

/-- Two sums with a comparison between them are a condition. -/
theorem condition_parses_compared {ls rs : List Token} {L R : Expr → Prop} {op : Operator}
    (hop : op.isComparison = true) (hl : ParsesSum D expression ls L)
    (hr : ParsesSum D expression rs R) :
    ParsesCondition D expression (ls ++ operatorToken op :: rs)
      fun e => ∃ left right, e = .binary left op right ∧ L left ∧ R right := by
  intro t w k ht
  have hmem : op ∈ [Operator.lessThan, .greaterThan] := by
    revert hop
    cases op <;> decide
  rw [List.append_assoc, List.cons_append]
  refine (hl _ (stops_cons (stop_comparison op hop))).bind fun left us hleft => ?_
  rw [hleft.2]
  refine Parses.orElse ((parses_operator hmem).bind fun found us hfound => ?_)
  rw [hfound.1, hfound.2]
  refine (hr _ (stops_cons (stop_of_word? ht))).bind fun right us hright => ?_
  exact parses_pure ⟨⟨left, right, rfl, hleft.1, hright.1⟩, hright.2⟩

/-! ## The forms of a statement -/

/-- A camera is read. -/
theorem camera_parses {Q : Expr → Prop} (h : ParsesSum D expression ts Q) :
    Parses D (camera expression)
      (Facing (word "set" :: word "camera" :: leftParen :: (ts ++ rightParen :: k)))
      fun v us => (∃ e, v = .camera e ∧ Q e) ∧ us = k := by
  refine (parses_keyword (by decide) rfl).bind fun _ us hus => ?_
  rw [hus]
  refine (parses_dueKeyword (by decide) rfl).bind fun _ us hus => ?_
  rw [hus]
  refine (parses_dueSymbol isSymbol_leftParen).bind fun _ us hus => ?_
  rw [hus]
  refine (h _ (stops_cons stop_rightParen)).bind fun e us he => ?_
  rw [he.2]
  exact (parses_dueSymbol isSymbol_rightParen).bind
    fun _ us hus => parses_pure ⟨⟨e, rfl, he.1⟩, hus⟩

theorem light_parses {Q : List Expr → Prop} (h : ParsesArguments D expression ts Q) :
    Parses D (light expression)
      (Facing (word "append" :: word "light" :: leftParen :: (ts ++ rightParen :: k)))
      fun v us => (∃ args, v = .light args ∧ Q args) ∧ us = k := by
  refine (parses_keyword (by decide) rfl).bind fun _ us hus => ?_
  rw [hus]
  refine (parses_dueKeyword (by decide) rfl).bind fun _ us hus => ?_
  rw [hus]
  exact (arguments_parses h).bind fun args us hargs => parses_pure ⟨⟨args, rfl, hargs.1⟩, hargs.2⟩

/-- A block is read up to its `end`. -/
theorem block_parses {Q : List Statement → Prop} (h : ParsesBody D statement ts Q)
    (hk : Bounds k) :
    Parses D (block statement) (Facing (word "do" :: (ts ++ word "end" :: k)))
      fun v us => (∃ body, v = .block body ∧ Q body) ∧ us = k := by
  refine (parses_opening (by decide) rfl).bind fun opened us hus => ?_
  rw [hus]
  exact parses_body_end h hk fun body hbody => ⟨body, rfl, hbody⟩

/-- A block under a condition is read up to its `end`. -/
theorem guarded_parses {first second : String} {make : Expr → List Statement → Statement}
    (hfirst : IsWord first) (hsecond : IsWord second) {cs : List Token} {C : Expr → Prop}
    {Q : List Statement → Prop} (hc : ParsesCondition D expression cs C)
    (h : ParsesBody D statement ts Q) (hk : Bounds k) :
    Parses D (guarded first second make statement expression)
      (Facing (word first :: (cs ++ word second :: (ts ++ word "end" :: k))))
      fun v us => (∃ c body, v = make c body ∧ C c ∧ Q body) ∧ us = k := by
  refine (parses_opening hfirst rfl).bind fun opened us hus => ?_
  rw [hus]
  refine (hc _ second _ rfl).bind fun c us hc => ?_
  rw [hc.2]
  refine (parses_dueKeyword hsecond rfl).bind fun _ us hus => ?_
  rw [hus]
  exact parses_body_end h hk fun body hbody => ⟨c, body, rfl, hc.1, hbody⟩

theorem conditional_parses {cs : List Token} {C : Expr → Prop} {Q : List Statement → Prop}
    (hc : ParsesCondition D expression cs C) (h : ParsesBody D statement ts Q) (hk : Bounds k) :
    Parses D (conditional statement expression)
      (Facing (word "if" :: (cs ++ word "then" :: (ts ++ word "end" :: k))))
      fun v us => (∃ c body, v = .conditional c body ∧ C c ∧ Q body) ∧ us = k :=
  guarded_parses (by decide) (by decide) hc h hk

theorem loop_parses {cs : List Token} {C : Expr → Prop} {Q : List Statement → Prop}
    (hc : ParsesCondition D expression cs C) (h : ParsesBody D statement ts Q) (hk : Bounds k) :
    Parses D (loop statement expression)
      (Facing (word "while" :: (cs ++ word "do" :: (ts ++ word "end" :: k))))
      fun v us => (∃ c body, v = .loop c body ∧ C c ∧ Q body) ∧ us = k :=
  guarded_parses (by decide) (by decide) hc h hk

/-- A call is read with its name and its arguments. -/
theorem call_parses {Q : List Expr → Prop} {t : Token} {name : String} (hname : IsName t name)
    (h : ParsesArguments D expression ts Q) :
    Parses D (call expression)
      (Facing (word "call" :: t :: leftParen :: (ts ++ rightParen :: k)))
      fun v us => (∃ args, v = .call name args ∧ Q args) ∧ us = k := by
  refine (parses_keyword (by decide) rfl).bind fun _ us hus => ?_
  rw [hus]
  refine (parses_dueName hname).bind fun found us hfound => ?_
  rw [hfound.1, hfound.2]
  exact (arguments_parses h).bind fun args us hargs => parses_pure ⟨⟨args, rfl, hargs.1⟩, hargs.2⟩

/-- A parameter is read with the separator behind it. -/
theorem parameter_parses {t : Token} {sep : List Token} {name : String} (hname : IsName t name)
    (hsep : IsSeparator sep) (hne : ts.head? ≠ some comma) :
    Parses D parameter (Facing (t :: (sep ++ ts))) fun v us => v = name ∧ us = ts := by
  refine (parses_dueName hname).bind fun found us hfound => ?_
  rw [hfound.1, hfound.2]
  cases hsep with
  | none => exact (parses_no_comma hne).bind fun _ us hus => parses_pure ⟨rfl, hus⟩
  | comma => exact parses_comma.bind fun _ us hus => parses_pure ⟨rfl, hus⟩

theorem advances_parameter : Advances parameter := by
  refine yields_parameter.advances ?_
  rintro ts name ⟨tok, sep, rfl, _⟩
  exact List.cons_ne_nil tok sep

/-- Parameters are read up to the parenthesis that closes them. -/
theorem parameters_parse {ps : List Token} {names : List String} (h : IsParameters ps names) :
    Parses D parameter.many (Facing (ps ++ rightParen :: k))
      fun vs us => vs = names ∧ us = rightParen :: k := by
  induction h with
  | nil =>
    have hfails : Fails D parameter (Facing (rightParen :: k)) := (fails_dueName rfl).bind
    exact hfails.many stays_parameter
  | @cons t sep us name names hname hsep hmore ih =>
    have hne : (us ++ rightParen :: k).head? ≠ some comma := by
      cases hmore with
      | nil => simp [rightParen, comma]
      | cons hname' _ _ => exact head?_ne_of_word? hname'.word? rfl _
    rw [List.cons_append, List.append_assoc]
    refine Parses.many advances_parameter (parameter_parses hname hsep hne) ?_
    rintro v rs ⟨rfl, rfl⟩
    exact ih.mono fun vs ws hvs => ⟨by rw [hvs.1], hvs.2⟩

/-- A definition is read with its parameters and its body. -/
theorem definition_parses {Q : List Statement → Prop} {t : Token} {name : String}
    {ps : List Token} {params : List String} (hname : IsName t name)
    (hparams : IsParameters ps params) (h : ParsesBody D statement ts Q) (hk : Bounds k) :
    Parses D (definition statement)
      (Facing (word "function" :: t :: leftParen ::
        (ps ++ rightParen :: (ts ++ word "end" :: k))))
      fun v us => (∃ body, v = .definition name params body ∧ Q body) ∧ us = k := by
  refine (parses_opening (by decide) rfl).bind fun opened us hus => ?_
  rw [hus]
  refine (parses_dueName hname).bind fun found us hfound => ?_
  rw [hfound.1, hfound.2]
  refine (parses_dueSymbol isSymbol_leftParen).bind fun _ us hus => ?_
  rw [hus]
  refine (parameters_parse hparams).bind fun found us hfound => ?_
  rw [hfound.1, hfound.2]
  refine (parses_dueSymbol isSymbol_rightParen).bind fun _ us hus => ?_
  rw [hus]
  exact parses_body_end h hk fun body hbody => ⟨body, rfl, hbody⟩

theorem command_parses {Q : List Expr → Prop} (name : Command)
    (h : ParsesArguments D expression ts Q) :
    Parses D (command expression)
      (Facing (word name.text :: leftParen :: (ts ++ rightParen :: k)))
      fun v us => (∃ args, v = .command name args ∧ Q args) ∧ us = k := by
  refine (parses_oneOf isWord_command Command.text_injective name.mem_all rfl).bind
    fun found us hfound => ?_
  rw [hfound.1, hfound.2]
  exact (arguments_parses h).bind fun args us hargs => parses_pure ⟨⟨args, rfl, hargs.1⟩, hargs.2⟩

/-- A transformation is read with the statement under it. -/
theorem transformation_parses {xs ys zs : List Token} {X Y Z : Expr → Prop} {Q : Statement → Prop}
    (kind : Transform) (hx : ParsesSum D expression xs X) (hy : ParsesSum D expression ys Y)
    (hz : ParsesSum D expression zs Z) (h : ParsesStatement D statement ts Q) (hk : Bounds k) :
    Parses D (transformation statement expression)
      (Facing (word kind.text :: leftParen ::
        (xs ++ comma :: (ys ++ comma :: (zs ++ rightParen :: (ts ++ k))))))
      fun v us => (∃ x y z body, v = .transformation kind x y z body ∧ X x ∧ Y y ∧ Z z ∧ Q body)
        ∧ us = k := by
  refine (parses_oneOf isWord_transform Transform.text_injective kind.mem_all rfl).bind
    fun found us hfound => ?_
  rw [hfound.1, hfound.2]
  refine (parses_dueSymbol isSymbol_leftParen).bind fun _ us hus => ?_
  rw [hus]
  refine (triple_parses isSymbol_rightParen stop_rightParen hx hy hz).bind fun v us hv => ?_
  rw [hv.2]
  refine (h k hk).bind fun body us hbody => ?_
  obtain ⟨hX, hY, hZ⟩ := hv.1
  exact parses_pure ⟨⟨v.1, v.2.1, v.2.2, body, rfl, hX, hY, hZ, hbody.1⟩, hbody.2⟩

/-! ## Assignments -/

theorem localKeyword_parses (isLocal : Bool) (hne : leadingWord ts ≠ some "local") :
    Parses D localKeyword (Facing (localTokens isLocal ++ ts))
      fun v us => v.isSome = isLocal ∧ us = ts := by
  cases isLocal with
  | false => exact (fails_opening (by decide) hne).bind.orElse_parses (parses_pure ⟨rfl, rfl⟩)
  | true =>
    have hopening : Parses D (opening "local") (Facing (word "local" :: ts)) fun _ us => us = ts :=
      parses_opening (by decide) rfl
    exact (hopening.bind fun place us hus => parses_pure (v := some place) ⟨rfl, hus⟩).orElse

theorem ne_local_of_isName {t : Token} {name : String} (h : IsName t name) :
    leadingWord (t :: ts) ≠ some "local" := by
  intro heq
  have hfree := h.not_reserved
  rw [leadingWord_cons, h.word?] at heq
  rw [Option.some.inj heq] at hfree
  revert hfree
  decide

/-- What is assigned to is read with the equals sign. -/
theorem assignee_parses (isLocal : Bool) {t : Token} {name : String} (hname : IsName t name) :
    Parses D assignee (Facing (localTokens isLocal ++ t :: equals :: ts))
      fun v us => v = (isLocal, name) ∧ us = ts := by
  refine (localKeyword_parses isLocal (ne_local_of_isName hname)).bind ?_
  rintro place us ⟨hplace, rfl⟩
  refine Parses.behind ?_
  refine (parses_name hname).orElse.bind fun found us hfound => ?_
  rw [hfound.1, hfound.2]
  refine (parses_dueSymbol isSymbol_equals).bind fun _ us hus => parses_pure ⟨?_, hus⟩
  rw [hplace]

/-- An assignment is read. -/
theorem assignment_parses (isLocal : Bool) {t : Token} {name : String} {Q : Expr → Prop}
    (hname : IsName t name) (h : ParsesSum D expression ts Q) (hk : Bounds k) :
    Parses D (assignment expression) (Facing (localTokens isLocal ++ t :: equals :: (ts ++ k)))
      fun v us => (∃ e, v = .assignment isLocal name e ∧ Q e) ∧ us = k := by
  refine (assignee_parses isLocal hname).bind fun found us hfound => ?_
  rw [hfound.1, hfound.2]
  exact (h k hk.1).bind fun e us he => parses_pure ⟨⟨e, rfl, he.1⟩, he.2⟩

/-- Without `=` behind a word nothing is assigned to. -/
theorem fails_unnamed {place : Option Cursor} (hplace : place = none)
    (hne : ∀ t us word, ts = t :: us → t.word? = some word → us.head? ≠ some equals) :
    Fails D (unnamed place) (AtTokens ts) := by
  rw [hplace]
  intro s hs
  refine .inl ⟨s, ?_⟩
  unfold unnamed
  dsimp only
  cases hword : s.cursor.word? with
  | none => rfl
  | some word =>
    obtain ⟨us, rfl, hus⟩ := hs.2.of_next? ((word?_eq_some_iff hs.1).1 hword)
    have hnone : (s.cursor.afterWord word).afterTrivia.afterSymbol? "=" = none := by
      cases hsym : (s.cursor.afterWord word).afterTrivia.afterSymbol? "=" with
      | none => rfl
      | some d =>
        have hd := (afterSymbol?_eq_some_iff (settled_afterTrivia _) isSymbol_equals).1 hsym
        obtain ⟨rs, rfl, _⟩ := (ahead_afterTrivia.2 hus).of_next? hd
        exact absurd rfl (hne _ _ word rfl (Token.word?_ofWord word))
    simp only [hnone]
    rfl

/-- No assignment stands where no `=` is behind the first word. -/
theorem fails_assignment (hlocal : leadingWord ts ≠ some "local")
    (hne : ∀ t us word, ts = t :: us → t.word? = some word → us.head? ≠ some equals) :
    Fails D (assignment expression) (Facing ts) := by
  refine Fails.bind ?_
  refine (localKeyword_parses false hlocal).bind_fails ?_
  rintro place us ⟨hplace, rfl⟩
  have hnone : place = none := Option.isSome_eq_false_iff.1 hplace |> Option.isNone_iff_eq_none.1
  refine Fails.behind ?_
  -- a name is found or not; there is no `=` behind it
  by_cases hname : ∃ t rest name, us = t :: rest ∧ IsName t name
  · obtain ⟨t, rest, name, rfl, hname⟩ := hname
    refine (parses_name hname).orElse.bind_fails fun found ws hfound => ?_
    rw [hfound.2]
    exact (fails_dueSymbol isSymbol_equals (hne t rest name rfl hname.word?)).bind
  · refine ((fails_name fun word hword => ?_).orElse (fails_unnamed hnone hne)).bind
    cases hres : isReserved word with
    | true => rfl
    | false =>
      cases us with
      | nil => cases hword
      | cons t rest =>
        refine absurd ⟨t, rest, word, rfl, ?_⟩ hname
        cases t with
        | identifier name =>
          cases hword
          exact .identifier word hres
        | keyword name =>
          cases hword
          exact .keyword word hres
        | _ => cases hword

/-! ## Statements by their first word -/

theorem word?_eq_leadingWord {c : Cursor} (h : AtTokens ts c) : c.word? = leadingWord ts := by
  rw [Option.ext_iff]
  intro word
  rw [word?_eq_some_iff h.1]
  constructor
  · intro hnext
    obtain ⟨us, rfl, _⟩ := h.2.of_next? hnext
    exact Token.word?_ofWord word
  · intro hword
    cases ts with
    | nil => cases hword
    | cons t us =>
      obtain ⟨d, hd, _⟩ := h.2.next?
      exact (word?_eq_some_iff h.1).1 (word?_of_next? h.1 hd hword)

/-- The alternatives that the first word leaves. -/
def choices (statement : Rule Statement) (expression : Rule Expr) (ts : List Token) :
    List (Rule Statement) :=
  ledBy (leadingWord ts) (ledBefore statement expression) ++
    (assignment expression :: (ledBy (leadingWord ts) (ledAfter statement expression) ++
      [unmet .statement]))

theorem anyStatement_eq_choices {s : State} (hs : AtTokens ts s.cursor) :
    anyStatement statement expression s = firstOf (choices statement expression ts) s := by
  rw [anyStatement_eq statement expression hs.1, word?_eq_leadingWord hs]
  rfl

/-- What the choices that a leading word leaves read is a statement. -/
theorem anyStatement_parses {Q : Statement → List Token → Prop}
    (h : Parses D (firstOf (choices statement expression ts)) (AtTokens ts) Q) :
    Parses D (anyStatement statement expression) (AtTokens ts) Q := by
  intro s hs
  unfold Deep
  rw [anyStatement_eq_choices hs]
  exact h s hs

/-- No alternative is left where no statement starts. -/
theorem fails_anyStatement (h : NoStatement ts) :
    Fails D (anyStatement statement expression) (AtTokens ts) := by
  have hchoices : choices statement expression ts = [assignment expression, unmet .statement] := by
    rcases h with h | ⟨t, us, rfl, ht, _⟩
    · rw [choices, h]
      rfl
    · rw [choices, leadingWord_cons, ht]
      rfl
  have hassignment : Fails D (assignment expression) (Facing ts) := by
    rcases h with h | ⟨t, us, rfl, ht, hne⟩
    · refine fails_assignment (by rw [h]; nofun) fun t us word hts ht => ?_
      rw [hts, leadingWord_cons, ht] at h
      cases h
    · refine fails_assignment (by rw [leadingWord_cons, ht]; decide) fun t' us' word heq _ => ?_
      obtain ⟨_, rfl⟩ := List.cons.inj heq
      exact hne
  intro s hs
  unfold Deep
  rw [anyStatement_eq_choices hs, hchoices]
  exact (hassignment.settled.orElse (fails_unmet.orElse fun s _ => .inl ⟨s, rfl⟩)) s hs

/-- The word is opened or it is not. -/
theorem fails_behind_opening {keyword : String} {t : Token} {f : Cursor → Rule Statement}
    (hw : IsWord keyword) (h : ∀ place, Fails D (f place) (Facing ts)) :
    Fails D (opening keyword >>= f) (Facing (t :: ts)) := by
  by_cases ht : t.word? = some keyword
  · refine (parses_opening hw ht).bind_fails fun place us hus => ?_
    rw [hus]
    exact h place
  · have hne : leadingWord (t :: ts) ≠ some keyword := ht
    exact (fails_opening hw hne).bind

/-- Before `=` no form but an assignment matches, whatever the word. -/
theorem fails_forms {t : Token} {name : String} (hname : IsName t name)
    (hstays : Stays statement) (hstatement : Fails D statement (Facing (equals :: ts)))
    (hexpression : Fails D expression (Facing (equals :: ts))) :
    ∀ rule ∈ [camera expression, light expression, block statement,
        conditional statement expression, loop statement expression, call expression,
        definition statement, command expression],
      Fails D rule (AtTokens (t :: equals :: ts)) := by
  have hword := leadingWord_ne (t := equals) rfl ts
  have hcommand : ∀ c : Command, leadingWord (t :: equals :: ts) ≠ some c.text := by
    intro c heq
    have hfree := hname.not_reserved
    rw [leadingWord_cons, hname.word?] at heq
    rw [Option.some.inj heq] at hfree
    cases c <;> revert hfree <;> decide
  intro rule hmem
  simp only [List.mem_cons, List.not_mem_nil, or_false] at hmem
  refine Fails.settled ?_
  rcases hmem with rfl | rfl | rfl | rfl | rfl | rfl | rfl | rfl
  · exact fails_behind_word (by decide) (fails_dueKeyword (by decide) (hword _)).bind
  · exact fails_behind_word (by decide) (fails_dueKeyword (by decide) (hword _)).bind
  · -- the block has no statement in it, and no end
    refine fails_behind_opening (by decide) fun _ => (hstatement.many hstays).bind_fails ?_
    rintro body us ⟨_, rfl⟩
    exact (fails_closing (hword _)).bind
  · exact fails_behind_opening (by decide) fun _ => hexpression.bind.bind
  · exact fails_behind_opening (by decide) fun _ => hexpression.bind.bind
  · exact fails_behind_word (by decide) (fails_dueName rfl).bind
  · exact fails_behind_opening (by decide) fun _ => (fails_dueName rfl).bind
  · exact (fails_oneOf isWord_command fun c _ => hcommand c).bind

theorem Parses.firstOf_append {α : Type} {rules others : List (Rule α)} {P : Cursor → Prop}
    {Q : α → List Token → Prop} (h : ∀ rule ∈ rules, Fails D rule P)
    (hothers : Parses D (firstOf others) P Q) : Parses D (firstOf (rules ++ others)) P Q := by
  induction rules with
  | nil => exact hothers
  | cons rule rules ih =>
    exact (h rule (List.mem_cons_self ..)).orElse_parses
      (ih fun other hmem => h other (List.mem_cons_of_mem _ hmem))

/-- A name with an equals sign behind it is assigned to, though it may be a keyword. -/
theorem anyStatement_parses_assignment (isLocal : Bool) {t : Token} {name : String}
    {Q : Statement → List Token → Prop} (hname : IsName t name)
    (hstays : Stays statement) (hstatement : Fails D statement (Facing (equals :: ts)))
    (hexpression : Fails D expression (Facing (equals :: ts)))
    (h : Parses D (assignment expression) (Facing (localTokens isLocal ++ t :: equals :: ts)) Q) :
    Parses D (anyStatement statement expression)
      (AtTokens (localTokens isLocal ++ t :: equals :: ts)) Q := by
  cases isLocal with
  | true => exact anyStatement_parses h.settled.orElse
  | false =>
    exact Parses.firstOf_append (fails_forms hname hstays hstatement hexpression)
      h.settled.orElse

/-- An `append` without `light` behind it is a command. -/
theorem anyStatement_parses_command (name : Command) {Q : Statement → List Token → Prop}
    (h : Parses D (command expression) (Facing (word name.text :: leftParen :: ts)) Q) :
    Parses D (anyStatement statement expression)
      (AtTokens (word name.text :: leftParen :: ts)) Q := by
  refine anyStatement_parses ?_
  cases name with
  | draw => exact h.settled.orElse
  | display => exact h.settled.orElse
  | append =>
    have hlight : Fails D (light expression) (Facing (word "append" :: leftParen :: ts)) :=
      fails_behind_word (by decide) (fails_dueKeyword (by decide) (leadingWord_ne rfl _ _)).bind
    exact hlight.settled.orElse_parses h.settled.orElse

/-- Nothing is assigned to the keyword of a transformation. -/
theorem fails_assignment_transform (kind : Transform) :
    Fails D (assignment expression) (Facing (word kind.text :: leftParen :: ts)) := by
  refine fails_assignment (by cases kind <;> simp [word, Token.word?, Transform.text]) ?_
  intro t us _ heq _
  rw [← (List.cons.inj heq).2]
  simp [leftParen, equals]

theorem anyStatement_parses_transformation (kind : Transform)
    {Q : Statement → List Token → Prop}
    (h : Parses D (transformation statement expression)
      (Facing (word kind.text :: leftParen :: ts)) Q) :
    Parses D (anyStatement statement expression)
      (AtTokens (word kind.text :: leftParen :: ts)) Q := by
  refine anyStatement_parses ?_
  cases kind <;> exact (fails_assignment_transform _).settled.orElse_parses h.settled.orElse

end SceneScript.Parser
