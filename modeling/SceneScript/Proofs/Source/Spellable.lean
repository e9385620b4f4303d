import SceneScript.Proofs.Parser.StatementTandem
import SceneScript.Proofs.Source.Spells

/-!
# Sentences that can be written

Not every token of the grammar can be written: a text with both kinds of quotes has no literal, and
neither has a number with a sign.  But what a sentence can begin with can be followed by tokens that
can be written, because the grammar does not tell one name from another, or one literal.
-/

namespace SceneScript

open Grammar SceneScript.Parser

/-- Some text is read as the token. -/
def Spellable (t : Token) : Prop := ∃ text, Spells text [t]

variable {t : Token} {ts us : List Token} {c d : Cursor}

/-! ## Tokens that can be written -/

/-- A symbol can be spelled. -/
theorem spellable_of_isSymbol {symbol : String} (h : Cursor.IsSymbol symbol t) : Spellable t := by
  obtain ⟨x, _, hx⟩ := h
  -- two slashes would be a comment, so a blank comes behind the symbol
  have hblank : Spells [' '] [] := Spells.blank (by decide) spells_nil
  exact ⟨_, Spells.symbol hx hblank fun _ => rfl⟩

/-- A keyword can be spelled. -/
theorem spellable_word {keyword : String} (hw : Cursor.IsWord keyword)
    (hk : isKeyword keyword = true) : Spellable (word keyword) := by
  have h := spells_word hw
  rw [Token.ofWord, if_pos hk] at h
  exact ⟨_, h⟩

theorem isWord_of_word? {word : String} (h : c.word? = some word) : Cursor.IsWord word := by
  have hlist := Cursor.toList_of_word? h
  obtain ⟨x, rest, hr, hx⟩ := Cursor.rest_eq_cons_of_word? h
  refine ⟨?_, by rw [hlist]; exact List.all_takeWhile⟩
  rw [hlist, hr, List.takeWhile_cons, if_pos (isWordChar_of_isWordStart hx)]
  exact hx

/-- Every token that is read can be written. -/
theorem spellable_of_next? (h : c.next? = some (t, d)) : Spellable t := by
  rw [← Cursor.next?_afterTrivia, Cursor.next?_eq_some_iff (Cursor.settled_afterTrivia c)] at h
  obtain ⟨text, rfl, htext⟩ | ⟨x, rfl, hx⟩ | ⟨word, rfl, hword, _⟩ | ⟨x, rest, _, hx, _⟩ :=
    Cursor.token?_cases h
  · obtain ⟨quote, _, _, hquote, hnot, _⟩ := Cursor.eq_of_text? htext
    exact ⟨_, spells_text hquote hnot⟩
  · exact ⟨_, spells_number (Parser.isUnsigned_of_number? hx)⟩
  · exact ⟨_, spells_word (isWord_of_word? hword)⟩
  · exact ⟨_, Spells.symbol hx (Spells.blank (x := ' ') (by decide) spells_nil) fun _ => rfl⟩

/-- All tokens that are read can be spelled. -/
theorem spellable_of_reads (h : c.Reads ts d) : ∀ t ∈ ts, Spellable t := by
  induction ts generalizing c with
  | nil => simp
  | cons t ts ih =>
    obtain ⟨e, he, hrest⟩ := h
    intro u hu
    rcases List.mem_cons.1 hu with rfl | hu
    · exact spellable_of_next? he
    · exact ih hrest u hu

/-- Tokens are written with blanks between them. -/
theorem exists_spells (h : ∀ t ∈ ts, Spellable t) : ∃ text, Breaks text ∧ Spells text ts := by
  induction ts with
  | nil => exact ⟨[], breaks_nil, spells_nil⟩
  | cons t ts ih =>
    obtain ⟨a, ha⟩ := h t (List.mem_cons_self ..)
    obtain ⟨b, hb, hspells⟩ := ih fun u hu => h u (List.mem_cons_of_mem _ hu)
    exact ⟨' ' :: (a ++ b), breaks_cons (by decide) _, Spells.blank (by decide) (ha.append hspells hb)⟩

/-- Tokens that can be spelled are those of a source. -/
theorem exists_source (h : ∀ t ∈ ts, Spellable t) : ∃ source, (Cursor.start source).Ahead ts := by
  obtain ⟨text, _, hspells⟩ := exists_spells h
  obtain ⟨d, hreads, hd⟩ := hspells (Cursor.start (String.ofList text)) []
    (by simp [Cursor.start]) breaks_nil
  refine ⟨String.ofList text, ?_⟩
  have hend : d.Ahead [] := by
    show d.afterTrivia.isEnd = true
    simp [Cursor.afterTrivia, Cursor.isEnd, hd]
  simpa using hreads.ahead hend

/-! ## Names and literals that can be written -/

open Classical in
/-- The token, or another one of its kind if it cannot be written. -/
noncomputable def mend (t : Token) : Token :=
  if Spellable t then t
  else match t with
    | .number _ => .number .zero
    | .text _ => .text ""
    | _ => .identifier "x"

/-- Nothing is mended that can be spelled. -/
theorem mend_of_spellable (h : Spellable t) : mend t = t := if_pos h

/-- What is mended can be spelled. -/
theorem spellable_mend (t : Token) : Spellable (mend t) := by
  unfold mend
  split
  · assumption
  · split
    · exact ⟨_, spells_number ⟨rfl, rfl⟩⟩
    · exact ⟨_, spells_text (.inl rfl) (show '"' ∉ "".toList by decide)⟩
    · exact ⟨_, spells_word (show Cursor.IsWord "x" by decide)⟩

theorem mend_of_isSymbol {symbol : String} (h : Cursor.IsSymbol symbol t) : mend t = t :=
  mend_of_spellable (spellable_of_isSymbol h)

@[simp] theorem mend_comma : mend comma = comma := mend_of_isSymbol Cursor.isSymbol_comma

@[simp] theorem mend_leftParen : mend leftParen = leftParen :=
  mend_of_isSymbol Cursor.isSymbol_leftParen

@[simp] theorem mend_rightParen : mend rightParen = rightParen :=
  mend_of_isSymbol Cursor.isSymbol_rightParen

@[simp] theorem mend_leftAngle : mend leftAngle = leftAngle :=
  mend_of_isSymbol Cursor.isSymbol_leftAngle

@[simp] theorem mend_rightAngle : mend rightAngle = rightAngle :=
  mend_of_isSymbol Cursor.isSymbol_rightAngle

@[simp] theorem mend_equals : mend equals = equals := mend_of_isSymbol Cursor.isSymbol_equals

@[simp] theorem mend_minus : mend minus = minus := mend_of_isSymbol Cursor.isSymbol_minus

@[simp] theorem mend_operator (op : Operator) : mend (operatorToken op) = operatorToken op :=
  mend_of_isSymbol (Cursor.isSymbol_operator op)

theorem isWord_of_isKeyword {keyword : String} (h : isKeyword keyword = true) :
    Cursor.IsWord keyword := by
  have hall : ∀ keyword ∈ keywords, Cursor.IsWord keyword := by decide
  exact hall keyword (by simpa [isKeyword] using h)

theorem mend_word {keyword : String} (h : isKeyword keyword = true) :
    mend (word keyword) = word keyword :=
  mend_of_spellable (spellable_word (isWord_of_isKeyword h) h)

theorem mend_end : mend (word "end") = word "end" := mend_word (by decide)

/-- A number is mended to a number. -/
theorem mend_number (x : Binary64) : ∃ y, mend (.number x) = .number y := by
  unfold mend
  split
  · exact ⟨_, rfl⟩
  · exact ⟨_, rfl⟩

/-- A text is mended to a text. -/
theorem mend_text (value : String) : ∃ other, mend (.text value) = .text other := by
  unfold mend
  split
  · exact ⟨_, rfl⟩
  · exact ⟨_, rfl⟩

/-- A name is mended to a name. -/
theorem mend_name {name : String} (h : IsName t name) : ∃ other, IsName (mend t) other := by
  unfold mend
  split
  · exact ⟨name, h⟩
  · cases h <;> exact ⟨_, .identifier "x" (by decide)⟩

/-! ## Mended phrases -/

theorem mend_separator (h : IsSeparator ts) : IsSeparator (ts.map mend) := by
  cases h with
  | none => exact .none
  | comma => simpa using IsSeparator.comma

mutual

/-- A value is one when its tokens are mended, by what it is made of. -/
theorem mend_value : ∀ {ts : List Token} {e : Expr}, IsValue ts e →
    ∃ e', IsValue (ts.map mend) e'
  | _, _, .number x => by
    obtain ⟨y, hy⟩ := mend_number x
    exact ⟨.number y, by simpa [hy] using IsValue.number y⟩
  | _, _, .color c => by
    exact ⟨.color c, by simpa [mend_word (isKeyword_color c)] using IsValue.color c⟩
  | _, _, .rgb hr hg hb => by
    obtain ⟨r, hr⟩ := mend_sum hr
    obtain ⟨g, hg⟩ := mend_sum hg
    obtain ⟨b, hb⟩ := mend_sum hb
    have hword : mend (word "rgb") = word "rgb" := mend_word (by decide)
    exact ⟨.rgb r g b, by simpa [hword] using IsValue.rgb hr hg hb⟩
  | _, _, .vector hx hy hz => by
    obtain ⟨x, hx⟩ := mend_sum hx
    obtain ⟨y, hy⟩ := mend_sum hy
    obtain ⟨z, hz⟩ := mend_sum hz
    exact ⟨.vector x y z, by simpa using IsValue.vector hx hy hz⟩
  | _, _, .texture h => by
    obtain ⟨path, h⟩ := mend_sum h
    have hword : mend (word "texture") = word "texture" := mend_word (by decide)
    exact ⟨.texture path, by simpa [hword] using IsValue.texture h⟩
  | _, _, .paren h => by
    obtain ⟨inner, h⟩ := mend_sum h
    exact ⟨.paren inner, by simpa using IsValue.paren h⟩
  | _, _, .solid kind h => by
    obtain ⟨args, h⟩ := mend_arguments h
    have hword := mend_word (isKeyword_solid kind)
    exact ⟨.solid kind args, by simpa [hword] using IsValue.solid kind h⟩
  | _, _, .text value => by
    obtain ⟨other, hother⟩ := mend_text value
    exact ⟨.text other, by simpa [hother] using IsValue.text other⟩
  | _, _, .identifier h => by
    obtain ⟨name, h⟩ := mend_name h
    exact ⟨.identifier name, .identifier h⟩

theorem mend_negation : ∀ {ts : List Token} {e : Expr}, IsNegation ts e →
    ∃ e', IsNegation (ts.map mend) e'
  | _, _, .value h => by
    obtain ⟨e, h⟩ := mend_value h
    exact ⟨e, .value h⟩
  | _, _, .minus h => by
    obtain ⟨e, h⟩ := mend_value h
    exact ⟨.negate e, by simpa using IsNegation.minus h⟩

theorem mend_product : ∀ {ts : List Token} {e : Expr}, IsProduct ts e →
    ∃ e', IsProduct (ts.map mend) e'
  | _, _, .factor h => by
    obtain ⟨e, h⟩ := mend_negation h
    exact ⟨e, .factor h⟩
  | _, _, .times op hop hl hr => by
    obtain ⟨left, hl⟩ := mend_product hl
    obtain ⟨right, hr⟩ := mend_negation hr
    exact ⟨.binary left op right, by simpa using IsProduct.times op hop hl hr⟩

/-- A sum is one when its tokens are mended. -/
theorem mend_sum : ∀ {ts : List Token} {e : Expr}, IsSum ts e →
    ∃ e', IsSum (ts.map mend) e'
  | _, _, .term h => by
    obtain ⟨e, h⟩ := mend_product h
    exact ⟨e, .term h⟩
  | _, _, .plus op hop hl hr => by
    obtain ⟨left, hl⟩ := mend_sum hl
    obtain ⟨right, hr⟩ := mend_product hr
    exact ⟨.binary left op right, by simpa using IsSum.plus op hop hl hr⟩

/-- Arguments are ones when their tokens are mended. -/
theorem mend_arguments : ∀ {ts : List Token} {es : List Expr}, IsArguments ts es →
    ∃ es', IsArguments (ts.map mend) es'
  | _, _, .nil => ⟨[], .nil⟩
  | _, _, .cons h hsep hmore => by
    obtain ⟨e, h⟩ := mend_sum h
    obtain ⟨es, hmore⟩ := mend_arguments hmore
    exact ⟨e :: es, by simpa using IsArguments.cons h (mend_separator hsep) hmore⟩

end

/-- A condition is one when its tokens are mended. -/
theorem mend_condition {e : Expr} (h : IsCondition ts e) : ∃ e', IsCondition (ts.map mend) e' := by
  cases h with
  | plain h =>
    obtain ⟨e, h⟩ := mend_sum h
    exact ⟨e, .plain h⟩
  | compared op hop hl hr =>
    obtain ⟨left, hl⟩ := mend_sum hl
    obtain ⟨right, hr⟩ := mend_sum hr
    exact ⟨.binary left op right, by simpa using IsCondition.compared op hop hl hr⟩

theorem mend_parameters {names : List String} (h : IsParameters ts names) :
    ∃ names', IsParameters (ts.map mend) names' := by
  induction h with
  | nil => exact ⟨[], .nil⟩
  | cons hname hsep _ ih =>
    obtain ⟨name, hname⟩ := mend_name hname
    obtain ⟨names, hmore⟩ := ih
    exact ⟨name :: names, by simpa using IsParameters.cons hname (mend_separator hsep) hmore⟩

theorem mend_local (isLocal : Bool) : (localTokens isLocal).map mend = localTokens isLocal := by
  have hword : mend (word "local") = word "local" := mend_word (by decide)
  cases isLocal <;> simp [localTokens, hword]

mutual

/-- A statement is one when its tokens are mended. -/
theorem mend_statement : ∀ {ts : List Token} {st : Statement}, IsStatement ts st →
    ∃ st', IsStatement (ts.map mend) st'
  | _, _, .camera h => by
    -- keywords are spellable as they are; what is mended are names, numbers and texts
    obtain ⟨e, h⟩ := mend_sum h
    have hset : mend (word "set") = word "set" := mend_word (by decide)
    have hcamera : mend (word "camera") = word "camera" := mend_word (by decide)
    exact ⟨.camera e, by simpa [hset, hcamera] using IsStatement.camera h⟩
  | _, _, .light h => by
    obtain ⟨args, h⟩ := mend_arguments h
    have happend : mend (word "append") = word "append" := mend_word (by decide)
    have hlight : mend (word "light") = word "light" := mend_word (by decide)
    exact ⟨.light args, by simpa [happend, hlight] using IsStatement.light h⟩
  | _, _, .block h => by
    obtain ⟨body, h⟩ := mend_body h
    have hdo : mend (word "do") = word "do" := mend_word (by decide)
    exact ⟨.block body, by simpa [hdo, mend_end] using IsStatement.block h⟩
  | _, _, .conditional hc h => by
    obtain ⟨c, hc⟩ := mend_condition hc
    obtain ⟨body, h⟩ := mend_body h
    have hif : mend (word "if") = word "if" := mend_word (by decide)
    have hthen : mend (word "then") = word "then" := mend_word (by decide)
    exact ⟨.conditional c body, by simpa [hif, hthen, mend_end] using IsStatement.conditional hc h⟩
  | _, _, .loop hc h => by
    obtain ⟨c, hc⟩ := mend_condition hc
    obtain ⟨body, h⟩ := mend_body h
    have hwhile : mend (word "while") = word "while" := mend_word (by decide)
    have hdo : mend (word "do") = word "do" := mend_word (by decide)
    exact ⟨.loop c body, by simpa [hwhile, hdo, mend_end] using IsStatement.loop hc h⟩
  | _, _, .call hname h => by
    obtain ⟨name, hname⟩ := mend_name hname
    obtain ⟨args, h⟩ := mend_arguments h
    have hcall : mend (word "call") = word "call" := mend_word (by decide)
    exact ⟨.call name args, by simpa [hcall] using IsStatement.call hname h⟩
  | _, _, .definition hname hparams h => by
    obtain ⟨name, hname⟩ := mend_name hname
    obtain ⟨params, hparams⟩ := mend_parameters hparams
    obtain ⟨body, h⟩ := mend_body h
    have hfunction : mend (word "function") = word "function" := mend_word (by decide)
    exact ⟨.definition name params body, by
      simpa [hfunction, mend_end] using IsStatement.definition hname hparams h⟩
  | _, _, .command name h => by
    obtain ⟨args, h⟩ := mend_arguments h
    have hword := mend_word (isKeyword_command name)
    exact ⟨.command name args, by simpa [hword] using IsStatement.command name h⟩
  | _, _, .assignment isLocal hname h => by
    obtain ⟨name, hname⟩ := mend_name hname
    obtain ⟨e, h⟩ := mend_sum h
    exact ⟨.assignment isLocal name e, by
      simpa [mend_local] using IsStatement.assignment isLocal hname h⟩
  | _, _, .transformation kind hx hy hz h => by
    obtain ⟨x, hx⟩ := mend_sum hx
    obtain ⟨y, hy⟩ := mend_sum hy
    obtain ⟨z, hz⟩ := mend_sum hz
    obtain ⟨body, h⟩ := mend_statement h
    have hword := mend_word (isKeyword_transform kind)
    exact ⟨.transformation kind x y z body, by
      simpa [hword] using IsStatement.transformation kind hx hy hz h⟩

/-- A body is one when its tokens are mended. -/
theorem mend_body : ∀ {ts : List Token} {ss : List Statement}, IsBody ts ss →
    ∃ ss', IsBody (ts.map mend) ss'
  | _, _, .nil => ⟨[], .nil⟩
  | _, _, .cons h hmore => by
    obtain ⟨st, h⟩ := mend_statement h
    obtain ⟨ss, hmore⟩ := mend_body hmore
    exact ⟨st :: ss, by simpa using IsBody.cons h hmore⟩

end

/-- What can be written and begins a sentence begins one that can be written as a whole. -/
theorem exists_source_of_isViable (h : IsViable ts) (hts : ∀ t ∈ ts, Spellable t) :
    ∃ source us, (Cursor.start source).Ahead (ts ++ us) ∧ IsSentence (ts ++ us) := by
  obtain ⟨us, p, hbody⟩ := h
  -- what has been read stays as it is, only what comes behind it is mended
  obtain ⟨ss, hmended⟩ := mend_body hbody
  have hsame : ts.map mend = ts := by
    rw [List.map_congr_left fun t ht => mend_of_spellable (hts t ht), List.map_id']
  rw [List.map_append, hsame] at hmended
  have hspellable : ∀ t ∈ ts ++ us.map mend, Spellable t := by
    intro t ht
    rcases List.mem_append.1 ht with ht | ht
    · exact hts t ht
    · obtain ⟨u, _, rfl⟩ := List.mem_map.1 ht
      exact spellable_mend u
  obtain ⟨source, hahead⟩ := exists_source hspellable
  exact ⟨source, us.map mend, hahead, ⟨ss⟩, hmended⟩

end SceneScript
