import SceneScript.Program.Depth
import SceneScript.Proofs.Parser.Yields

/-!
# Expressions are read as the grammar has them

If a rule for the expressions inside yields only sums of the grammar, well formed and not nested
too deep, then so does every rule that is made of it.  By induction on the levels this holds of the
parser that remembers nothing.
-/

namespace SceneScript.Parser

open Rule Grammar

/-! ## Literals -/

/-- What a number literal stands for has no sign and is finite. -/
theorem isUnsigned_of_number? {c d : Cursor} {x : Binary64} (h : c.number? = .ok (some (x, d))) :
    x.IsUnsigned := by
  simp only [Cursor.number?] at h
  split at h
  · cases h
  · split at h
    · cases h
    · split at h
      · rename_i hfinite
        cases h
        refine ⟨hfinite, ?_⟩
        unfold Numeral.value Decimal.toBinary64 Binary64.ofRatio
        dsimp only
        split <;> rfl
      · cases h

/-- A text does not hold the quote it was written with. -/
theorem isQuotable_of_text? {c d : Cursor} {text : String} (h : c.text? = .ok (some (text, d))) :
    IsQuotable text := by
  obtain ⟨quote, rest, _, hquote, hnot, _⟩ := Cursor.eq_of_text? h
  rintro ⟨hdouble, hsingle⟩
  rcases hquote with rfl | rfl
  · exact hnot hdouble
  · exact hnot hsingle

/-! ## Lists of expressions -/

/-- The rule yields expressions with so many levels at most, and none if that is zero. -/
structure Inside (levels : Nat) (inner : Rule Expr) : Prop where
  yields : Yields inner fun ts e => IsSum ts e ∧ e.WellFormed ∧ e.depth ≤ levels
  stays : Stays inner
  stops : levels = 0 → ∀ s, ∃ a, inner s = .aborted a

variable {levels : Nat} {inner : Rule Expr}

theorem stays_argument (h : Inside levels inner) : Stays (argument inner) := by
  intro s t hm
  rcases unmatched_bind hm with hm | ⟨arg, u, _, hm⟩
  · exact h.stays s t hm
  · rcases unmatched_bind hm with hm | ⟨_, _, _, hm⟩
    · exact absurd hm (optionally_ne_unmatched _ _ _)
    · cases hm

theorem yields_argument (h : Inside levels inner) : Yields (argument inner) fun ts e =>
    ∃ us sep, ts = us ++ sep ∧ IsSum us e ∧ IsSeparator sep ∧ e.WellFormed ∧ e.depth ≤ levels := by
  intro s v t hm
  obtain ⟨arg, u, harg, hm⟩ := matched_bind hm
  obtain ⟨_, w, hcomma, hm⟩ := matched_bind hm
  obtain ⟨rfl, rfl⟩ := matched_pure hm
  obtain ⟨us, hus, hsum, hwell, hdepth⟩ := h.yields _ _ _ harg
  obtain ⟨sep, hsep, hseparator⟩ := matched_optional_comma hcomma
  exact ⟨us ++ sep, hus.trans hsep, us, sep, rfl, hsum, hseparator, hwell, hdepth⟩

/-- At the last level not even an empty list of arguments is found. -/
theorem pos_of_matched_many {s t : State} {args : List Expr} (h : Inside levels inner)
    (hm : (argument inner).many s = .matched args t) : 0 < levels := by
  rcases Nat.eq_zero_or_pos levels with hzero | hpos
  · obtain ⟨a, ha⟩ := h.stops hzero s
    have habort : argument inner s = .aborted a := aborted_bind ha
    rw [Rule.many, habort] at hm
    cases hm
  · exact hpos

/-- Sums that are read one after the other, with or without commas, are arguments. -/
theorem arguments_of_listed {ts : List Token} {args : List Expr} (hpos : 0 < levels)
    (h : Listed (fun ts e => ∃ us sep, ts = us ++ sep ∧ IsSum us e ∧ IsSeparator sep ∧
      e.WellFormed ∧ e.depth ≤ levels) ts args) :
    IsArguments ts args ∧ Expr.AllWellFormed args ∧ Expr.argumentDepth args ≤ levels := by
  induction h with
  | nil => exact ⟨.nil, trivial, hpos⟩
  | cons hfirst _ ih =>
    obtain ⟨us, sep, rfl, hsum, hsep, hwell, hdepth⟩ := hfirst
    obtain ⟨hargs, hall, hdepths⟩ := ih
    refine ⟨?_, ⟨hwell, hall⟩, ?_⟩
    · rw [List.append_assoc]
      exact .cons hsum hsep hargs
    · simp only [Expr.argumentDepth, Expr.innerDepths, Expr.depth] at hdepth hdepths ⊢
      omega

theorem arguments_sound (h : Inside levels inner) : Yields (arguments inner) fun ts args =>
    ∃ us, ts = leftParen :: (us ++ [rightParen]) ∧ IsArguments us args ∧ Expr.AllWellFormed args ∧
      Expr.argumentDepth args ≤ levels := by
  intro s v t hm
  obtain ⟨_, u, hopen, hm⟩ := matched_bind hm
  obtain ⟨args, w, hmany, hm⟩ := matched_bind hm
  obtain ⟨_, x, hclose, hm⟩ := matched_bind hm
  obtain ⟨rfl, rfl⟩ := matched_pure hm
  obtain ⟨us, hus, hlist⟩ := Yields.many (yields_argument h) (stays_argument h) _ _ _ hmany
  have hopens := matched_dueSymbol Cursor.isSymbol_leftParen hopen
  have hcloses := matched_dueSymbol Cursor.isSymbol_rightParen hclose
  exact ⟨_, hopens.trans (hus.trans hcloses), us, rfl,
    arguments_of_listed (pos_of_matched_many h hmany) hlist⟩

/-- Three sums are read with commas between and the token behind that closes them. -/
theorem triple_sound (h : Inside levels inner) {close : String} {last : Token}
    (hclose : Cursor.IsSymbol close last) : Yields (triple inner close) fun ts parts =>
    ∃ xs ys zs, ts = xs ++ comma :: (ys ++ comma :: (zs ++ [last]))
      ∧ (IsSum xs parts.1 ∧ IsSum ys parts.2.1 ∧ IsSum zs parts.2.2)
      ∧ (parts.1.WellFormed ∧ parts.2.1.WellFormed ∧ parts.2.2.WellFormed)
      ∧ max parts.1.depth (max parts.2.1.depth parts.2.2.depth) ≤ levels := by
  intro s v t hm
  obtain ⟨first, s1, hfirst, hm⟩ := matched_bind hm
  obtain ⟨_, s2, hcomma, hm⟩ := matched_bind hm
  obtain ⟨second, s3, hsecond, hm⟩ := matched_bind hm
  obtain ⟨_, s4, hcomma', hm⟩ := matched_bind hm
  obtain ⟨third, s5, hthird, hm⟩ := matched_bind hm
  obtain ⟨_, s6, hlast, hm⟩ := matched_bind hm
  obtain ⟨rfl, rfl⟩ := matched_pure hm
  obtain ⟨xs, hxs, hx, hwx, hdx⟩ := h.yields _ _ _ hfirst
  obtain ⟨ys, hys, hy, hwy, hdy⟩ := h.yields _ _ _ hsecond
  obtain ⟨zs, hzs, hz, hwz, hdz⟩ := h.yields _ _ _ hthird
  have hc := matched_dueSymbol Cursor.isSymbol_comma hcomma
  have hc' := matched_dueSymbol Cursor.isSymbol_comma hcomma'
  have hl := matched_dueSymbol hclose hlast
  refine ⟨_, hxs.trans (hc.trans (hys.trans (hc'.trans (hzs.trans hl)))), xs, ys, zs, rfl,
    ⟨hx, hy, hz⟩, ⟨hwx, hwy, hwz⟩, ?_⟩
  show max first.depth (max second.depth third.depth) ≤ levels
  omega

/-! ## Values -/

/-- What a rule for values reads. -/
structure ReadsValue (levels : Nat) (ts : List Token) (e : Expr) : Prop where
  isValue : IsValue ts e
  wellFormed : e.WellFormed
  depth_le : e.innerDepth ≤ levels
  not_negated : ¬e.IsNegated
  not_binary : ¬e.IsBinary

theorem rgb_sound (h : Inside levels inner) : Yields (rgb inner) (ReadsValue levels) := by
  intro s v t hm
  obtain ⟨_, s1, hword, hm⟩ := matched_bind hm
  obtain ⟨_, s2, hopen, hm⟩ := matched_bind hm
  obtain ⟨⟨r, g, b⟩, s3, htriple, hm⟩ := matched_bind hm
  obtain ⟨rfl, rfl⟩ := matched_pure hm
  obtain ⟨_, hparts, rs, gs, bs, rfl, ⟨hr, hg, hb⟩, hwell, hdepth⟩ :=
    triple_sound h Cursor.isSymbol_rightParen _ _ _ htriple
  have hw := matched_keyword (by decide) hword
  have ho := matched_symbol Cursor.isSymbol_leftParen hopen
  refine ⟨_, hw.trans (ho.trans hparts), .rgb hr hg hb, hwell, ?_, id, id⟩
  simp only [Expr.innerDepth, Expr.depth] at hdepth ⊢
  omega

theorem vector_sound (h : Inside levels inner) : Yields (vector inner) (ReadsValue levels) := by
  intro s v t hm
  obtain ⟨_, s1, hopen, hm⟩ := matched_bind hm
  obtain ⟨⟨x, y, z⟩, s2, htriple, hm⟩ := matched_bind hm
  obtain ⟨rfl, rfl⟩ := matched_pure hm
  obtain ⟨_, hparts, xs, ys, zs, rfl, ⟨hx, hy, hz⟩, hwell, hdepth⟩ :=
    triple_sound h Cursor.isSymbol_rightAngle _ _ _ htriple
  have ho := matched_symbol Cursor.isSymbol_leftAngle hopen
  refine ⟨_, ho.trans hparts, .vector hx hy hz, hwell, ?_, id, id⟩
  simp only [Expr.innerDepth, Expr.depth] at hdepth ⊢
  omega

theorem texture_sound (h : Inside levels inner) : Yields (texture inner) (ReadsValue levels) := by
  intro s v t hm
  obtain ⟨_, s1, hword, hm⟩ := matched_bind hm
  obtain ⟨_, s2, hopen, hm⟩ := matched_bind hm
  obtain ⟨path, s3, hpath, hm⟩ := matched_bind hm
  obtain ⟨_, s4, hclose, hm⟩ := matched_bind hm
  obtain ⟨rfl, rfl⟩ := matched_pure hm
  obtain ⟨ts, hts, hsum, hwell, hdepth⟩ := h.yields _ _ _ hpath
  have hw := matched_keyword (by decide) hword
  have ho := matched_symbol Cursor.isSymbol_leftParen hopen
  have hc := matched_dueSymbol Cursor.isSymbol_rightParen hclose
  exact ⟨_, hw.trans (ho.trans (hts.trans hc)), .texture hsum, hwell, hdepth, id, id⟩

theorem paren_sound (h : Inside levels inner) : Yields (paren inner) (ReadsValue levels) := by
  intro s v t hm
  obtain ⟨_, s1, hopen, hm⟩ := matched_bind hm
  obtain ⟨content, s2, hcontent, hm⟩ := matched_bind hm
  obtain ⟨_, s3, hclose, hm⟩ := matched_bind hm
  obtain ⟨rfl, rfl⟩ := matched_pure hm
  obtain ⟨ts, hts, hsum, hwell, hdepth⟩ := h.yields _ _ _ hcontent
  have ho := matched_symbol Cursor.isSymbol_leftParen hopen
  have hc := matched_dueSymbol Cursor.isSymbol_rightParen hclose
  exact ⟨_, ho.trans (hts.trans hc), .paren hsum, hwell, hdepth, id, id⟩

theorem solid_sound (h : Inside levels inner) : Yields (solid inner) (ReadsValue levels) := by
  intro s v t hm
  obtain ⟨kind, s1, hword, hm⟩ := matched_bind hm
  obtain ⟨args, s2, hargs, hm⟩ := matched_bind hm
  obtain ⟨rfl, rfl⟩ := matched_pure hm
  obtain ⟨_, hw, rfl⟩ := yields_oneOf (fun kind _ => Cursor.isWord_solid kind) _ _ _ hword
  obtain ⟨_, hts, us, rfl, hisArgs, hwell, hdepth⟩ := arguments_sound h _ _ _ hargs
  have hvalue := IsValue.solid kind hisArgs
  rw [show word kind.text = Token.ofWord kind.text by cases kind <;> decide] at hvalue
  exact ⟨_, hw.trans hts, hvalue, hwell, hdepth, id, id⟩

/-- A name is read only where no color stands. -/
theorem identifier_sound {s s' t t' : State} {e : Expr} (hs : s.cursor.Settled)
    (hcursor : s'.cursor = s.cursor) (hcolor : color s = .unmatched t)
    (hm : identifier s' = .matched e t') :
    ∃ ts, s.cursor.Reads ts t'.cursor ∧ ReadsValue levels ts e := by
  obtain ⟨v, w, hname, hm⟩ := matched_bind hm
  obtain ⟨rfl, rfl⟩ := matched_pure hm
  rw [← hcursor] at hs ⊢
  obtain ⟨hreads, hisName, hvalid⟩ := matched_name_settled hs hname
  refine ⟨_, hreads, .identifier hisName, ⟨hvalid, ?_⟩, Nat.zero_le _, id, id⟩
  intro c hc
  have hword : s'.cursor.word? = some v := (reads_of_name? (matched_name hname)).2.2.2
  rw [hcursor] at hs hword
  rcases unmatched_bind hcolor with hcolor | ⟨_, _, _, hcolor⟩
  · exact word?_ne_of_unmatched_oneOf hs hcolor c c.mem_all (hc ▸ hword)
  · cases hcolor

theorem number_sound {s t : State} {e : Expr} (hs : s.cursor.Settled)
    (hm : number s = .matched e t) : ∃ ts, s.cursor.Reads ts t.cursor ∧ ReadsValue levels ts e := by
  obtain ⟨x, u, hx, hm⟩ := matched_bind hm
  obtain ⟨rfl, rfl⟩ := matched_pure hm
  have hscan := matched_literal hx
  exact ⟨_, Cursor.reads_of_next? ((Cursor.number?_eq_some_iff hs).1 hscan), .number x,
    isUnsigned_of_number? hscan, Nat.zero_le _, id, id⟩

theorem text_sound {s t : State} {e : Expr} (hs : s.cursor.Settled)
    (hm : text s = .matched e t) : ∃ ts, s.cursor.Reads ts t.cursor ∧ ReadsValue levels ts e := by
  obtain ⟨x, u, hx, hm⟩ := matched_bind hm
  obtain ⟨rfl, rfl⟩ := matched_pure hm
  have hscan := matched_literal hx
  exact ⟨_, Cursor.reads_of_next? ((Cursor.text?_eq_some_iff hs).1 hscan), .text x,
    isQuotable_of_text? hscan, Nat.zero_le _, id, id⟩

theorem color_sound : Yields color (ReadsValue levels) := by
  intro s e t hm
  obtain ⟨c, u, hc, hm⟩ := matched_bind hm
  obtain ⟨rfl, rfl⟩ := matched_pure hm
  obtain ⟨_, hreads, rfl⟩ := yields_oneOf (fun c _ => Cursor.isWord_color c) _ _ _ hc
  have hvalue := IsValue.color c
  rw [show word c.text = Token.ofWord c.text by cases c <;> decide] at hvalue
  exact ⟨_, hreads, hvalue, trivial, Nat.zero_le _, id, id⟩

/-- Whichever kind of value matches, it is one of the grammar. -/
theorem value_sound (h : Inside levels inner) : Yields (value inner) (ReadsValue levels) := by
  intro s e t hm
  have hs := Cursor.settled_afterTrivia s.cursor
  suffices hread : ∃ ts, s.cursor.afterTrivia.Reads ts t.cursor ∧ ReadsValue levels ts e by
    obtain ⟨ts, hts, hvalue⟩ := hread
    exact ⟨ts, Cursor.Reads.trans (Cursor.reads_afterTrivia s.cursor) hts, hvalue⟩
  rcases matched_orElse (matched_trivia_bind hm) with hm | ⟨u, _, hm⟩
  · exact number_sound hs hm
  rcases matched_orElse hm with hm | ⟨w, hcolor, hm⟩
  · exact color_sound _ _ _ hm
  obtain ⟨rule, hmem, w', hw, hm⟩ := matched_firstOf hm
  have hw : w'.cursor = s.cursor.afterTrivia := hw
  simp only [List.mem_cons, List.not_mem_nil, or_false] at hmem
  rcases hmem with rfl | rfl | rfl | rfl | rfl | rfl | rfl | rfl
  · exact hw ▸ rgb_sound h _ _ _ hm
  · exact hw ▸ vector_sound h _ _ _ hm
  · exact hw ▸ texture_sound h _ _ _ hm
  · exact hw ▸ paren_sound h _ _ _ hm
  · exact hw ▸ solid_sound h _ _ _ hm
  · exact hw ▸ text_sound (hw ▸ hs) hm
  · exact identifier_sound (s := u.moveTo s.cursor.afterTrivia) hs hw hcolor hm
  · cases hm

/-! ## Operators -/

/-- What a rule for values with perhaps a minus reads. -/
structure ReadsNegation (levels : Nat) (ts : List Token) (e : Expr) : Prop where
  isNegation : IsNegation ts e
  wellFormed : e.WellFormed
  depth_le : e.innerDepth ≤ levels
  not_binary : ¬e.IsBinary

theorem ReadsValue.readsNegation {ts : List Token} {e : Expr} (h : ReadsValue levels ts e) :
    ReadsNegation levels ts e :=
  ⟨.value h.isValue, h.wellFormed, h.depth_le, h.not_binary⟩

/-- A minus makes a negation of the value behind it, and without one the value stands for itself. -/
theorem signed_sound (h : Inside levels inner) : Yields (signed inner) (ReadsNegation levels) := by
  intro s e t hm
  have hm := matched_attempt.1 (matched_trivia_bind hm)
  split at hm
  · rename_i u hminus
    obtain ⟨v, w, hvalue, hm⟩ := matched_bind hm
    obtain ⟨rfl, rfl⟩ := matched_pure hm
    obtain ⟨ts, hts, hread⟩ := value_sound h _ _ _ hvalue
    have hminus := matched_symbol (s := s) Cursor.isSymbol_minus hminus
    exact ⟨_, hminus.trans hts, .minus hread.isValue,
      ⟨hread.wellFormed, hread.not_negated, hread.not_binary⟩, hread.depth_le, id⟩
  · rename_i u hmove
    obtain ⟨ts, hts, hread⟩ := value_sound h _ _ _ hm
    have hu : u.cursor = s.cursor.afterTrivia := by
      unfold move at hmove
      split at hmove <;> cases hmove
      rfl
    rw [hu] at hts
    exact ⟨ts, Cursor.Reads.trans (Cursor.reads_afterTrivia s.cursor) hts, hread.readsNegation⟩
  · cases hm

theorem yields_operator (operators : List Operator) : Yields (operator operators)
    fun ts op => ts = [operatorToken op] ∧ op ∈ operators := by
  intro s op t hm
  obtain ⟨rule, hmem, u, hu, hm⟩ := matched_firstOf (matched_trivia_bind hm)
  obtain ⟨op', hop, rfl⟩ := List.mem_map.1 hmem
  obtain ⟨_, w, hmove, hm⟩ := matched_bind hm
  obtain ⟨rfl, rfl⟩ := matched_pure hm
  have hs : u.cursor.Settled := hu ▸ Cursor.settled_afterTrivia s.cursor
  have hnext := (Cursor.afterSymbol?_eq_some_iff hs (Cursor.isSymbol_operator op')).1
    (matched_move hmove)
  rw [hu] at hnext
  exact ⟨_, Cursor.reads_of_next? (by rwa [← Cursor.next?_afterTrivia]), rfl, hop⟩

theorem yields_operation {operators : List Operator} {operand : Rule Expr}
    {Q : List Token → Expr → Prop} (h : Yields operand Q) :
    Yields (attempt (operation operators operand)) fun ts part =>
      ∃ us, ts = operatorToken part.1 :: us ∧ part.1 ∈ operators ∧ Q us part.2 := by
  intro s part t hm
  obtain ⟨op, u, hop, hm⟩ := matched_bind (matched_attempt.1 hm)
  obtain ⟨right, w, hright, hm⟩ := matched_bind hm
  obtain ⟨rfl, rfl⟩ := matched_pure hm
  obtain ⟨_, hreads, rfl, hmem⟩ := yields_operator operators _ _ _ hop
  obtain ⟨us, hus, hQ⟩ := h _ _ _ hright
  exact ⟨_, hreads.trans hus, us, rfl, hmem, hQ⟩

theorem stays_attempt {α : Type} {x : Rule α} : Stays (attempt x) := by
  intro s t hm
  obtain ⟨u, _, rfl⟩ := unmatched_attempt hm
  exact Cursor.Reads.refl s.cursor

/-- What holds of a first operand and goes from a left one over an operator holds of a chain. -/
theorem foldl_of_listed {operators : List Operator} {P Q : List Token → Expr → Prop}
    (hstep : ∀ op ∈ operators, ∀ ls left rs right, P ls left → Q rs right →
      P (ls ++ operatorToken op :: rs) (.binary left op right))
    {us : List Token} {more : List (Operator × Expr)}
    (hmore : Listed (fun ts part => ∃ us, ts = operatorToken part.1 :: us ∧ part.1 ∈ operators ∧
      Q us part.2) us more) {ts : List Token} {first : Expr} (hP : P ts first) :
    P (ts ++ us) (more.foldl (fun left (op, right) => .binary left op right) first) := by
  -- the chain so far is the left operand of what is still to come
  induction hmore generalizing ts first with
  | nil => simpa using hP
  | cons hpart _ ih =>
    obtain ⟨rs, rfl, hmem, hright⟩ := hpart
    simpa using ih (hstep _ hmem _ _ _ _ hP hright)

/-- Operators of one level are taken from the left, one operand after the other. -/
theorem chain_sound {operators : List Operator} {operand : Rule Expr}
    {P Q : List Token → Expr → Prop} (h : Yields operand Q) (hfirst : ∀ ts e, Q ts e → P ts e)
    (hstep : ∀ op ∈ operators, ∀ ls left rs right, P ls left → Q rs right →
      P (ls ++ operatorToken op :: rs) (.binary left op right)) :
    Yields (chain operators operand) P := by
  intro s e t hm
  obtain ⟨first, u, hoperand, hm⟩ := matched_bind hm
  obtain ⟨more, w, hmany, hm⟩ := matched_bind hm
  obtain ⟨rfl, rfl⟩ := matched_pure hm
  obtain ⟨ts, hts, hQ⟩ := h _ _ _ hoperand
  obtain ⟨us, hus, hlist⟩ := Yields.many (yields_operation h) stays_attempt _ _ _ hmany
  exact ⟨ts ++ us, hts.trans hus, foldl_of_listed hstep hlist (hfirst ts first hQ)⟩

/-- What a rule for products reads. -/
structure ReadsProduct (levels : Nat) (ts : List Token) (e : Expr) : Prop where
  isProduct : IsProduct ts e
  wellFormed : e.WellFormed
  depth_le : e.innerDepth ≤ levels
  not_sum : ¬e.IsSum

/-- What a rule for sums reads. -/
structure ReadsSum (levels : Nat) (ts : List Token) (e : Expr) : Prop where
  isSum : IsSum ts e
  wellFormed : e.WellFormed
  depth_le : e.innerDepth ≤ levels

theorem product_sound (h : Inside levels inner) : Yields (product inner) (ReadsProduct levels) := by
  refine chain_sound (signed_sound h) ?first ?step
  case first =>
    intro ts e he
    refine ⟨.factor he.isNegation, he.wellFormed, he.depth_le, ?_⟩
    intro hsum
    cases e <;> first | exact hsum | exact he.not_binary trivial
  case step =>
    intro op hop ls left rs right hl hr
    have hprec : op.precedence = 3 := by revert op; decide
    refine ⟨.times op hprec hl.isProduct hr.isNegation,
      ⟨hl.wellFormed, hr.wellFormed, .inr ⟨hprec, hl.not_sum, hr.not_binary⟩⟩, ?_, ?_⟩
    · have hdl := hl.depth_le
      have hdr := hr.depth_le
      rw [Expr.innerDepth]
      omega
    · intro hsum
      have htwo : op.precedence = 2 := hsum
      omega

theorem sum_sound (h : Inside levels inner) : Yields (sum inner) (ReadsSum levels) := by
  refine chain_sound (product_sound h) ?first ?step
  case first =>
    intro ts e he
    exact ⟨.term he.isProduct, he.wellFormed, he.depth_le⟩
  case step =>
    intro op hop ls left rs right hl hr
    have hprec : op.precedence = 2 := by revert op; decide
    refine ⟨.plus op hprec hl.isSum hr.isProduct,
      ⟨hl.wellFormed, hr.wellFormed, .inl ⟨hprec, hr.not_sum⟩⟩, ?_⟩
    have hdl := hl.depth_le
    have hdr := hr.depth_le
    rw [Expr.innerDepth]
    omega

/-! ## All expressions -/

/-- A chain fails only where its first operand does. -/
theorem operand_of_unmatched_chain {operators : List Operator} {operand : Rule Expr} {s t : State}
    (hm : chain operators operand s = .unmatched t) : operand s = .unmatched t := by
  rcases unmatched_bind hm with hm | ⟨_, u, _, hm⟩
  · exact hm
  · rcases unmatched_bind hm with hm | ⟨_, _, _, hm⟩
    · exact absurd hm (many_ne_unmatched _ _ _)
    · cases hm

/-- Where a sum does not match, only trivia is passed. -/
theorem cursor_of_unmatched_sum {s t : State} (hm : sum inner s = .unmatched t) :
    t.cursor = s.cursor.afterTrivia := by
  have hsigned := operand_of_unmatched_chain (operand_of_unmatched_chain hm)
  obtain ⟨u, _, rfl⟩ := unmatched_attempt (unmatched_trivia_bind hsigned)
  rfl

/-- The rule for expressions of the parser that remembers nothing. -/
theorem inside_level (levels : Nat) : Inside levels (level .nothing levels).expression := by
  induction levels with
  | zero =>
    refine ⟨?_, ?_, ?_⟩
    · intro s v t hm
      cases hm
    · intro s t hm
      cases hm
    · intro _ s
      exact ⟨_, rfl⟩
  | succ levels ih =>
    refine ⟨?_, ?_, fun h => absurd h (Nat.succ_ne_zero levels)⟩
    · refine Yields.afterTrivia ((sum_sound ih).mono fun ts e he => ?_)
      have hdepth := he.depth_le
      refine ⟨he.isSum, he.wellFormed, ?_⟩
      rw [Expr.depth]
      omega
    · intro s t hm
      have hsum := cursor_of_unmatched_sum (unmatched_trivia_bind hm)
      rw [State.cursor_moveTo, Cursor.afterTrivia_afterTrivia] at hsum
      rw [hsum]
      exact Cursor.reads_afterTrivia s.cursor

end SceneScript.Parser
