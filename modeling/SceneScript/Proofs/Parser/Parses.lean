import SceneScript.Proofs.Parser.Yields

/-!
# What a rule does with the tokens ahead

`Parses D x P Q` says that the rule `x` matches wherever `P` holds of the cursor, and that `Q` holds
of the value and of the tokens that are then ahead.  `Fails D x P` says that it does not match there.
If `D` holds, the rule may also end the parse because the nesting is too deep; if not, it may not.
So one lemma about a rule serves where the depth is known and where it is not.
-/

namespace SceneScript

/-! ## The word that tokens start with -/

/-- The word that a token is. -/
def Token.word? : Token → Option String
  | .identifier name => some name
  | .keyword word => some word
  | _ => none

@[simp] theorem Token.word?_ofWord (word : String) : (Token.ofWord word).word? = some word := by
  rcases Token.ofWord_eq word with h | h <;> rw [h] <;> rfl

/-- A sign is no word. -/
theorem Token.word?_of_ofChar? {c : Char} {t : Token} (h : Token.ofChar? c = some t) :
    t.word? = none := by
  rcases Token.eq_of_ofChar? h with h | h <;> rw [h] <;> rfl

/-- The word of a name's token is the name. -/
theorem Grammar.IsName.word? {t : Token} {name : String} (h : Grammar.IsName t name) :
    t.word? = some name := by
  cases h <;> rfl

theorem Grammar.IsName.not_reserved {t : Token} {name : String} (h : Grammar.IsName t name) :
    isReserved name = false := by
  cases h <;> assumption

theorem Token.ne_of_word? {t u : Token} {word : String} (ht : t.word? = some word)
    (hu : u.word? = none) : t ≠ u := by
  rintro rfl
  rw [hu] at ht
  cases ht

/-- Where a word stands first, no token of another kind does. -/
theorem head?_ne_of_word? {t u : Token} {word : String} (ht : t.word? = some word)
    (hu : u.word? = none) (ts : List Token) : (t :: ts).head? ≠ some u :=
  fun heq => Token.ne_of_word? ht hu (Option.some.inj heq)

/-- The word that stands first, if it is a word that does. -/
def leadingWord (ts : List Token) : Option String := ts.head?.bind Token.word?

@[simp] theorem leadingWord_cons (t : Token) (ts : List Token) :
    leadingWord (t :: ts) = t.word? := rfl

/-- Tokens that begin with no word begin with no keyword. -/
theorem leadingWord_ne {t : Token} (h : t.word? = none) (ts : List Token) (word : String) :
    leadingWord (t :: ts) ≠ some word := by
  rw [leadingWord_cons, h]
  nofun

namespace Cursor

/-- Which token a word is depends on the word alone. -/
theorem eq_ofWord_of_next? {c d : Cursor} {t : Token} {word : String}
    (h : c.next? = some (t, d)) (ht : t.word? = some word) : t = Token.ofWord word := by
  rw [← next?_afterTrivia, next?_eq_some_iff (settled_afterTrivia c)] at h
  obtain ⟨text, rfl, _⟩ | ⟨x, rfl, _⟩ | ⟨other, rfl, _⟩ | ⟨x, rest, _, hx, _⟩ := token?_cases h
  · cases ht
  · cases ht
  · rw [Token.word?_ofWord] at ht
    rw [Option.some.inj ht]
  · rw [Token.word?_of_ofChar? hx] at ht
    cases ht

/-- The word that comes next is the word of the next token. -/
theorem word?_of_next? {c d : Cursor} {t : Token} {word : String} (hc : c.Settled)
    (h : c.next? = some (t, d)) (ht : t.word? = some word) : c.word? = some word := by
  rw [eq_ofWord_of_next? h ht] at h
  rw [word?_eq_some_iff hc, h, eq_afterWord_of_next? hc h]

/-- The tokens are ahead, perhaps behind trivia. -/
def Facing (ts : List Token) (c : Cursor) : Prop := c.Ahead ts

/-- The tokens are ahead and no trivia is before them. -/
def AtTokens (ts : List Token) (c : Cursor) : Prop := c.Settled ∧ c.Ahead ts

theorem AtTokens.facing {ts : List Token} {c : Cursor} (h : c.AtTokens ts) : c.Facing ts := h.2

/-- Behind blanks and comments the tokens stand right there. -/
theorem Facing.atTokens_afterTrivia {ts : List Token} {c : Cursor} (h : c.Facing ts) :
    c.afterTrivia.AtTokens ts := ⟨settled_afterTrivia c, ahead_afterTrivia.2 h⟩

theorem Ahead.next? {c : Cursor} {t : Token} {ts : List Token} (h : c.Ahead (t :: ts)) :
    ∃ d, c.next? = some (t, d) ∧ d.Ahead ts := h

/-- The token that comes next is the first of those ahead. -/
theorem Ahead.of_next? {c d : Cursor} {t : Token} {ts : List Token} (h : c.Ahead ts)
    (hd : c.next? = some (t, d)) : ∃ us, ts = t :: us ∧ d.Ahead us := by
  cases ts with
  | nil =>
    rw [next?_eq_none_of_isEnd h] at hd
    cases hd
  | cons u us =>
    obtain ⟨e, he, hus⟩ := h.next?
    rw [he] at hd
    obtain ⟨rfl, rfl⟩ := Prod.mk.inj (Option.some.inj hd)
    exact ⟨us, rfl, hus⟩

end Cursor

namespace Parser

open Cursor

variable {α β : Type} {D : Prop}

namespace Rule

/-- The rule ends the parse because the nesting is too deep. -/
def Deep (x : Rule α) (s : State) : Prop := ∃ c, x s = .aborted (.tooDeep c)

/-- Where the first holds of the cursor the rule matches, and the second holds of the value and the
tokens behind the match. -/
def Parses (D : Prop) (x : Rule α) (P : Cursor → Prop) (Q : α → List Token → Prop) : Prop :=
  ∀ s, P s.cursor →
    (∃ v t us, x s = .matched v t ∧ t.cursor.Ahead us ∧ Q v us) ∨ (D ∧ x.Deep s)

/-- Where this holds of the cursor the rule does not match. -/
def Fails (D : Prop) (x : Rule α) (P : Cursor → Prop) : Prop :=
  ∀ s, P s.cursor → (∃ t, x s = .unmatched t) ∨ (D ∧ x.Deep s)

variable {x y : Rule α} {P P' : Cursor → Prop} {Q Q' : α → List Token → Prop} {ts : List Token}

/-! ## Sequence and choice -/

/-- Less may be said of what is read. -/
theorem Parses.mono (h : Parses D x P Q) (hQ : ∀ v us, Q v us → Q' v us) : Parses D x P Q' := by
  intro s hs
  rcases h s hs with ⟨v, t, us, hm, hus, hv⟩ | hdeep
  · exact .inl ⟨v, t, us, hm, hus, hQ v us hv⟩
  · exact .inr hdeep

/-- What is made of one part is known where the part is. -/
theorem Parses.of_part {make : β → α} {part : β}
    (h : Parses D x P fun v us => (∃ b, v = make b ∧ b = part) ∧ us = ts) :
    Parses D x P fun v us => v = make part ∧ us = ts := by
  refine h.mono ?_
  rintro v us ⟨⟨_, rfl, rfl⟩, hus⟩
  exact ⟨rfl, hus⟩

/-- What is made of two parts is known where both are. -/
theorem Parses.of_parts {γ : Type} {make : β → γ → α} {first : β} {second : γ}
    (h : Parses D x P fun v us => (∃ b c, v = make b c ∧ b = first ∧ c = second) ∧ us = ts) :
    Parses D x P fun v us => v = make first second ∧ us = ts := by
  refine h.mono ?_
  rintro v us ⟨⟨_, _, rfl, rfl, rfl⟩, hus⟩
  exact ⟨rfl, hus⟩

/-- What is made of three parts is known where all of them are. -/
theorem Parses.of_triple {γ δ : Type} {make : β → γ → δ → α} {first : β} {second : γ} {third : δ}
    (h : Parses D x P fun v us =>
      (∃ b c d, v = make b c d ∧ b = first ∧ c = second ∧ d = third) ∧ us = ts) :
    Parses D x P fun v us => v = make first second third ∧ us = ts := by
  refine h.mono ?_
  rintro v us ⟨⟨_, _, _, rfl, rfl, rfl, rfl⟩, hus⟩
  exact ⟨rfl, hus⟩

/-- A rule reads from fewer places, too. -/
theorem Parses.weaken (h : Parses D x P Q) (hP : ∀ c, P' c → P c) : Parses D x P' Q :=
  fun s hs => h s (hP _ hs)

theorem Fails.weaken (h : Fails D x P) (hP : ∀ c, P' c → P c) : Fails D x P' :=
  fun s hs => h s (hP _ hs)

/-- A rule that skips blanks reads where there are none to skip. -/
theorem Parses.settled (h : Parses D x (Facing ts) Q) : Parses D x (AtTokens ts) Q :=
  h.weaken fun _ hc => hc.facing

theorem Fails.settled (h : Fails D x (Facing ts)) : Fails D x (AtTokens ts) :=
  h.weaken fun _ hc => hc.facing

theorem parses_pure {v : α} (h : Q v ts) : Parses D (pure v) (Facing ts) Q :=
  fun s hs => .inl ⟨v, s, ts, rfl, hs, h⟩

theorem bind_of_matched {f : α → Rule β} {s t : State} {v : α} (h : x s = .matched v t) :
    (x >>= f) s = f v t := by
  show andThen x f s = f v t
  unfold andThen
  rw [h]

theorem bind_of_unmatched {f : α → Rule β} {s t : State} (h : x s = .unmatched t) :
    (x >>= f) s = .unmatched t := by
  show andThen x f s = .unmatched t
  unfold andThen
  rw [h]

/-- What is too deep for its first part is too deep. -/
theorem Deep.bind {f : α → Rule β} {s : State} (h : x.Deep s) : (x >>= f).Deep s := by
  obtain ⟨c, h⟩ := h
  exact ⟨c, aborted_bind h⟩

/-- A rule and the rule that depends on its result read one behind the other. -/
theorem Parses.bind {f : α → Rule β} {R : β → List Token → Prop} (h : Parses D x P Q)
    (k : ∀ v us, Q v us → Parses D (f v) (Facing us) R) : Parses D (x >>= f) P R := by
  intro s hs
  rcases h s hs with ⟨v, t, us, hm, hus, hv⟩ | ⟨hD, hdeep⟩
  · have hf := k v us hv t hus
    unfold Deep
    rw [bind_of_matched hm]
    exact hf
  · exact .inr ⟨hD, hdeep.bind⟩

/-- Without its first part the whole is not there. -/
theorem Fails.bind {f : α → Rule β} (h : Fails D x P) : Fails D (x >>= f) P := by
  intro s hs
  rcases h s hs with ⟨t, hm⟩ | ⟨hD, hdeep⟩
  · exact .inl ⟨t, bind_of_unmatched hm⟩
  · exact .inr ⟨hD, hdeep.bind⟩

/-- The second part of a sequence does not match. -/
theorem Parses.bind_fails {f : α → Rule β} (h : Parses D x P Q)
    (k : ∀ v us, Q v us → Fails D (f v) (Facing us)) : Fails D (x >>= f) P := by
  intro s hs
  rcases h s hs with ⟨v, t, us, hm, hus, hv⟩ | ⟨hD, hdeep⟩
  · have hf := k v us hv t hus
    unfold Deep
    rw [bind_of_matched hm]
    exact hf
  · exact .inr ⟨hD, hdeep.bind⟩

/-- Rules behind trivia. -/
theorem Parses.behind {f : Unit → Rule α} (h : Parses D (f ()) (AtTokens ts) Q) :
    Parses D (trivia >>= f) (Facing ts) Q :=
  fun s hs => h (s.moveTo s.cursor.afterTrivia) (Facing.atTokens_afterTrivia hs)

theorem Fails.behind {f : Unit → Rule α} (h : Fails D (f ()) (AtTokens ts)) :
    Fails D (trivia >>= f) (Facing ts) :=
  fun s hs => h (s.moveTo s.cursor.afterTrivia) (Facing.atTokens_afterTrivia hs)

theorem Deep.orElse {s : State} (h : x.Deep s) : (x.orElse y).Deep s := by
  obtain ⟨c, h⟩ := h
  exact ⟨c, orElse_of_aborted h⟩

/-- The first of two rules is taken if it reads. -/
theorem Parses.orElse (h : Parses D x P Q) : Parses D (x.orElse y) P Q := by
  intro s hs
  rcases h s hs with ⟨v, t, us, hm, hv⟩ | ⟨hD, hdeep⟩
  · exact .inl ⟨v, t, us, orElse_of_matched hm, hv⟩
  · exact .inr ⟨hD, hdeep.orElse⟩

/-- The second of two rules is taken if the first one does not read. -/
theorem Fails.orElse_parses (h : Fails D x P) (k : Parses D y P Q) :
    Parses D (x.orElse y) P Q := by
  intro s hs
  rcases h s hs with ⟨t, hm⟩ | ⟨hD, hdeep⟩
  · unfold Deep
    rw [orElse_of_unmatched hm]
    exact k (t.moveTo s.cursor) hs
  · exact .inr ⟨hD, hdeep.orElse⟩

/-- A choice fails if both of its rules do. -/
theorem Fails.orElse (h : Fails D x P) (k : Fails D y P) : Fails D (x.orElse y) P := by
  intro s hs
  rcases h s hs with ⟨t, hm⟩ | ⟨hD, hdeep⟩
  · unfold Deep
    rw [orElse_of_unmatched hm]
    exact k (t.moveTo s.cursor) hs
  · exact .inr ⟨hD, hdeep.orElse⟩

theorem fails_unmet {e : Expectation} : Fails D (unmet e : Rule α) P :=
  fun s _ => .inl ⟨s.expect e, rfl⟩

/-- A choice fails if all of its rules do. -/
theorem fails_firstOf {rules : List (Rule α)} (h : ∀ rule ∈ rules, Fails D rule P) :
    Fails D (firstOf rules) P := by
  induction rules with
  | nil => exact fun s _ => .inl ⟨s, rfl⟩
  | cons rule rules ih =>
    exact (h rule (List.mem_cons_self ..)).orElse
      (ih fun other hmem => h other (List.mem_cons_of_mem _ hmem))

theorem Parses.attempt (h : Parses D x P Q) : Parses D (attempt x) P Q := by
  intro s hs
  rcases h s hs with ⟨v, t, us, hm, hv⟩ | ⟨hD, c, hdeep⟩
  · exact .inl ⟨v, t, us, matched_attempt.2 hm, hv⟩
  · refine .inr ⟨hD, c, ?_⟩
    unfold Rule.attempt
    rw [hdeep]

theorem Fails.attempt (h : Fails D x P) : Fails D (attempt x) P := by
  intro s hs
  rcases h s hs with ⟨t, hm⟩ | ⟨hD, c, hdeep⟩
  · refine .inl ⟨t.moveTo s.cursor, ?_⟩
    unfold Rule.attempt
    rw [hm]
  · refine .inr ⟨hD, c, ?_⟩
    unfold Rule.attempt
    rw [hdeep]

/-! ## Repetition -/

/-- A match of the rule shortens the text. -/
def Advances (x : Rule α) : Prop :=
  ∀ s v t, x s = .matched v t → t.cursor.rest.length < s.cursor.rest.length

/-- A rule that reads some token gets on. -/
theorem Yields.advances {R : List Token → α → Prop} (h : Yields x R)
    (hne : ∀ ts v, R ts v → ts ≠ []) : Advances x := by
  intro s v t hm
  obtain ⟨ts, hts, hR⟩ := h s v t hm
  exact hts.length_rest_lt (hne ts v hR)

/-- Where the rule does not match, it is repeated no times. -/
theorem Fails.many (h : Fails D x (Facing ts)) (hstays : Stays x) :
    Parses D x.many (Facing ts) fun vs us => vs = [] ∧ us = ts := by
  intro s hs
  rcases h s hs with ⟨t, hm⟩ | ⟨hD, c, hdeep⟩
  · have hahead : t.cursor.Ahead ts := (ahead_congr (hstays s t hm).2).1 hs
    refine .inl ⟨[], t, ts, ?_, hahead, rfl, rfl⟩
    rw [Rule.many, hm]
  · refine .inr ⟨hD, c, ?_⟩
    rw [Rule.many, hdeep]

/-- After a match the rule is repeated. -/
theorem Parses.many {R : List α → List Token → Prop} (hx : Advances x) (h : Parses D x P Q)
    (k : ∀ v us, Q v us → Parses D x.many (Facing us) fun vs us => R (v :: vs) us) :
    Parses D x.many P R := by
  intro s hs
  rcases h s hs with ⟨v, t, us, hm, hus, hv⟩ | ⟨hD, c, hdeep⟩
  · have hlt := hx s v t hm
    have hmany : x.many s = (x.many t).map (v :: ·) := by
      rw [Rule.many, hm]
      exact if_pos hlt
    rcases k v us hv t hus with ⟨vs, w, rs, hrest, hrs, hR⟩ | ⟨hD, c, hdeep⟩
    · refine .inl ⟨v :: vs, w, rs, ?_, hrs, hR⟩
      rw [hmany, hrest]
      rfl
    · refine .inr ⟨hD, c, ?_⟩
      rw [hmany, hdeep]
      rfl
  · refine .inr ⟨hD, c, ?_⟩
    rw [Rule.many, hdeep]

/-! ## Movements over a token -/

/-- A step over a token is done if the token stands there. -/
theorem parses_move {f : Cursor → Option Cursor} {t : Token}
    (hf : ∀ c d, c.AtTokens (t :: ts) → c.next? = some (t, d) → f c = some d) :
    Parses D (move f) (AtTokens (t :: ts)) fun _ us => us = ts := by
  intro s hs
  obtain ⟨d, hd, hrest⟩ := hs.2.next?
  refine .inl ⟨(), s.moveTo d, ts, ?_, hrest, rfl⟩
  unfold move
  rw [hf s.cursor d hs hd]

/-- A step over a token is not done if there is none to step over. -/
theorem fails_move {f : Cursor → Option Cursor}
    (hf : ∀ c d, c.AtTokens ts → f c ≠ some d) : Fails D (move f) (AtTokens ts) := by
  intro s hs
  refine .inl ⟨s, ?_⟩
  unfold move
  split
  · rename_i d hd
    exact absurd hd (hf s.cursor d hs)
  · rfl

theorem parses_move_symbol {symbol : String} {t : Token} (hsym : IsSymbol symbol t) :
    Parses D (move (afterSymbol? symbol)) (AtTokens (t :: ts)) fun _ us => us = ts :=
  parses_move fun _ _ hc hd => (afterSymbol?_eq_some_iff hc.1 hsym).2 hd

theorem fails_move_symbol {symbol : String} {t : Token} (hsym : IsSymbol symbol t)
    (hne : ts.head? ≠ some t) : Fails D (move (afterSymbol? symbol)) (AtTokens ts) := by
  refine fails_move fun c d hc hd => ?_
  obtain ⟨us, rfl, _⟩ := hc.2.of_next? ((afterSymbol?_eq_some_iff hc.1 hsym).1 hd)
  exact hne rfl

/-- A movement that does not apply leaves all as it is. -/
theorem move_unmatched {symbol : String} {t : Token} {s : State} (hsym : IsSymbol symbol t)
    (hne : ts.head? ≠ some t) (hs : AtTokens ts s.cursor) :
    move (afterSymbol? symbol) s = .unmatched s := by
  rcases fails_move_symbol (D := False) hsym hne s hs with ⟨u, hu⟩ | ⟨hD, _⟩
  · unfold move at hu ⊢
    split at hu
    · cases hu
    · rfl
  · exact hD.elim

theorem parses_move_keyword {word : String} {t : Token} (hw : IsWord word)
    (ht : t.word? = some word) :
    Parses D (move (afterKeyword? word)) (AtTokens (t :: ts)) fun _ us => us = ts := by
  refine parses_move fun c d hc hd => (afterKeyword?_eq_some_iff hc.1 hw).2 ?_
  rw [← eq_ofWord_of_next? hd ht]
  exact hd

theorem fails_move_keyword {word : String} (hw : IsWord word) (hne : leadingWord ts ≠ some word) :
    Fails D (move (afterKeyword? word)) (AtTokens ts) := by
  refine fails_move fun c d hc hd => ?_
  obtain ⟨us, rfl, _⟩ := hc.2.of_next? ((afterKeyword?_eq_some_iff hc.1 hw).1 hd)
  exact hne (Token.word?_ofWord word)

/-! ## Tokens -/

/-- A symbol is read where its token stands. -/
theorem parses_symbol {symbol : String} {t : Token} (hsym : IsSymbol symbol t) :
    Parses D (Rule.symbol symbol) (Facing (t :: ts)) fun _ us => us = ts :=
  (parses_move_symbol hsym).behind

/-- A symbol is not read where another token stands. -/
theorem fails_symbol {symbol : String} {t : Token} (hsym : IsSymbol symbol t)
    (hne : ts.head? ≠ some t) : Fails D (Rule.symbol symbol) (Facing ts) :=
  (fails_move_symbol hsym hne).behind

theorem parses_dueSymbol {symbol : String} {t : Token} (hsym : IsSymbol symbol t) :
    Parses D (dueSymbol symbol) (Facing (t :: ts)) fun _ us => us = ts :=
  (parses_move_symbol hsym).orElse.behind

theorem fails_dueSymbol {symbol : String} {t : Token} (hsym : IsSymbol symbol t)
    (hne : ts.head? ≠ some t) : Fails D (dueSymbol symbol) (Facing ts) :=
  ((fails_move_symbol hsym hne).orElse fails_unmet).behind

/-- A keyword is read where its word stands. -/
theorem parses_keyword {word : String} {t : Token} (hw : IsWord word) (ht : t.word? = some word) :
    Parses D (Rule.keyword word) (Facing (t :: ts)) fun _ us => us = ts :=
  (parses_move_keyword hw ht).behind

/-- A keyword is not read where another word stands, or none. -/
theorem fails_keyword {word : String} (hw : IsWord word) (hne : leadingWord ts ≠ some word) :
    Fails D (Rule.keyword word) (Facing ts) :=
  (fails_move_keyword hw hne).behind

/-- A word is followed by what the rest of a rule does not match. -/
theorem fails_behind_word {word : String} {t : Token} {y : Rule β} (hw : IsWord word)
    (h : Fails D y (Facing ts)) :
    Fails D (do Rule.keyword word; y) (Facing (t :: ts)) := by
  by_cases ht : t.word? = some word
  · refine (parses_keyword hw ht).bind_fails fun _ us hus => ?_
    rw [hus]
    exact h
  · have hne : leadingWord (t :: ts) ≠ some word := ht
    exact (fails_keyword hw hne).bind

theorem parses_dueKeyword {word : String} {t : Token} (hw : IsWord word)
    (ht : t.word? = some word) :
    Parses D (dueKeyword word) (Facing (t :: ts)) fun _ us => us = ts :=
  (parses_move_keyword hw ht).orElse.behind

theorem fails_dueKeyword {word : String} (hw : IsWord word) (hne : leadingWord ts ≠ some word) :
    Fails D (dueKeyword word) (Facing ts) :=
  ((fails_move_keyword hw hne).orElse fails_unmet).behind

theorem parses_opening {word : String} {t : Token} (hw : IsWord word) (ht : t.word? = some word) :
    Parses D (opening word) (Facing (t :: ts)) fun _ us => us = ts := by
  refine Parses.behind fun s hs => ?_
  exact (parses_move_keyword hw ht).bind (fun _ us hus => parses_pure (v := s.cursor) hus) s hs

theorem fails_opening {word : String} (hw : IsWord word) (hne : leadingWord ts ≠ some word) :
    Fails D (opening word) (Facing ts) := by
  refine Fails.behind fun s hs => ?_
  exact (fails_move_keyword hw hne).bind s hs

/-- A block is closed where its `end` stands. -/
theorem parses_closing {word : String} {opened : Cursor} {t : Token} (ht : t.word? = some "end") :
    Parses D (closing word opened) (Facing (t :: ts)) fun _ us => us = ts :=
  (parses_move_keyword (by decide) ht).orElse.behind

theorem fails_closing {word : String} {opened : Cursor} (hne : leadingWord ts ≠ some "end") :
    Fails D (closing word opened) (Facing ts) :=
  ((fails_move_keyword (by decide) hne).orElse fun _ _ => .inl ⟨_, rfl⟩).behind

/-- A comma that may be left out. -/
theorem parses_comma : Parses D (optionally (Rule.symbol ",")) (Facing (Grammar.comma :: ts))
    fun _ us => us = ts := by
  intro s hs
  rcases parses_symbol (D := False) isSymbol_comma s hs with ⟨v, t, us, hm, hus⟩ | ⟨hfalse, _⟩
  · refine .inl ⟨v, t, us, ?_, hus⟩
    unfold optionally
    rw [hm]
  · exact hfalse.elim

/-- A comma may be left out. -/
theorem parses_no_comma (hne : ts.head? ≠ some Grammar.comma) :
    Parses D (optionally (Rule.symbol ",")) (Facing ts) fun _ us => us = ts := by
  intro s hs
  have hstay : Rule.symbol "," s = .unmatched (s.moveTo s.cursor.afterTrivia) :=
    move_unmatched isSymbol_comma hne (Facing.atTokens_afterTrivia hs)
  refine .inl ⟨(), s.moveTo s.cursor.afterTrivia, ts, ?_, ahead_afterTrivia.2 hs, rfl⟩
  unfold optionally
  rw [hstay]

/-! ## Choices and names -/

/-- None of some words is read where none of them stands. -/
theorem fails_oneOf {choices : List α} {word : α → String}
    (hw : ∀ choice, IsWord (word choice))
    (hne : ∀ choice ∈ choices, leadingWord ts ≠ some (word choice)) :
    Fails D (oneOf choices word) (Facing ts) := by
  refine fails_firstOf fun rule hmem => ?_
  obtain ⟨choice, hc, rfl⟩ := List.mem_map.1 hmem
  exact (fails_keyword (hw choice) (hne choice hc)).bind

/-- Of words that differ the one that stands there is found. -/
theorem parses_oneOf {choices : List α} {word : α → String} {choice : α} {t : Token}
    (hw : ∀ choice, IsWord (word choice)) (hinj : ∀ a b, word a = word b → a = b)
    (hmem : choice ∈ choices) (ht : t.word? = some (word choice)) :
    Parses D (oneOf choices word) (Facing (t :: ts)) fun v us => v = choice ∧ us = ts := by
  induction choices with
  | nil => cases hmem
  | cons first more ih =>
    by_cases hfirst : choice = first
    · rw [← hfirst]
      exact ((parses_keyword (hw choice) ht).bind fun _ us hus => parses_pure ⟨rfl, hus⟩).orElse
    · have hne : leadingWord (t :: ts) ≠ some (word first) := by
        rw [leadingWord_cons, ht]
        intro heq
        exact hfirst (hinj _ _ (Option.some.inj heq))
      have hmore := ih ((List.mem_cons.1 hmem).resolve_left hfirst)
      exact (fails_keyword (hw first) hne).bind.orElse_parses hmore

/-- An operator is read where its token stands, if it is one of those that may. -/
theorem parses_operator {operators : List Operator} {op : Operator} (hmem : op ∈ operators) :
    Parses D (operator operators) (Facing (Grammar.operatorToken op :: ts))
      fun v us => v = op ∧ us = ts := by
  refine Parses.behind ?_
  induction operators with
  | nil => cases hmem
  | cons first more ih =>
    by_cases hfirst : op = first
    · rw [← hfirst]
      exact ((parses_move_symbol (isSymbol_operator op)).bind
        fun _ us hus => parses_pure ⟨rfl, hus⟩).orElse
    · have hne : (Grammar.operatorToken op :: ts).head? ≠ some (Grammar.operatorToken first) := by
        cases op <;> cases first <;> first | exact absurd rfl hfirst | simp [Grammar.operatorToken]
      have hmore := ih ((List.mem_cons.1 hmem).resolve_left hfirst)
      exact (fails_move_symbol (isSymbol_operator first) hne).bind.orElse_parses hmore

/-- No operator is read where none of those that may stands. -/
theorem fails_operator {operators : List Operator}
    (hne : ∀ op ∈ operators, ts.head? ≠ some (Grammar.operatorToken op)) :
    Fails D (operator operators) (Facing ts) := by
  refine Fails.behind (fails_firstOf fun rule hmem => ?_)
  obtain ⟨op, hop, rfl⟩ := List.mem_map.1 hmem
  exact (fails_move_symbol (isSymbol_operator op) (hne op hop)).bind

/-- A name is read where a word stands that may be one. -/
theorem parses_name {t : Token} {word : String} (h : Grammar.IsName t word) :
    Parses D name (AtTokens (t :: ts)) fun v us => v = word ∧ us = ts := by
  intro s hs
  obtain ⟨d, hd, hrest⟩ := hs.2.next?
  have hname : s.cursor.name? = some (word, d) := by
    rw [name?_eq_some_iff hs.1, ← eq_ofWord_of_next? hd h.word?]
    exact ⟨hd, h.not_reserved⟩
  refine .inl ⟨word, s.moveTo d, ts, ?_, hrest, rfl, rfl⟩
  unfold name
  rw [hname]

/-- No name is read at a reserved word, or at no word. -/
theorem fails_name (hne : ∀ word, leadingWord ts = some word → isReserved word = true) :
    Fails D name (AtTokens ts) := by
  intro s hs
  refine .inl ⟨s, ?_⟩
  unfold name
  split
  · rename_i word d hname
    obtain ⟨hd, hfree⟩ := (name?_eq_some_iff hs.1).1 hname
    obtain ⟨us, rfl, _⟩ := hs.2.of_next? hd
    rw [hne word (Token.word?_ofWord word)] at hfree
    cases hfree
  · rfl

theorem parses_dueName {what : Expectation} {t : Token} {word : String}
    (h : Grammar.IsName t word) :
    Parses D (dueName what) (Facing (t :: ts)) fun v us => v = word ∧ us = ts :=
  (parses_name h).orElse.behind

theorem fails_dueName {what : Expectation} (hne : leadingWord ts = none) :
    Fails D (dueName what) (Facing ts) := by
  have hname : Fails D name (AtTokens ts) := fails_name fun word hword => by
    rw [hne] at hword
    cases hword
  refine (hname.orElse fun s hs => .inl ⟨s.expect what, ?_⟩).behind
  split
  · rename_i word hword
    obtain ⟨us, rfl, _⟩ := hs.2.of_next? ((word?_eq_some_iff hs.1).1 hword)
    rw [leadingWord_cons, Token.word?_ofWord] at hne
    cases hne
  · rfl

/-! ## Literals -/

/-- A literal is read where its token stands. -/
theorem parses_literal {scan : Cursor → Except LexicalError (Option (α × Cursor))} {v : α}
    {t : Token} (hscan : ∀ c d, c.Settled → c.next? = some (t, d) → scan c = .ok (some (v, d))) :
    Parses D (literal scan) (AtTokens (t :: ts)) fun w us => w = v ∧ us = ts := by
  intro s hs
  obtain ⟨d, hd, hrest⟩ := hs.2.next?
  refine .inl ⟨v, s.moveTo d, ts, ?_, hrest, rfl, rfl⟩
  unfold literal
  rw [hscan s.cursor d hs.1 hd]

/-- A literal is not read where a token of another kind stands. -/
theorem fails_literal {scan : Cursor → Except LexicalError (Option (α × Cursor))}
    {token : α → Token}
    (hscan : ∀ c v d, c.Settled → scan c = .ok (some (v, d)) → c.next? = some (token v, d))
    (hne : ∀ v, ts.head? ≠ some (token v)) : Fails D (literal scan) (AtTokens ts) := by
  intro s hs
  unfold literal
  split
  · rename_i v d hfound
    obtain ⟨us, rfl, _⟩ := hs.2.of_next? (hscan s.cursor v d hs.1 hfound)
    exact absurd rfl (hne v)
  · exact .inl ⟨s, rfl⟩
  · exact .inl ⟨_, rfl⟩

end Rule

end Parser

end SceneScript
