import SceneScript.Proofs.Cursor.Ahead
import SceneScript.Parser.Nesting
import SceneScript.Program.WellFormed

/-!
# What a match has read

`Yields x P` says that whenever the rule `x` matches, the tokens on the way from where it started to
where it ends and the value it yields satisfy `P`.  A rule that is put together from others is taken
apart again by the lemmas `matched_…`, and the tokens of the parts are joined by `Reads.trans`.
-/

namespace SceneScript.Parser

variable {α β : Type} {s t : State}

@[simp] theorem State.cursor_moveTo (s : State) (c : Cursor) : (s.moveTo c).cursor = c := rfl

@[simp] theorem Reply.map_nil_append (r : Reply (List α)) : r.map ([] ++ ·) = r := by
  cases r <;> rfl

theorem Reply.map_cons_append (v : α) (vs : List α) (r : Reply (List α)) :
    (r.map (vs ++ ·)).map (v :: ·) = r.map (v :: vs ++ ·) := by
  cases r <;> rfl

namespace Rule

/-! ## Taking a match apart -/

/-- A rule whose result another depends on has matched if that one has. -/
theorem matched_bind {x : Rule α} {f : α → Rule β} {w : β} (h : (x >>= f) s = .matched w t) :
    ∃ v u, x s = .matched v u ∧ f v u = .matched w t := by
  have h' : andThen x f s = .matched w t := h
  unfold andThen at h'
  split at h'
  · exact ⟨_, _, by assumption, h'⟩
  · cases h'
  · cases h'

/-- What ends the first part at once ends the whole. -/
theorem aborted_bind {x : Rule α} {f : α → Rule β} {a : Abort} (h : x s = .aborted a) :
    (x >>= f) s = .aborted a := by
  show andThen x f s = .aborted a
  unfold andThen
  rw [h]

theorem matched_pure {v w : α} (h : (pure v : Rule α) s = .matched w t) : v = w ∧ s = t := by
  have h' : Reply.matched v s = .matched w t := h
  cases h'
  exact ⟨rfl, rfl⟩

theorem matched_map {r : Reply α} {f : α → β} {w : β} (h : r.map f = .matched w t) :
    ∃ v, r = .matched v t ∧ f v = w := by
  cases r <;> cases h
  exact ⟨_, rfl, rfl⟩

theorem unmatched_map {r : Reply α} {f : α → β} (h : r.map f = .unmatched t) :
    r = .unmatched t := by
  cases r <;> cases h
  rfl

/-- A rule that is tried matches what it would match. -/
theorem matched_attempt {x : Rule α} {v : α} : attempt x s = .matched v t ↔ x s = .matched v t := by
  unfold attempt
  split
  · simp_all
  · rfl

theorem orElse_of_matched {x y : Rule α} {v : α} (h : x s = .matched v t) :
    x.orElse y s = .matched v t := by
  unfold orElse attempt
  rw [h]

/-- Where the first rule does not match, the second one is tried from the same place. -/
theorem orElse_of_unmatched {x y : Rule α} (h : x s = .unmatched t) :
    x.orElse y s = y (t.moveTo s.cursor) := by
  unfold orElse attempt
  rw [h]

theorem orElse_of_aborted {x y : Rule α} {a : Abort} (h : x s = .aborted a) :
    x.orElse y s = .aborted a := by
  unfold orElse attempt
  rw [h]

/-- The second rule starts where the first one did. -/
theorem matched_orElse {x y : Rule α} {v : α} (h : x.orElse y s = .matched v t) :
    x s = .matched v t
      ∨ ∃ u, x s = .unmatched u ∧ y (u.moveTo s.cursor) = .matched v t := by
  unfold orElse at h
  split at h
  · rename_i u hu
    unfold attempt at hu
    split at hu
    · rename_i u' hu'
      cases hu
      exact .inr ⟨u', hu', h⟩
    · rename_i hne
      exact absurd hu (hne u)
  · exact .inl (matched_attempt.1 h)

/-- The whole does not match if its first part does not, or its second one behind it. -/
theorem unmatched_bind {x : Rule α} {f : α → Rule β} (h : (x >>= f) s = .unmatched t) :
    x s = .unmatched t ∨ ∃ v u, x s = .matched v u ∧ f v u = .unmatched t := by
  have h' : andThen x f s = .unmatched t := h
  unfold andThen at h'
  split at h'
  · exact .inr ⟨_, _, by assumption, h'⟩
  · cases h'
    exact .inl (by assumption)
  · cases h'

/-- A rule that is tried goes back where it does not match. -/
theorem unmatched_attempt {x : Rule α} (h : attempt x s = .unmatched t) :
    ∃ u, x s = .unmatched u ∧ t = u.moveTo s.cursor := by
  unfold attempt at h
  split at h
  · cases h
    exact ⟨_, by assumption, rfl⟩
  · rename_i hne
    exact absurd h (hne t)

/-- A choice does not match if none of its rules does. -/
theorem unmatched_orElse {x y : Rule α} (h : x.orElse y s = .unmatched t) :
    ∃ u, x s = .unmatched u ∧ y (u.moveTo s.cursor) = .unmatched t := by
  unfold orElse at h
  split at h
  · rename_i u hu
    obtain ⟨u', hu', rfl⟩ := unmatched_attempt hu
    exact ⟨u', hu', h⟩
  · rename_i hne
    exact absurd h (hne t)

/-- A choice has matched what one of its rules has. -/
theorem matched_firstOf {rules : List (Rule α)} {v : α} (h : firstOf rules s = .matched v t) :
    ∃ rule ∈ rules, ∃ u, u.cursor = s.cursor ∧ rule u = .matched v t := by
  induction rules generalizing s with
  | nil => cases h
  | cons rule rules ih =>
    rcases matched_orElse h with h | ⟨u, _, h⟩
    · exact ⟨rule, List.mem_cons_self .., s, rfl, h⟩
    · obtain ⟨other, hmem, w, hw, h⟩ := ih h
      exact ⟨other, List.mem_cons_of_mem _ hmem, w, hw, h⟩

/-- What is read if it is there may be there or not. -/
theorem matched_optionally {x : Rule Unit} {v : Unit} (h : optionally x s = .matched v t) :
    x s = .matched v t ∨ x s = .unmatched t := by
  unfold optionally at h
  split at h
  · cases h
    exact .inr (by assumption)
  · exact .inl h

theorem optionally_ne_unmatched (x : Rule Unit) (s t : State) : optionally x s ≠ .unmatched t := by
  intro h
  unfold optionally at h
  split at h
  · cases h
  · rename_i hne
    exact absurd h (hne t)

/-- Where no alternative matches, the cursor is put back. -/
theorem cursor_of_unmatched_firstOf {rules : List (Rule α)} (h : firstOf rules s = .unmatched t) :
    t.cursor = s.cursor := by
  induction rules generalizing s with
  | nil =>
    cases h
    rfl
  | cons rule rules ih =>
    obtain ⟨u, _, h⟩ := unmatched_orElse h
    exact ih (s := u.moveTo s.cursor) h

/-- A step that is done is a step of the cursor. -/
theorem matched_move {f : Cursor → Option Cursor} {v : Unit} (h : move f s = .matched v t) :
    f s.cursor = some t.cursor := by
  unfold move at h
  split at h
  · cases h
    assumption
  · cases h

/-- A literal that is read is one that stands there. -/
theorem matched_literal {scan : Cursor → Except LexicalError (Option (α × Cursor))} {v : α}
    (h : literal scan s = .matched v t) : scan s.cursor = .ok (some (v, t.cursor)) := by
  unfold literal at h
  split at h
  · cases h
    assumption
  · cases h
  · cases h

/-- A name that is read is one that stands there. -/
theorem matched_name {v : String} (h : name s = .matched v t) :
    s.cursor.name? = some (v, t.cursor) := by
  unfold name at h
  split at h
  · cases h
    assumption
  · cases h

/-- A rule behind trivia. -/
theorem matched_trivia_bind {f : Unit → Rule β} {w : β} (h : (trivia >>= f) s = .matched w t) :
    f () (s.moveTo s.cursor.afterTrivia) = .matched w t := h

theorem unmatched_trivia_bind {f : Unit → Rule β} (h : (trivia >>= f) s = .unmatched t) :
    f () (s.moveTo s.cursor.afterTrivia) = .unmatched t := h

/-- Where no blanks stand, skipping them does nothing. -/
theorem trivia_bind_settled {f : Unit → Rule β} (hs : s.cursor.Settled) :
    (trivia >>= f) s = f () s := by
  show f () (s.moveTo s.cursor.afterTrivia) = f () s
  rw [hs]
  rfl

/-! ## What the parts yield -/

/-- What the rule matches leads from where it started to where it ends. -/
def Yields (x : Rule α) (P : List Token → α → Prop) : Prop :=
  ∀ s v t, x s = .matched v t → ∃ ts, s.cursor.Reads ts t.cursor ∧ P ts v

variable {x y : Rule α} {P Q : List Token → α → Prop}

theorem Yields.mono (h : Yields x P) (hPQ : ∀ ts v, P ts v → Q ts v) : Yields x Q := by
  intro s v t hm
  obtain ⟨ts, hts, hP⟩ := h s v t hm
  exact ⟨ts, hts, hPQ ts v hP⟩

/-- What all rules of a choice yield, the choice does. -/
theorem Yields.firstOf {rules : List (Rule α)} (h : ∀ rule ∈ rules, Yields rule P) :
    Yields (firstOf rules) P := by
  intro s v t hm
  obtain ⟨rule, hmem, u, hu, hm⟩ := matched_firstOf hm
  rw [← hu]
  exact h rule hmem u v t hm

theorem Yields.orElse (h : Yields x P) (k : Yields y P) : Yields (x.orElse y) P := by
  intro s v t hm
  rcases matched_orElse hm with hm | ⟨u, _, hm⟩
  · exact h s v t hm
  · exact k (u.moveTo s.cursor) v t hm

/-- Trivia is no token. -/
theorem Yields.afterTrivia {f : Unit → Rule α} (h : Yields (f ()) P) : Yields (trivia >>= f) P := by
  intro s v t hm
  obtain ⟨ts, hts, hP⟩ := h _ v t (matched_trivia_bind hm)
  exact ⟨ts, Cursor.Reads.trans (Cursor.reads_afterTrivia s.cursor) hts, hP⟩

theorem yields_unmet {e : Expectation} : Yields (unmet e) P := by
  intro s v t hm
  cases hm

/-- Values one after the other, each with its tokens. -/
inductive Listed (P : List Token → α → Prop) : List Token → List α → Prop
  | nil : Listed P [] []
  | cons {ts us : List Token} {v : α} {vs : List α} : P ts v → Listed P us vs →
      Listed P (ts ++ us) (v :: vs)

/-- The rule passes nothing but trivia where it does not match. -/
def Stays (x : Rule α) : Prop := ∀ s t, x s = .unmatched t → s.cursor.Reads [] t.cursor

/-- What is read any number of times yields a list of what each time yields. -/
theorem Yields.many (h : Yields x P) (hstays : Stays x) : Yields x.many (Listed P) := by
  intro s vs t hm
  fun_induction Rule.many x s generalizing vs with
  | case1 s v u hx hlt ih =>
    obtain ⟨ws, hmore, rfl⟩ := matched_map hm
    obtain ⟨ts, hts, hP⟩ := h s v u hx
    obtain ⟨us, hus, hlisted⟩ := ih ws hmore
    exact ⟨ts ++ us, hts.trans hus, .cons hP hlisted⟩
  | case2 s v u hx hlt =>
    -- a match that has read nothing is the last one
    cases hm
    obtain ⟨ts, hts, hP⟩ := h s v t hx
    exact ⟨ts ++ [], by simpa using hts, .cons hP .nil⟩
  | case3 s u hx =>
    cases hm
    exact ⟨[], hstays s t hx, .nil⟩
  | case4 s a hx => cases hm

/-- A repeated rule always matches, or aborts. -/
theorem many_ne_unmatched (x : Rule α) (s t : State) : x.many s ≠ .unmatched t := by
  fun_induction Rule.many x s with
  | case1 s v u hx hlt ih => exact fun hm => ih (unmatched_map hm)
  | case2 | case3 | case4 => exact nofun

/-! ## Tokens -/

/-- A symbol that is read is its token. -/
theorem matched_symbol {symbol : String} {tok : Token} (hs : Cursor.IsSymbol symbol tok) {v : Unit}
    (h : Rule.symbol symbol s = .matched v t) : s.cursor.Reads [tok] t.cursor := by
  have hmove := matched_move (matched_trivia_bind h)
  have hnext := (Cursor.afterSymbol?_eq_some_iff (Cursor.settled_afterTrivia _) hs).1 hmove
  exact Cursor.reads_of_next? (by rwa [← Cursor.next?_afterTrivia])

theorem matched_dueSymbol {symbol : String} {tok : Token} (hs : Cursor.IsSymbol symbol tok)
    {v : Unit} (h : dueSymbol symbol s = .matched v t) : s.cursor.Reads [tok] t.cursor := by
  rcases matched_orElse (matched_trivia_bind h) with h | ⟨u, _, h⟩
  · exact matched_symbol hs h
  · cases h

/-- A keyword that is read is the token of its word. -/
theorem matched_keyword {word : String} (hw : Cursor.IsWord word) {v : Unit}
    (h : Rule.keyword word s = .matched v t) : s.cursor.Reads [Token.ofWord word] t.cursor := by
  have hmove := matched_move (matched_trivia_bind h)
  have hnext := (Cursor.afterKeyword?_eq_some_iff (Cursor.settled_afterTrivia _) hw).1 hmove
  exact Cursor.reads_of_next? (by rwa [← Cursor.next?_afterTrivia])

theorem matched_dueKeyword {word : String} (hw : Cursor.IsWord word) {v : Unit}
    (h : dueKeyword word s = .matched v t) : s.cursor.Reads [Token.ofWord word] t.cursor := by
  rcases matched_orElse (matched_trivia_bind h) with h | ⟨u, _, h⟩
  · exact matched_keyword hw h
  · cases h

/-- The word that opens a block is read with the place where it stands. -/
theorem matched_opening {word : String} (hw : Cursor.IsWord word) {place : Cursor}
    (h : opening word s = .matched place t) :
    place = s.cursor.afterTrivia ∧ s.cursor.Reads [Token.ofWord word] t.cursor := by
  obtain ⟨place', u, hhere, h⟩ := matched_bind (matched_trivia_bind h)
  cases hhere
  obtain ⟨_, u, hmove, h⟩ := matched_bind h
  obtain ⟨rfl, rfl⟩ := matched_pure h
  exact ⟨rfl, matched_keyword hw hmove⟩

theorem matched_closing {word : String} {opened : Cursor} {v : Unit}
    (h : closing word opened s = .matched v t) :
    s.cursor.Reads [Token.ofWord "end"] t.cursor := by
  rcases matched_orElse (matched_trivia_bind h) with h | ⟨u, _, h⟩
  · exact matched_keyword (by decide) h
  · cases h

/-- A comma that may be left out is a token or none. -/
theorem matched_optional_comma {v : Unit} (h : optionally (Rule.symbol ",") s = .matched v t) :
    ∃ ts, s.cursor.Reads ts t.cursor ∧ Grammar.IsSeparator ts := by
  rcases matched_optionally h with h | h
  · exact ⟨_, matched_symbol Cursor.isSymbol_comma h, .comma⟩
  · have h' : move (Cursor.afterSymbol? ",") (s.moveTo s.cursor.afterTrivia) = .unmatched t := h
    unfold move at h'
    split at h'
    · cases h'
    · cases h'
      exact ⟨[], Cursor.reads_afterTrivia _, .none⟩

/-- One of some words that is read is the token of that word. -/
theorem yields_oneOf {choices : List α} {word : α → String}
    (hw : ∀ choice ∈ choices, Cursor.IsWord (word choice)) :
    Yields (oneOf choices word) fun ts choice => ts = [Token.ofWord (word choice)] := by
  refine Yields.firstOf fun rule hmem => ?_
  obtain ⟨choice, hc, rfl⟩ := List.mem_map.1 hmem
  intro s v t h
  obtain ⟨_, u, hword, h⟩ := matched_bind h
  obtain ⟨rfl, rfl⟩ := matched_pure h
  exact ⟨_, matched_keyword (hw _ hc) hword, rfl⟩

/-- Where none of some keywords is found, none of them stands. -/
theorem word?_ne_of_unmatched_oneOf {choices : List α} {word : α → String}
    (hs : s.cursor.Settled) (h : oneOf choices word s = .unmatched t) :
    ∀ choice ∈ choices, s.cursor.word? ≠ some (word choice) := by
  unfold oneOf at h
  induction choices generalizing s with
  | nil =>
    intro choice hmem
    cases hmem
  | cons choice more ih =>
    obtain ⟨u, hfirst, hrest⟩ := unmatched_orElse h
    intro other hmem
    rcases List.mem_cons.1 hmem with rfl | hmem
    · intro hword
      rcases unmatched_bind hfirst with hfirst | ⟨_, _, _, hpure⟩
      · have hmove : move (Cursor.afterKeyword? (word other)) (s.moveTo s.cursor.afterTrivia)
            = .unmatched u := hfirst
        unfold move at hmove
        rw [State.cursor_moveTo, hs, Cursor.afterKeyword?_of_word? hword] at hmove
        cases hmove
      · cases hpure
    · exact ih (s := u.moveTo s.cursor) hs hrest other hmem

/-! ## Names -/

/-- The word that is found at a place can be a name if it is not reserved. -/
theorem isValidName_of_word? {c : Cursor} {word : String} (h : c.word? = some word)
    (hfree : isReserved word = false) : IsValidName word := by
  obtain ⟨x, rest, hr, hx⟩ := Cursor.rest_eq_cons_of_word? h
  refine ⟨⟨x, rest.takeWhile isWordChar, ?_, hx, ?_⟩, hfree⟩
  · rw [Cursor.toList_of_word? h, hr, List.takeWhile_cons, isWordChar_of_isWordStart hx]
    rfl
  · exact fun d hd => List.all_eq_true.1 List.all_takeWhile d hd

theorem isName_ofWord {word : String} (hfree : isReserved word = false) :
    Grammar.IsName (Token.ofWord word) word := by
  rcases Token.ofWord_eq word with h | h
  · rw [h]; exact .keyword word hfree
  · rw [h]; exact .identifier word hfree

/-- A name is the whole word that stands there, and it is not reserved. -/
theorem reads_of_name? {c d : Cursor} {word : String} (h : c.name? = some (word, d)) :
    isReserved word = false ∧ IsValidName word ∧ d = c.afterWord word ∧ c.word? = some word := by
  unfold Cursor.name? at h
  split at h
  · rename_i other hw
    split at h
    · cases h
    · cases h
      have hfree : isReserved word = false := by simpa using ‹¬isReserved word = true›
      exact ⟨hfree, isValidName_of_word? hw hfree, rfl, hw⟩
  · cases h

/-- A name that stands behind trivia is a token. -/
theorem matched_name_settled {v : String} (hs : s.cursor.Settled) (h : name s = .matched v t) :
    s.cursor.Reads [Token.ofWord v] t.cursor ∧ Grammar.IsName (Token.ofWord v) v
      ∧ IsValidName v := by
  have hname := matched_name h
  obtain ⟨hfree, hvalid, _, _⟩ := reads_of_name? hname
  exact ⟨Cursor.reads_of_next? ((Cursor.name?_eq_some_iff hs).1 hname).1, isName_ofWord hfree,
    hvalid⟩

/-- A name that is read where one is due is the token of its word. -/
theorem matched_dueName {what : Expectation} {v : String} (h : dueName what s = .matched v t) :
    s.cursor.Reads [Token.ofWord v] t.cursor ∧ Grammar.IsName (Token.ofWord v) v
      ∧ IsValidName v := by
  rcases matched_orElse (matched_trivia_bind h) with h | ⟨u, _, h⟩
  · obtain ⟨hreads, hname⟩ := matched_name_settled (Cursor.settled_afterTrivia _) h
    exact ⟨Cursor.Reads.trans (Cursor.reads_afterTrivia s.cursor) hreads, hname⟩
  · split at h <;> cases h

end Rule

end SceneScript.Parser
