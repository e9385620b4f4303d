import SceneScript.Proofs.Cursor.Next

/-!
# The tokens ahead

`c.Reads ts d` says that the tokens `ts` lead from one place to another, and `c.Ahead ts` that they
are all that is left of the source.  A source is a sequence of tokens just if its tokens are ahead
of its start, so what holds of places with the same tokens ahead does not depend on how the tokens
are spelled and set out.
-/

namespace SceneScript.Cursor

/-! ## Going on -/

/-- The second place is reached from the first by going on. -/
def Onward (c d : Cursor) : Prop := ∃ count, d = c.advance count

theorem Onward.refl (c : Cursor) : c.Onward c := ⟨0, (advance_zero c).symm⟩

theorem Onward.trans {c d e : Cursor} (h : c.Onward d) (k : d.Onward e) : c.Onward e := by
  obtain ⟨m, rfl⟩ := h
  obtain ⟨n, rfl⟩ := k
  exact ⟨m + n, advance_advance c m n⟩

theorem onward_afterTrivia (c : Cursor) : c.Onward c.afterTrivia := ⟨_, rfl⟩

theorem Onward.pos_le {c d : Cursor} (h : c.Onward d) : c.pos ≤ d.pos := by
  obtain ⟨n, rfl⟩ := h
  simp

/-- Text of no length in bytes has no characters. -/
theorem byteLength_take_lt {text : List Char} {m n : Nat} (hmn : m < n) (hm : m < text.length) :
    Text.byteLength (text.take m) < Text.byteLength (text.take n) := by
  have hsplit : text.take n = text.take m ++ (text.drop m).take (n - m) := by
    rw [← List.take_add, Nat.add_sub_cancel' (Nat.le_of_lt hmn)]
  have hne : (text.drop m).take (n - m) ≠ [] := by
    rw [Ne, List.take_eq_nil_iff, List.drop_eq_nil_iff]
    omega
  have hpos := mt Text.byteLength_eq_zero_iff.1 hne
  rw [hsplit, Text.byteLength_append]
  omega

/-- Places on the way from one place are told apart by their offsets. -/
theorem Onward.eq_of_pos_eq {c d e : Cursor} (hd : c.Onward d) (he : c.Onward e)
    (h : d.pos = e.pos) : d = e := by
  obtain ⟨m, rfl⟩ := hd
  obtain ⟨n, rfl⟩ := he
  have hbytes : Text.byteLength (c.rest.take m) = Text.byteLength (c.rest.take n) := by
    simpa using h
  have hend : ∀ k, c.rest.length ≤ k → c.advance k = c.advance c.rest.length := by
    intro k hk
    simp [advance, List.drop_eq_nil_of_le hk, List.take_of_length_le hk]
  rcases Nat.lt_trichotomy m n with hmn | rfl | hmn
  · by_cases hm : m < c.rest.length
    · have := byteLength_take_lt hmn hm
      omega
    · rw [hend m (by omega), hend n (by omega)]
  · rfl
  · by_cases hn : n < c.rest.length
    · have := byteLength_take_lt hmn hn
      omega
    · rw [hend m (by omega), hend n (by omega)]

/-! ## Tokens are not empty -/

/-- The place is behind some text. -/
def Beyond (c d : Cursor) : Prop := ∃ count, 0 < count ∧ c.rest ≠ [] ∧ d = c.advance count

theorem Beyond.onward {c d : Cursor} (h : c.Beyond d) : c.Onward d := by
  obtain ⟨n, _, _, rfl⟩ := h
  exact ⟨n, rfl⟩

theorem Beyond.pos_lt {c d : Cursor} (h : c.Beyond d) : c.pos < d.pos := by
  obtain ⟨n, hn, hr, rfl⟩ := h
  have := byteLength_take_lt hn (List.length_pos_iff.2 hr)
  simp only [List.take_zero, Text.byteLength_nil] at this
  simp only [pos_advance]
  omega

theorem Beyond.length_rest_lt {c d : Cursor} (h : c.Beyond d) : d.rest.length < c.rest.length := by
  obtain ⟨n, hn, hr, rfl⟩ := h
  have := List.length_pos_iff.2 hr
  rw [rest_advance, List.length_drop]
  omega

theorem beyond_of_token? {c d : Cursor} {t : Token} (h : c.token? = .ok (some (t, d))) :
    c.Beyond d := by
  obtain ⟨text, _, ht⟩ | ⟨x, _, hx⟩ | ⟨word, _, hw, rfl⟩ | ⟨x, rest, hr, _, rfl⟩ := token?_cases h
  · obtain ⟨quote, rest, hr, _, _, hd⟩ := eq_of_text? ht
    exact ⟨_, by omega, by simp [hr], hd⟩
  · obtain ⟨digit, rest, hr, hdigit⟩ := rest_eq_cons_of_number? hx
    have hlen : 0 < (Numeral.leading c.rest).text.length := by
      simp [Numeral.leading, Numeral.text, hr, hdigit]
    simp only [number?] at hx
    split at hx
    · cases hx
    · split at hx
      · cases hx
      · split at hx
        · cases hx
          exact ⟨_, hlen, by simp [hr], rfl⟩
        · cases hx
  · obtain ⟨x, rest, hr, hx⟩ := rest_eq_cons_of_word? hw
    refine ⟨_, ?_, by simp [hr], rfl⟩
    rw [toList_of_word? hw, hr]
    simp [isWordChar_of_isWordStart hx]
  · exact ⟨1, by omega, by simp [hr], rfl⟩

theorem beyond_of_next? {c d : Cursor} {t : Token} (h : c.next? = some (t, d)) :
    c.afterTrivia.Beyond d := by
  rw [← next?_afterTrivia, next?_eq_some_iff (settled_afterTrivia c)] at h
  exact beyond_of_token? h

theorem onward_of_next? {c d : Cursor} {t : Token} (h : c.next? = some (t, d)) : c.Onward d :=
  (onward_afterTrivia c).trans (beyond_of_next? h).onward

theorem length_rest_lt_of_next? {c d : Cursor} {t : Token} (h : c.next? = some (t, d)) :
    d.rest.length < c.rest.length :=
  Nat.lt_of_lt_of_le (beyond_of_next? h).length_rest_lt (length_rest_advance_le c _)

/-! ## Tokens on the way -/

/-- The tokens lead on from the first place to the second, trivia at either place apart. -/
def Reads : Cursor → List Token → Cursor → Prop
  | c, [], d => c.Onward d ∧ c.afterTrivia = d.afterTrivia
  | c, t :: ts, d => ∃ e, c.next? = some (t, e) ∧ e.Reads ts d

/-- The tokens are all that is left of the source. -/
def Ahead : Cursor → List Token → Prop
  | c, [] => c.afterTrivia.isEnd = true
  | c, t :: ts => ∃ e, c.next? = some (t, e) ∧ e.Ahead ts

theorem Reads.refl (c : Cursor) : c.Reads [] c := ⟨Onward.refl c, rfl⟩

theorem reads_afterTrivia (c : Cursor) : c.Reads [] c.afterTrivia :=
  ⟨onward_afterTrivia c, (afterTrivia_afterTrivia c).symm⟩

theorem reads_of_next? {c d : Cursor} {t : Token} (h : c.next? = some (t, d)) : c.Reads [t] d :=
  ⟨d, h, Reads.refl d⟩

theorem next?_eq_of_afterTrivia_eq {c d : Cursor} (h : c.afterTrivia = d.afterTrivia) :
    c.next? = d.next? := by
  rw [← next?_afterTrivia, h, next?_afterTrivia]

theorem Reads.trans {c d e : Cursor} {ts us : List Token} (h : c.Reads ts d) (k : d.Reads us e) :
    c.Reads (ts ++ us) e := by
  induction ts generalizing c with
  | nil =>
    obtain ⟨hon, hcd⟩ := h
    cases us with
    | nil => exact ⟨hon.trans k.1, hcd.trans k.2⟩
    | cons u us =>
      obtain ⟨f, hf, hrest⟩ := k
      exact ⟨f, (next?_eq_of_afterTrivia_eq hcd).trans hf, hrest⟩
  | cons t ts ih =>
    obtain ⟨f, hf, hrest⟩ := h
    exact ⟨f, hf, ih hrest⟩

theorem Reads.behind {c d : Cursor} {ts : List Token} (h : c.Reads ts d) :
    c.Reads ts d.afterTrivia := by
  simpa using h.trans (reads_afterTrivia d)

/-- Two cursors that have read the same tokens pass trivia. -/
theorem reads_both_afterTrivia {c₀ d₀ c d : Cursor} {ts : List Token}
    (h : c₀.Reads ts c ∧ d₀.Reads ts d) :
    c₀.Reads ts c.afterTrivia ∧ d₀.Reads ts d.afterTrivia :=
  ⟨h.1.behind, h.2.behind⟩

theorem Reads.onward {c d : Cursor} {ts : List Token} (h : c.Reads ts d) : c.Onward d := by
  induction ts generalizing c with
  | nil => exact h.1
  | cons t ts ih =>
    obtain ⟨e, he, hrest⟩ := h
    exact (onward_of_next? he).trans (ih hrest)

theorem Onward.length_rest_le {c d : Cursor} (h : c.Onward d) : d.rest.length ≤ c.rest.length := by
  obtain ⟨n, rfl⟩ := h
  exact length_rest_advance_le c n

/-- No blank stands where no trivia stands. -/
theorem Settled.isBlank_eq_false {c : Cursor} {x : Char} {rest : List Char} (h : c.Settled)
    (hrest : c.rest = x :: rest) : Text.isBlank x = false := by
  refine Bool.eq_false_iff.2 fun hblank => ?_
  have hfurther := (onward_afterTrivia (c.advance 1)).length_rest_le
  rw [← afterTrivia_blank hrest hblank, h, rest_advance, hrest] at hfurther
  exact Nat.not_succ_le_self _ hfurther

/-- Reading a token makes the rest shorter. -/
theorem Reads.length_rest_lt {c d : Cursor} {ts : List Token} (h : c.Reads ts d) (hts : ts ≠ []) :
    d.rest.length < c.rest.length := by
  cases ts with
  | nil => exact absurd rfl hts
  | cons t ts =>
    obtain ⟨e, he, hrest⟩ := h
    have hle := hrest.onward.length_rest_le
    have hlt := length_rest_lt_of_next? he
    omega

/-- Reading a token goes past where it starts. -/
theorem Reads.pos_lt {c d : Cursor} {ts : List Token} (h : c.Reads ts d) (hts : ts ≠ []) :
    c.afterTrivia.pos < d.pos := by
  cases ts with
  | nil => exact absurd rfl hts
  | cons t ts =>
    obtain ⟨e, he, hrest⟩ := h
    have hle := hrest.onward.pos_le
    have hlt := (beyond_of_next? he).pos_lt
    omega

theorem ahead_congr {c d : Cursor} {ts : List Token} (h : c.afterTrivia = d.afterTrivia) :
    c.Ahead ts ↔ d.Ahead ts := by
  cases ts with
  | nil => simp only [Ahead, h]
  | cons t ts => simp only [Ahead, next?_eq_of_afterTrivia_eq h]

@[simp] theorem ahead_afterTrivia {c : Cursor} {ts : List Token} :
    c.afterTrivia.Ahead ts ↔ c.Ahead ts :=
  ahead_congr (afterTrivia_afterTrivia c)

theorem Reads.ahead {c d : Cursor} {ts us : List Token} (h : c.Reads ts d) (k : d.Ahead us) :
    c.Ahead (ts ++ us) := by
  induction ts generalizing c with
  | nil => exact (ahead_congr h.2).2 k
  | cons t ts ih =>
    obtain ⟨e, he, hrest⟩ := h
    exact ⟨e, he, ih hrest⟩

/-- What is ahead comes into reach token by token. -/
theorem Ahead.reads {c : Cursor} {ts us : List Token} (h : c.Ahead (ts ++ us)) :
    ∃ d, c.Reads ts d ∧ d.Ahead us := by
  induction ts generalizing c with
  | nil => exact ⟨c, Reads.refl c, h⟩
  | cons t ts ih =>
    obtain ⟨e, he, hrest⟩ := h
    obtain ⟨d, hd, hus⟩ := ih hrest
    exact ⟨d, ⟨e, he, hd⟩, hus⟩

/-- All that is ahead leads to the end of the source. -/
theorem Ahead.reads_end {c : Cursor} {ts : List Token} (h : c.Ahead ts) :
    ∃ d, c.Reads ts d ∧ d.Settled ∧ d.isEnd = true := by
  rw [← List.append_nil ts] at h
  obtain ⟨d, hd, hend⟩ := h.reads
  exact ⟨d.afterTrivia, hd.behind, settled_afterTrivia d, hend⟩

/-- At the end of the source there is no token. -/
theorem next?_eq_none_of_isEnd {c : Cursor} (h : c.afterTrivia.isEnd = true) : c.next? = none := by
  have hr : c.afterTrivia.rest = [] := List.isEmpty_iff.1 h
  simp [next?, token?, text?, number?, Numeral.leading, word?, char?, hr]

theorem Ahead.unique {c : Cursor} {ts us : List Token} (h : c.Ahead ts) (k : c.Ahead us) :
    ts = us := by
  induction ts generalizing c us with
  | nil =>
    cases us with
    | nil => rfl
    | cons u us =>
      obtain ⟨e, he, _⟩ := k
      rw [next?_eq_none_of_isEnd h] at he
      cases he
  | cons t ts ih =>
    obtain ⟨e, he, hrest⟩ := h
    cases us with
    | nil =>
      rw [next?_eq_none_of_isEnd k] at he
      cases he
    | cons u us =>
      obtain ⟨f, hf, hus⟩ := k
      obtain ⟨rfl, rfl⟩ : t = u ∧ e = f := by simpa [he] using hf
      rw [ih hrest hus]

/-! ## All tokens of a source -/

theorem nextLexeme_of_next? {c d : Cursor} {t : Token} (h : c.next? = some (t, d)) :
    c.nextLexeme = (.ok (some ⟨t, c.afterTrivia.pos, d.pos⟩), d) := by
  rw [← next?_afterTrivia, next?_eq_some_iff (settled_afterTrivia c)] at h
  simp only [nextLexeme, h]

/-- There is a next token, or the end of the source is reached, or the cursor stops. -/
theorem nextLexeme_cases (c : Cursor) :
    (∃ t d, c.next? = some (t, d))
      ∨ (c.afterTrivia.isEnd = true ∧ c.nextLexeme = (.ok none, c.afterTrivia))
      ∨ ∃ e, c.nextLexeme = (.error e, c.afterTrivia) := by
  cases hr : c.afterTrivia.token? with
  | error e => exact .inr (.inr ⟨e, by simp only [nextLexeme, hr]⟩)
  | ok found =>
    cases found with
    | some found =>
      refine .inl ⟨found.1, found.2, ?_⟩
      rw [next?, hr]
    | none =>
      refine .inr (.inl ⟨?_, by simp only [nextLexeme, hr]⟩)
      cases hrest : c.afterTrivia.rest with
      | nil => simp [isEnd, hrest]
      | cons x rest =>
        -- a character that begins no token is an error, not the end
        exfalso
        unfold token? at hr
        split at hr
        · cases hr
        · cases hr
        · split at hr
          · cases hr
          · cases hr
          · simp only [char?, hrest, List.head?_cons] at hr
            split at hr
            · cases hr
            · rename_i heq
              cases heq
            · split at hr <;> cases hr

/-- The tokens of a source one by one. -/
theorem lexemes_of_next? {c d : Cursor} {t : Token} (h : c.next? = some (t, d)) :
    c.lexemes = match d.lexemes with
      | (.ok more, stop) => (.ok (⟨t, c.afterTrivia.pos, d.pos⟩ :: more), stop)
      | (.error e, stop) => (.error e, stop) := by
  rw [lexemes, nextLexeme_of_next? h]
  exact if_pos (length_rest_lt_of_next? h)

/-- The tokens up to the end of the source with their offsets, one by one. -/
inductive Lexes : Cursor → List Lexeme → Prop
  | done {c : Cursor} : c.afterTrivia.isEnd = true → Lexes c []
  | token {c d : Cursor} {t : Token} {ls : List Lexeme} : c.next? = some (t, d) → Lexes d ls →
      Lexes c (⟨t, c.afterTrivia.pos, d.pos⟩ :: ls)

theorem lexes_of_lexemes {c : Cursor} {ls : List Lexeme} (h : c.lexemes.1 = .ok ls) :
    c.Lexes ls := by
  induction ls generalizing c with
  | nil =>
    obtain ⟨t, d, hnext⟩ | ⟨hend, _⟩ | ⟨e, he⟩ := nextLexeme_cases c
    · rw [lexemes_of_next? hnext] at h
      split at h <;> cases h
    · exact .done hend
    · rw [lexemes, he] at h
      cases h
  | cons l ls ih =>
    obtain ⟨t, d, hnext⟩ | ⟨_, hnone⟩ | ⟨e, he⟩ := nextLexeme_cases c
    · rw [lexemes_of_next? hnext] at h
      split at h
      · rename_i more stop hmore
        obtain ⟨rfl, rfl⟩ := List.cons.inj (Except.ok.inj h)
        exact .token hnext (ih (by rw [hmore]))
      · cases h
    · rw [lexemes, hnone] at h
      cases h
    · rw [lexemes, he] at h
      cases h

theorem Lexes.ahead {c : Cursor} {ls : List Lexeme} (h : c.Lexes ls) :
    c.Ahead (ls.map Lexeme.token) := by
  induction h with
  | done hend => exact hend
  | token hnext _ ih => exact ⟨_, hnext, ih⟩

/-- The tokens of a source are all that is ahead of its start. -/
theorem ahead_of_lexemes {c : Cursor} {ls : List Lexeme} (h : c.lexemes.1 = .ok ls) :
    c.Ahead (ls.map Lexeme.token) := (lexes_of_lexemes h).ahead

/-- If all that is ahead of its start are tokens, the source is a sequence of tokens. -/
theorem lexemes_of_ahead {c : Cursor} {ts : List Token} (h : c.Ahead ts) :
    ∃ ls, c.lexemes.1 = .ok ls ∧ ls.map Lexeme.token = ts := by
  induction ts generalizing c with
  | nil =>
    refine ⟨[], ?_, rfl⟩
    obtain ⟨t, d, hnext⟩ | ⟨_, hnone⟩ | ⟨e, he⟩ := nextLexeme_cases c
    · rw [next?_eq_none_of_isEnd h] at hnext
      cases hnext
    · rw [lexemes, hnone]
    · have hr : c.afterTrivia.rest = [] := List.isEmpty_iff.1 h
      simp [nextLexeme, token?, text?, number?, Numeral.leading, word?, char?, hr] at he
  | cons t ts ih =>
    obtain ⟨d, hnext, hrest⟩ := h
    obtain ⟨ls, hls, hts⟩ := ih hrest
    refine ⟨⟨t, c.afterTrivia.pos, d.pos⟩ :: ls, ?_, by simp [hts]⟩
    rw [lexemes_of_next? hnext]
    split
    · rename_i hmore
      rw [hmore] at hls
      rw [Except.ok.inj hls]
    · rename_i hmore
      rw [hmore] at hls
      cases hls

end SceneScript.Cursor
