import SceneScript.Proofs.Cursor.Ahead

/-!
# Where a source is no sequence of tokens

The tokens before a malformed one can be read, and no cursor gets past it: whatever tokens a cursor
has read, it is not behind the place that `tokenize` complains about.
-/

namespace SceneScript

namespace Cursor

variable {c d e : Cursor} {t : Token} {ts us : List Token} {error : LexicalError}

/-! ## Errors and where they are -/

theorem eq_of_text?_error (h : c.text? = .error error) : error = .unterminatedString c.pos := by
  unfold text? at h
  split at h
  · cases h
  · dsimp only at h
    split at h
    · split at h <;> cases h
      rfl
    · cases h

theorem offset_of_number?_error (h : c.number? = .error error) : error.offset = c.pos := by
  unfold number? at h
  dsimp only at h
  split at h
  · cases h
  · split at h
    · cases h
      rfl
    · split at h <;> cases h
      rfl

/-- An error is of a string that is not closed, of a number, or of the character that stands
there. -/
theorem token?_error_cases (h : c.token? = .error error) :
    error = .unterminatedString c.pos ∨ c.number? = .error error
      ∨ ∃ x rest, c.rest = x :: rest ∧ error = .unrecognizedCharacter c.pos x := by
  unfold token? at h
  split at h
  · rename_i htext
    cases h
    exact .inl (eq_of_text?_error htext)
  · cases h
  · split at h
    · rename_i hnumber
      cases h
      exact .inr (.inl hnumber)
    · cases h
    · split at h
      · cases h
      · cases h
      · rename_i x _ hchar
        split at h <;> cases h
        obtain ⟨rest, hrest⟩ := List.head?_eq_some_iff.1 hchar
        exact .inr (.inr ⟨x, rest, hrest, rfl⟩)

theorem offset_of_token?_error (h : c.token? = .error error) : error.offset = c.pos := by
  obtain rfl | hnumber | ⟨x, rest, _, rfl⟩ := token?_error_cases h
  · rfl
  · exact offset_of_number?_error hnumber
  · rfl

theorem token?_of_isEnd (h : c.isEnd = true) : c.token? = .ok none := by
  have hr : c.rest = [] := List.isEmpty_iff.1 h
  simp [token?, text?, number?, Numeral.leading, word?, char?, hr]

/-- Where there is no token and no error, the source is at its end. -/
theorem isEnd_of_token? (hc : c.Settled) (h : c.token? = .ok none) : c.isEnd = true := by
  have hplace : c.afterTrivia = c := hc
  obtain ⟨t, d, hnext⟩ | ⟨hend, _⟩ | ⟨error, herror⟩ := nextLexeme_cases c
  · rw [(next?_eq_some_iff hc).1 hnext] at h
    cases h
  · rwa [hplace] at hend
  · simp only [nextLexeme, hplace, h] at herror
    cases herror

theorem token?_of_text?_error (h : c.text? = .error error) : c.token? = .error error := by
  rw [token?, h]

theorem token?_of_number?_error (h : c.number? = .error error) : c.token? = .error error := by
  have htext : c.text? = .ok none := by
    cases hr : c.rest with
    | nil => simp [number?, hr, Numeral.leading] at h
    | cons x rest =>
      refine text?_eq_none hr fun hquote => ?_
      rw [number?_eq_none hr (isWordStart_eq_false_of_quote hquote).2] at h
      cases h
  rw [token?, htext]
  simp only [h]

/-- Where no token stands, no number stands either, unless it is malformed. -/
theorem number?_of_next?_eq_none (hc : c.Settled) (h : c.next? = none) :
    c.number? = .ok none ∨ ∃ error, c.number? = .error error ∧ c.token? = .error error := by
  cases hnumber : c.number? with
  | error error => exact .inr ⟨error, rfl, token?_of_number?_error hnumber⟩
  | ok found =>
    cases found with
    | none => exact .inl rfl
    | some found =>
      rw [(number?_eq_some_iff hc).1 hnumber] at h
      cases h

/-- Where no token stands, no string stands either, unless it is malformed. -/
theorem text?_of_next?_eq_none (hc : c.Settled) (h : c.next? = none) :
    c.text? = .ok none ∨ ∃ error, c.text? = .error error ∧ c.token? = .error error := by
  cases htext : c.text? with
  | error error => exact .inr ⟨error, rfl, token?_of_text?_error htext⟩
  | ok found =>
    cases found with
    | none => exact .inl rfl
    | some found =>
      rw [(text?_eq_some_iff hc).1 htext] at h
      cases h

theorem next?_of_token?_error (hc : c.Settled) (h : c.token? = .error error) : c.next? = none := by
  rw [hc.next?_eq, h]

/-! ## Reading is deterministic -/

theorem Reads.settled_eq (h : c.Reads [] d) (hc : c.Settled) (hd : d.Settled) : d = c := by
  rw [← hd, ← h.2, hc]

/-- What has been read on the way to a place is read up to there. -/
theorem Reads.split (h : c.Reads ts d) (k : c.Reads (ts ++ us) e) (he : e.Settled) :
    d.Reads us e := by
  induction ts generalizing c with
  | nil =>
    cases us with
    | nil =>
      have hde : d.afterTrivia = e := h.2.symm.trans (k.2.trans he)
      exact ⟨hde ▸ onward_afterTrivia d, hde.trans he.symm⟩
    | cons t us =>
      obtain ⟨f, hf, hrest⟩ := k
      exact ⟨f, next?_eq_of_afterTrivia_eq h.2 ▸ hf, hrest⟩
  | cons t ts ih =>
    obtain ⟨f, hf, hrest⟩ := h
    obtain ⟨f', hf', hrest'⟩ := k
    obtain ⟨_, rfl⟩ := Prod.mk.inj (Option.some.inj (hf.symm.trans hf'))
    exact ih hrest hrest'

/-- The same tokens end at the same place. -/
theorem Reads.unique (h : c.Reads ts d) (k : c.Reads ts e) (hd : d.Settled) (he : e.Settled) :
    d = e := by
  have hde : d.Reads [] e := by
    rw [← List.append_nil ts] at k
    exact h.split k he
  exact (hde.settled_eq hd he).symm

/-- Of two sequences of tokens read from one place, one goes on where the other ends. -/
theorem Reads.prefix_or (h : c.Reads ts d) (k : c.Reads us e) : ts <+: us ∨ us <+: ts := by
  induction ts generalizing c us with
  | nil => exact .inl (List.nil_prefix)
  | cons t ts ih =>
    cases us with
    | nil => exact .inr (List.nil_prefix)
    | cons u us =>
      obtain ⟨f, hf, hrest⟩ := h
      obtain ⟨f', hf', hrest'⟩ := k
      obtain ⟨rfl, rfl⟩ := Prod.mk.inj (Option.some.inj (hf.symm.trans hf'))
      rcases ih hrest hrest' with hpre | hpre
      · exact .inl (List.cons_prefix_cons.2 ⟨rfl, hpre⟩)
      · exact .inr (List.cons_prefix_cons.2 ⟨rfl, hpre⟩)

/-- The one that has read more tokens is behind the other. -/
theorem Reads.pos_lt_of_length_lt (h : c.Reads ts d) (k : c.Reads us e) (hd : d.Settled)
    (he : e.Settled) (hlt : ts.length < us.length) : d.pos < e.pos := by
  rcases h.prefix_or k with ⟨more, rfl⟩ | hpre
  · have hne : more ≠ [] := by
      rintro rfl
      simp at hlt
    have hpos := (h.split k he).pos_lt hne
    rwa [hd] at hpos
  · exact absurd hpre.length_le (by omega)

theorem Reads.eq_of_length_eq (h : c.Reads ts d) (k : c.Reads us e)
    (hlength : ts.length = us.length) : ts = us := by
  rcases h.prefix_or k with hpre | hpre
  · exact hpre.eq_of_length hlength
  · exact (hpre.eq_of_length hlength.symm).symm

/-- The tokens between two places are determined by the places. -/
theorem Reads.tokens_unique (h : c.Reads ts d) (k : c.Reads us d) (hd : d.Settled) : ts = us := by
  rcases Nat.lt_trichotomy ts.length us.length with hlt | heq | hgt
  · exact absurd (h.pos_lt_of_length_lt k hd hd hlt) (Nat.lt_irrefl _)
  · exact h.eq_of_length_eq k heq
  · exact absurd (k.pos_lt_of_length_lt h hd hd hgt) (Nat.lt_irrefl _)

/-- Nothing is read past a place where no token stands. -/
theorem Reads.prefix_of_next?_eq_none (h : c.Reads ts d) (k : c.Reads us e)
    (hnone : e.next? = none) : ts <+: us := by
  rcases h.prefix_or k with hpre | ⟨more, rfl⟩
  · exact hpre
  · cases more with
    | nil => simp
    | cons t more =>
      have hmore : e.Reads (t :: more) d.afterTrivia :=
        k.split (by simpa using h.trans (reads_afterTrivia d)) (settled_afterTrivia d)
      obtain ⟨f, hf, _⟩ := hmore
      rw [hnone] at hf
      cases hf

/-- A place that has been reached is not behind one where no token stands. -/
theorem Reads.pos_le_of_next?_eq_none (h : c.Reads ts d) (k : c.Reads us e) (he : e.Settled)
    (hnone : e.next? = none) : d.pos ≤ e.pos := by
  obtain ⟨more, rfl⟩ := h.prefix_of_next?_eq_none k hnone
  exact (h.split k he).onward.pos_le

/-- What has been read is the front of all that is ahead. -/
theorem Reads.split_ahead (h : c.Reads ts d) (k : c.Ahead us) :
    ∃ more, us = ts ++ more ∧ d.Ahead more := by
  induction ts generalizing c us with
  | nil => exact ⟨us, rfl, (ahead_congr h.2).1 k⟩
  | cons t ts ih =>
    obtain ⟨e, he, hrest⟩ := h
    cases us with
    | nil =>
      rw [next?_eq_none_of_isEnd k] at he
      cases he
    | cons u us =>
      obtain ⟨e', he', hahead⟩ := k
      obtain ⟨rfl, rfl⟩ := Prod.mk.inj (Option.some.inj (he.symm.trans he'))
      obtain ⟨more, rfl, hmore⟩ := ih hrest hahead
      exact ⟨more, rfl, hmore⟩

/-! ## All tokens of a source -/

/-- A malformed token behind well-formed ones is what the source is refused for, and the cursor is
left there. -/
theorem lexemes_eq_of_token?_error (h : c.Reads ts d) (hd : d.Settled)
    (herror : d.token? = .error error) : c.lexemes = (.error error, d) := by
  induction ts generalizing c with
  | nil =>
    have hplace : c.afterTrivia = d := h.2.trans hd
    have hlexeme : c.nextLexeme = (.error error, d) := by
      rw [nextLexeme, hplace]
      simp only [herror]
    rw [lexemes, hlexeme]
  | cons t ts ih =>
    obtain ⟨e, he, hrest⟩ := h
    rw [lexemes_of_next? he, ih hrest]

theorem lexemes_of_token?_error (h : c.Reads ts d) (hd : d.Settled)
    (herror : d.token? = .error error) : c.lexemes.1 = .error error := by
  rw [lexemes_eq_of_token?_error h hd herror]

/-- A source is refused for a malformed token behind well-formed ones. -/
theorem reads_of_lexemes_error (h : c.lexemes.1 = .error error) :
    ∃ ts d, c.Reads ts d ∧ d.Settled ∧ d.token? = .error error := by
  induction hn : c.rest.length using Nat.strongRecOn generalizing c with
  | ind n ih =>
    -- the malformed token is the next one, or it is found behind the next one
    rcases hnext : c.next? with _ | ⟨t, e⟩
    · refine ⟨[], c.afterTrivia, reads_afterTrivia c, settled_afterTrivia c, ?_⟩
      rw [lexemes, nextLexeme] at h
      rw [next?] at hnext
      cases htoken : c.afterTrivia.token? with
      | error other =>
        simp only [htoken] at h
        cases h
        rfl
      | ok found =>
        rw [htoken] at hnext
        cases hnext
        simp only [htoken] at h
        cases h
    · have hmore : e.lexemes.1 = .error error := by
        rw [lexemes_of_next? hnext] at h
        cases hlex : e.lexemes with
        | mk found stop =>
          rw [hlex] at h
          cases found with
          | ok more => cases h
          | error other => exact h
      obtain ⟨ts, d, hreads, hd, herror⟩ :=
        ih _ (hn ▸ length_rest_lt_of_next? hnext) hmore rfl
      exact ⟨t :: ts, d, ⟨e, hnext, hreads⟩, hd, herror⟩

/-- A place that has been reached is where a token starts, or it is the end. -/
theorem start_of_reads {ls : List Lexeme} (h : c.Reads ts d) (hd : d.Settled)
    (hls : c.lexemes.1 = .ok ls) : ts.length ≤ ls.length ∧ match ls[ts.length]? with
      | some lexeme => lexeme.start = d.pos
      | none => d.isEnd = true := by
  -- on the tokens that have been read; each of them is the first of the lexemes that are left
  induction ts generalizing c ls with
  | nil =>
    refine ⟨Nat.zero_le _, ?_⟩
    have hplace : c.afterTrivia = d := h.2.trans hd
    have hahead := ahead_of_lexemes hls
    cases ls with
    | nil =>
      show d.isEnd = true
      rw [← hplace]
      exact hahead
    | cons lexeme more =>
      obtain ⟨e, he, _⟩ := hahead
      rw [lexemes_of_next? he] at hls
      cases hlex : e.lexemes with
      | mk found stop =>
        rw [hlex] at hls
        cases found with
        | error _ => cases hls
        | ok rest =>
          obtain ⟨hlexeme, _⟩ := List.cons.inj (Except.ok.inj hls)
          show lexeme.start = d.pos
          rw [← hlexeme, hplace]
  | cons t ts ih =>
    obtain ⟨e, he, hrest⟩ := h
    rw [lexemes_of_next? he] at hls
    cases hlex : e.lexemes with
    | mk found stop =>
      rw [hlex] at hls
      cases found with
      | error _ => cases hls
      | ok rest =>
        obtain rfl := Except.ok.inj hls
        obtain ⟨hle, hstart⟩ := ih hrest (by rw [hlex])
        exact ⟨Nat.succ_le_succ hle, hstart⟩

end Cursor

end SceneScript
