import SceneScript.Proofs.Parser.Horizon
import SceneScript.Proofs.Source.Spellable

/-!
# The first offending token

A program is refused at the first token with which no program of the grammar begins, or at its end.
The parser gets there by trying alternatives and giving them up, and it does not keep a table of what
can come next; it is the place farthest into the source at which an alternative failed.
-/

namespace SceneScript

open Grammar Cursor SceneScript.Parser

/-- The tokens before the place of an error begin a sentence and are none themselves if the place is
the end, and no sentence goes on with the token that stands there.  Only an `end` behind a program is
refused although it could be a name. -/
structure Offends (source : String) (e : ParseError) (ts : List Token) (c : Cursor) : Prop where
  reads : (start source).Reads ts c
  settled : c.Settled
  pos : c.pos = e.position.offset
  isViable : IsViable ts
  not_isSentence : c.isEnd = true → ¬IsSentence ts
  not_isViable (t : Token) (d : Cursor) : c.token? = .ok (some (t, d)) →
    ¬IsViable (ts ++ [t]) ∨ e.kind = .trailingInput ∧ t = word "end" ∧ IsSentence ts

namespace Parser

variable {source : String} {ts : List Token} {c d : Cursor} {ss : List Statement} {s : State}

/-- No sentence goes on with a token that the parser stops at. -/
theorem not_isViable_of_many {t : Token} (hreads : (start source).Reads ts c) (hc : c.Settled)
    (htoken : c.token? = .ok (some (t, d)))
    (hmany : (level .nothing nestingLimit).statement.many (State.start source) = .matched ss s)
    (hcursor : s.cursor.pos ≤ c.pos) (hfarthest : s.farthest.place.pos ≤ c.pos) :
    ¬IsViable (ts ++ [t]) := by
  intro hviable
  have hnext := (next?_eq_some_iff hc).2 htoken
  -- the sentence may hold names that cannot be written: it is mended behind the token
  have hspellable := spellable_of_reads (hreads.trans (reads_of_next? hnext))
  obtain ⟨other, us, hahead, hsentence⟩ := exists_source_of_isViable hviable hspellable
  rw [List.append_assoc, List.singleton_append] at hahead hsentence
  exact not_isSentence_of_many ⟨hreads, hc, hnext, hahead⟩ hmany hcursor hfarthest hsentence

/-- A sentence does not end where the parser stops before the end. -/
theorem not_isSentence_of_isEnd (hreads : (start source).Reads ts c) (hc : c.Settled)
    (hend : c.isEnd = true)
    (hmany : (level .nothing nestingLimit).statement.many (State.start source) = .matched ss s)
    (hstop : s.cursor.afterTrivia.isEnd = false) : ¬IsSentence ts := by
  intro hsentence
  have hahead : (start source).Ahead ts := by
    have hnothing : c.Ahead [] := by
      show c.afterTrivia.isEnd = true
      rwa [hc]
    simpa using hreads.ahead hnothing
  rcases sentence_many hahead hsentence with ⟨ss', w, hother, hend'⟩ | ⟨place, hother⟩
  · rw [hmany] at hother
    cases hother
    rw [hstop] at hend'
    cases hend'
  · rw [hmany] at hother
    cases hother

theorem token_of_isStrayEnd {t : Token} (hc : c.Settled) (h : isStrayEnd c = true)
    (htoken : c.token? = .ok (some (t, d))) : t = word "end" := by
  have hnext := (next?_eq_some_iff hc).2 htoken
  unfold isStrayEnd at h
  split at h
  · rename_i after hafter
    have hword := (afterKeyword?_eq_some_iff hc (by decide)).1 hafter
    rw [hnext] at hword
    rw [(Prod.mk.inj (Option.some.inj hword)).1]
    exact ofWord_eq_word (by decide)
  · cases h

theorem exists_offends {e : ParseError} (h : parseWith .nothing source = .error e)
    (hdeep : ∀ limit, e.kind ≠ .nestingTooDeep limit) (hres : ∀ word, e.kind ≠ .reservedWord word) :
    ∃ ts c, Offends source e ts c := by
  rcases refused_of_parseWith h with ⟨a, _, rfl⟩ | ⟨ss, s, hmany, hstop, rfl⟩
  · cases a with
    | tooDeep place => exact absurd rfl (hdeep nestingLimit)
    | reservedWord place word => exact absurd rfl (hres word)
  · obtain ⟨⟨ts, hreads, hsentence⟩, hlocated⟩ := located_of_many hmany
    have hplace : (start source).Reads ts s.cursor.afterTrivia := by
      simpa using hreads.trans (reads_afterTrivia s.cursor)
    have hsettled := settled_afterTrivia s.cursor
    have hcursor := (onward_afterTrivia s.cursor).pos_le
    have hloud := pos_le_of_many hmany
    -- a stray `end` is refused by itself, and anything else where the farthest failure is
    cases leftover_leftoverError source s.farthest s.cursor.afterTrivia with
    | stray hstray hkind hposition =>
      refine ⟨ts, _, hplace, hsettled, ?_, hsentence.isViable, ?_, fun t d htoken => .inr ?_⟩
      · rw [hposition, offset_ofOffset hplace.onward]
      · exact fun hend => not_isSentence_of_isEnd hplace hsettled hend hmany hstop
      · exact ⟨hkind, token_of_isStrayEnd hsettled hstray htoken, hsentence⟩
    | failure _ hfar _ hposition =>
      obtain ⟨⟨us, hus, hfs, hviable⟩, _⟩ := hlocated.reached_of_far hfar
      refine ⟨us, _, hus, hfs, ?_, hviable, ?_, fun t d htoken => .inl ?_⟩
      · rw [hposition, offset_ofOffset hus.onward]
      · exact fun hend => not_isSentence_of_isEnd hus hfs hend hmany hstop
      · exact not_isViable_of_many hus hfs htoken hmany (by omega) (Nat.le_refl _)
    | trailing _ hle _ _ hposition =>
      refine ⟨ts, _, hplace, hsettled, ?_, hsentence.isViable, ?_, fun t d htoken => .inl ?_⟩
      · rw [hposition, offset_ofOffset hplace.onward]
      · exact fun hend => not_isSentence_of_isEnd hplace hsettled hend hmany hstop
      · exact not_isViable_of_many hplace hsettled htoken hmany hcursor hle

end Parser

/-- An error that is not about nesting or a reserved word is at the first token that no program goes
on with, or at the end of a source that is none. -/
theorem parse_error_at_first_offending_token {source : String} {e : ParseError}
    (h : parse source = .error e) (hdeep : ∀ limit, e.kind ≠ .nestingTooDeep limit)
    (hres : ∀ word, e.kind ≠ .reservedWord word) : ∃ ts c, Offends source e ts c := by
  have hparse : parse source = parseWith .nothing source := parseWith_tables source
  rw [hparse] at h
  exact exists_offends h hdeep hres

/-- The second operator of `x = 1 + * 2` is refused. -/
theorem parse_error_at_second_operator :
    ∃ e, parse "x = 1 + * 2" = .error e ∧ (∀ limit, e.kind ≠ .nestingTooDeep limit)
      ∧ (∀ word, e.kind ≠ .reservedWord word) ∧ e.position.offset = 8
      ∧ ∃ ts c, Offends "x = 1 + * 2" e ts c := by
  obtain ⟨e, he, hkind, hoffset⟩ : ∃ e, parse "x = 1 + * 2" = .error e ∧ e.kind = .unexpected
      ∧ e.position.offset = 8 := exists_error_of_decide (by decide +kernel)
  have hdeep : ∀ limit, e.kind ≠ .nestingTooDeep limit := by simp [hkind]
  have hres : ∀ word, e.kind ≠ .reservedWord word := by simp [hkind]
  exact ⟨e, he, hdeep, hres, hoffset, parse_error_at_first_offending_token he hdeep hres⟩

end SceneScript
