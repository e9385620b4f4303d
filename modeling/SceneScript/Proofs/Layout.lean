import SceneScript.Proofs.Parser.Alongside

/-!
# Layout

The parser works on the text of a source, but what it answers depends on the tokens only.  Blanks,
comments, the quotes of a string and the spelling of a number make no difference, except for where
things stand.
-/

namespace SceneScript

open Cursor SceneScript.Parser Grammar

/-- The kind of error without the line that it tells. -/
def Problem.withoutLine : Problem → Problem
  | .unclosedBlock keyword _ => .unclosedBlock keyword 0
  | p => p

/-- Where the token with an index starts, or the end of the source if there is none. -/
def tokenOffset (source : String) (ls : List Lexeme) (index : Nat) : Nat :=
  (ls[index]?.map Lexeme.start).getD (Text.byteLength source.toList)

namespace Parser

/-- Sources with the same tokens are read side by side, without errors on the way. -/
theorem alongside_of_ahead {c₀ d₀ : Cursor} {all : List Token} (hc : c₀.Ahead all)
    (hd : d₀.Ahead all) : Alongside (fun _ _ => False) c₀ d₀ where
  abreast {ts c d} hcr hdr hcs hds := by
    obtain ⟨more, rfl, hcmore⟩ := hcr.split_ahead hc
    obtain ⟨more', hmore', hdmore⟩ := hdr.split_ahead hd
    obtain rfl := List.append_cancel_left hmore'
    cases more with
    | nil => exact .nothing (hcs ▸ hcmore) (hds ▸ hdmore)
    | cons t more =>
      obtain ⟨c', hc', _⟩ := hcmore
      obtain ⟨d', hd', _⟩ := hdmore
      exact .token t c' d' hc' hd'
  first e he := by
    cases all with
    | nil =>
      rw [token?_of_isEnd hc] at he
      cases he
    | cons t more =>
      obtain ⟨c', hc', _⟩ := hc
      rw [← next?_afterTrivia, next?_of_token?_error (settled_afterTrivia _) he] at hc'
      cases hc'

theorem withoutLine_eq {c₀ d₀ : Cursor} {source source' : String} {p q : Problem}
    (h : SameKind (fun _ _ => False) c₀ d₀ source source' p q) :
    p.withoutLine = q.withoutLine := by
  cases h with
  | same => rfl
  | lexical hfalse => exact hfalse.elim
  | unclosed _ => rfl

theorem offset_eq_tokenOffset {source : String} {ls : List Lexeme} {ts : List Token} {c : Cursor}
    (h : (start source).Reads ts c) (hc : c.Settled) (hls : tokenize source = .ok ls) :
    (Position.ofOffset source c.pos).offset = tokenOffset source ls ts.length := by
  have hstart := (start_of_reads h hc hls).2
  rw [offset_ofOffset h.onward]
  unfold tokenOffset
  cases hl : ls[ts.length]? with
  | some lexeme =>
    rw [hl] at hstart
    exact hstart.symm
  | none =>
    rw [hl] at hstart
    exact pos_of_isEnd h.onward hstart

/-- Parsers of sources with the same tokens answer the same. -/
theorem parseWith_same {source source' : String} {all : List Token}
    (h : (start source).Ahead all) (h' : (start source').Ahead all) :
    (∃ p, parseWith .nothing source = .ok p ∧ parseWith .nothing source' = .ok p)
      ∨ ∃ e e', parseWith .nothing source = .error e ∧ parseWith .nothing source' = .error e'
        ∧ SameError (fun _ _ => False) (start source) (start source') source source' e e' := by
  have hsame := (alongside_of_ahead h h').answer_same source source' nestingLimit []
    (s := State.start source) (t := State.start source') rfl rfl
    (.early (early_start source _) (early_start source' _))
  rw [Reply.map_nil_append, ← parseWith_eq_answer, ← parseWith_eq_answer] at hsame
  rcases hsame with ⟨ss, hss, hss'⟩ | herror
  · exact .inl ⟨_, hss, hss'⟩
  · exact .inr herror

end Parser

/-- Sources with the same tokens have the same program, or they are refused for the same reason at
the same token. -/
theorem parse_of_same_tokens {source source' : String} {ls ls' : List Lexeme}
    (h : tokenize source = .ok ls) (h' : tokenize source' = .ok ls')
    (htokens : ls.map Lexeme.token = ls'.map Lexeme.token) :
    (∃ p, parse source = .ok p ∧ parse source' = .ok p)
      ∨ ∃ e e', parse source = .error e ∧ parse source' = .error e'
        ∧ e.kind.withoutLine = e'.kind.withoutLine ∧ e.expected = e'.expected
        ∧ e.suggestion = e'.suggestion
        ∧ ∃ index ≤ ls.length, e.position.offset = tokenOffset source ls index
          ∧ e'.position.offset = tokenOffset source' ls' index := by
  have hparse : parse source = parseWith .nothing source := parseWith_tables source
  have hparse' : parse source' = parseWith .nothing source' := parseWith_tables source'
  rw [hparse, hparse']
  rcases parseWith_same (ahead_of_lexemes h) (htokens ▸ ahead_of_lexemes h') with
    hok | ⟨e, e', he, he', hsame⟩
  · exact .inl hok
  · obtain ⟨c, d, ⟨ts, hc, hd, hcs, hds⟩, hposition, hposition', _⟩ := hsame.place
    refine .inr ⟨e, e', he, he', withoutLine_eq hsame.kind, hsame.expected, hsame.suggestion,
      ts.length, (start_of_reads hc hcs h).1, ?_, ?_⟩
    · rw [hposition, offset_eq_tokenOffset hc hcs h]
    · rw [hposition', offset_eq_tokenOffset hd hds h']

/-- A block that is not closed, in two layouts: both are refused at the end, for the same reason. -/
theorem parse_of_same_tokens_in_open_block :
    ∃ ls ls' e e', tokenize "do draw('a')" = .ok ls ∧ tokenize "do\n  draw (\"a\" )" = .ok ls'
      ∧ ls.map Lexeme.token = ls'.map Lexeme.token
      ∧ parse "do draw('a')" = .error e ∧ e.kind = .unclosedBlock "do" 1 ∧ e.position = ⟨12, 1, 13⟩
      ∧ parse "do\n  draw (\"a\" )" = .error e' ∧ e'.kind = .unclosedBlock "do" 1
      ∧ e'.position = ⟨16, 2, 14⟩
      ∧ e.kind.withoutLine = e'.kind.withoutLine ∧ e.expected = e'.expected
      ∧ e.suggestion = e'.suggestion
      ∧ ∃ index ≤ ls.length, e.position.offset = tokenOffset "do draw('a')" ls index
        ∧ e'.position.offset = tokenOffset "do\n  draw (\"a\" )" ls' index := by
  have h : tokenize "do draw('a')" = .ok [⟨.keyword "do", 0, 2⟩, ⟨.keyword "draw", 3, 7⟩,
      ⟨.punctuation '(', 7, 8⟩, ⟨.text "a", 8, 11⟩, ⟨.punctuation ')', 11, 12⟩] :=
    eq_ok_of_toOption (by decide +kernel)
  have h' : tokenize "do\n  draw (\"a\" )" = .ok [⟨.keyword "do", 0, 2⟩, ⟨.keyword "draw", 5, 9⟩,
      ⟨.punctuation '(', 10, 11⟩, ⟨.text "a", 11, 14⟩, ⟨.punctuation ')', 15, 16⟩] :=
    eq_ok_of_toOption (by decide +kernel)
  obtain ⟨e, he, hkind, hposition⟩ : ∃ e, parse "do draw('a')" = .error e
      ∧ e.kind = .unclosedBlock "do" 1 ∧ e.position = ⟨12, 1, 13⟩ :=
    exists_error_of_decide (by decide +kernel)
  obtain ⟨e', he', hkind', hposition'⟩ : ∃ e', parse "do\n  draw (\"a\" )" = .error e'
      ∧ e'.kind = .unclosedBlock "do" 1 ∧ e'.position = ⟨16, 2, 14⟩ :=
    exists_error_of_decide (by decide +kernel)
  refine ⟨_, _, e, e', h, h', rfl, he, hkind, hposition, he', hkind', hposition', ?_⟩
  -- both are refused, so what is said of two errors is said of these
  rcases parse_of_same_tokens h h' rfl with ⟨p, hp, _⟩ | ⟨f, f', hf, hf', hsame⟩
  · rw [he] at hp
    cases hp
  · rw [he] at hf
    rw [he'] at hf'
    cases hf
    cases hf'
    exact hsame

end SceneScript
