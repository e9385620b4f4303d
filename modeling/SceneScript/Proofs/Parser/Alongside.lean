import SceneScript.Proofs.Parser.Farthest
import SceneScript.Proofs.Parser.Reached

/-!
# Two sources with the same tokens

Two parsers go in tandem that read the same tokens from their starts on, wherever these are.  What
they note as the farthest failure is at the same token for both.  Only what was noted at the start
or before may differ; it has no part in an error, because a program that ends early has failed no
earlier than where it ends.
-/

namespace SceneScript.Parser

open Rule Grammar Cursor Computability

variable {E : LexicalError → LexicalError → Prop} {c₀ d₀ c d : Cursor} {ts us : List Token}
variable {f g : Farthest} {s t : State}

/-- Two cursors find the same token, or nothing, or errors in relation. -/
inductive Abreast (E : LexicalError → LexicalError → Prop) (c d : Cursor) : Prop
  | token (t : Token) (c' d' : Cursor) : c.next? = some (t, c') → d.next? = some (t, d') →
      Abreast E c d
  | nothing : c.isEnd = true → d.isEnd = true → Abreast E c d
  | error (e e' : LexicalError) : c.token? = .error e → d.token? = .error e' → E e e' →
      (c.number? = .error e ↔ d.number? = .error e') →
      (c.text? = .error e ↔ d.text? = .error e') → Abreast E c d

/-- The same tokens are read from two starts, up to errors in relation.  The first token is none. -/
structure Alongside (E : LexicalError → LexicalError → Prop) (c₀ d₀ : Cursor) : Prop where
  abreast {ts : List Token} {c d : Cursor} : c₀.Reads ts c → d₀.Reads ts d → c.Settled →
    d.Settled → Abreast E c d
  first (e : LexicalError) : c₀.afterTrivia.token? ≠ .error e

/-- The same tokens lead from the starts to two places. -/
def Same (c₀ d₀ c d : Cursor) : Prop :=
  ∃ ts, c₀.Reads ts c ∧ d₀.Reads ts d ∧ c.Settled ∧ d.Settled

/-- The same reason, up to where things stand. -/
inductive SameReason (E : LexicalError → LexicalError → Prop) (c₀ d₀ : Cursor) :
    Reason → Reason → Prop
  | lexical {e e' : LexicalError} : E e e' → SameReason E c₀ d₀ (.lexical e) (.lexical e')
  | unclosed {keyword : String} {c d : Cursor} : Same c₀ d₀ c d →
      SameReason E c₀ d₀ (.unclosed keyword c) (.unclosed keyword d)

/-! ## The farthest failures -/

/-- The failure is before the first token, or it is there and has no reason. -/
def Farthest.Early (c₀ : Cursor) (f : Farthest) : Prop :=
  f.place.pos < c₀.afterTrivia.pos ∨ f.place.pos = c₀.afterTrivia.pos ∧ f.reason = none

/-- A parser starts where nothing has failed. -/
theorem early_start (source : String) (c : Cursor) : (State.start source).farthest.Early c :=
  (Nat.eq_zero_or_pos c.afterTrivia.pos).symm.imp id fun hzero => ⟨hzero.symm, rfl⟩

/-- Both failures are early, or they are at the same token. -/
inductive Farthest.Beside (E : LexicalError → LexicalError → Prop) (c₀ d₀ : Cursor)
    (f g : Farthest) : Prop
  | early : f.Early c₀ → g.Early d₀ → Beside E c₀ d₀ f g
  | late (ts : List Token) : ts ≠ [] → c₀.Reads ts f.place → d₀.Reads ts g.place →
      f.place.Settled → g.place.Settled → f.expected = g.expected →
      Option.Rel (SameReason E c₀ d₀) f.reason g.reason → Beside E c₀ d₀ f g

theorem Farthest.Early.lt (h : f.Early c₀) (hc : c₀.Reads ts c) (hts : ts ≠ []) :
    f.place.pos < c.pos := by
  have hpos := hc.pos_lt hts
  rcases h with hlt | ⟨heq, _⟩
  · omega
  · omega

theorem Farthest.Early.expect (h : f.Early c₀) (e : Expectation) :
    (f.expect c₀.afterTrivia e).Early c₀ := by
  rcases h with hlt | ⟨heq, hreason⟩
  · rw [expect_of_lt hlt]
    exact .inr ⟨rfl, rfl⟩
  · rw [expect_of_eq heq]
    split
    · exact .inr ⟨heq, hreason⟩
    · exact .inr ⟨heq, hreason⟩

/-- Two places behind the same tokens are before, at and behind two others alike. -/
theorem compare_places (hc : c₀.Reads ts c) (hd : d₀.Reads ts d) (hcs : c.Settled)
    (hds : d.Settled) (hf : c₀.Reads us f.place) (hg : d₀.Reads us g.place)
    (hfs : f.place.Settled) (hgs : g.place.Settled) :
    (ts ≠ [] ∧ f.place.pos < c.pos ∧ g.place.pos < d.pos)
      ∨ (ts = us ∧ f.place = c ∧ g.place = d)
      ∨ (c.pos < f.place.pos ∧ d.pos < g.place.pos) := by
  rcases Nat.lt_trichotomy us.length ts.length with hlt | heq | hgt
  · refine .inl ⟨?_, hf.pos_lt_of_length_lt hc hfs hcs hlt, hg.pos_lt_of_length_lt hd hgs hds hlt⟩
    exact List.length_pos_iff.1 (Nat.zero_lt_of_lt hlt)
  · obtain rfl := hf.eq_of_length_eq hc heq
    exact .inr (.inl ⟨rfl, hf.unique hc hfs hcs, hg.unique hd hgs hds⟩)
  · exact .inr (.inr ⟨hc.pos_lt_of_length_lt hf hcs hfs hgt, hd.pos_lt_of_length_lt hg hds hgs hgt⟩)

theorem Farthest.Beside.expect (h : f.Beside E c₀ d₀ g) (hc : c₀.Reads ts c) (hd : d₀.Reads ts d)
    (hcs : c.Settled) (hds : d.Settled) (e : Expectation) :
    (f.expect c e).Beside E c₀ d₀ (g.expect d e) := by
  cases h with
  | early hf hg =>
    by_cases hts : ts = []
    · subst hts
      have hc' : c₀.afterTrivia = c := hc.2.trans hcs
      have hd' : d₀.afterTrivia = d := hd.2.trans hds
      subst hc' hd'
      exact .early (hf.expect e) (hg.expect e)
    · rw [expect_of_lt (hf.lt hc hts), expect_of_lt (hg.lt hd hts)]
      exact .late ts hts hc hd hcs hds rfl .none
  | late us hus hf hg hfs hgs hexpected hreason =>
    rcases compare_places hc hd hcs hds hf hg hfs hgs with
      ⟨hts, hlt, hlt'⟩ | ⟨rfl, heq, heq'⟩ | ⟨hgt, hgt'⟩
    · rw [expect_of_lt hlt, expect_of_lt hlt']
      exact .late ts hts hc hd hcs hds rfl .none
    · rw [expect_of_eq (congrArg _ heq), expect_of_eq (congrArg _ heq'), ← hexpected]
      split
      · exact .late ts hus hf hg hfs hgs rfl hreason
      · exact .late ts hus hf hg hfs hgs hexpected hreason
    · rw [expect_of_gt hgt, expect_of_gt hgt']
      exact .late us hus hf hg hfs hgs hexpected hreason

/-- A reason is found behind the start only. -/
theorem Farthest.Beside.blame {reason reason' : Reason} (h : f.Beside E c₀ d₀ g)
    (hc : c₀.Reads ts c) (hd : d₀.Reads ts d) (hcs : c.Settled) (hds : d.Settled) (hts : ts ≠ [])
    (hnew : SameReason E c₀ d₀ reason reason') :
    (f.blame c reason).Beside E c₀ d₀ (g.blame d reason') := by
  cases h with
  | early hf hg =>
    rw [blame_of_lt (hf.lt hc hts), blame_of_lt (hg.lt hd hts)]
    exact .late ts hts hc hd hcs hds rfl (.some hnew)
  | late us hus hf hg hfs hgs hexpected hreason =>
    rcases compare_places hc hd hcs hds hf hg hfs hgs with
      ⟨_, hlt, hlt'⟩ | ⟨rfl, heq, heq'⟩ | ⟨hgt, hgt'⟩
    · rw [blame_of_lt hlt, blame_of_lt hlt']
      exact .late ts hts hc hd hcs hds rfl (.some hnew)
    · rw [blame_of_eq (congrArg _ heq), blame_of_eq (congrArg _ heq')]
      -- the first reason stays, and both failures have one or neither has
      cases hf' : f.reason <;> cases hg' : g.reason <;> rw [hf', hg'] at hreason
      · exact .late ts hts hf hg hfs hgs hexpected (.some hnew)
      · cases hreason
      · cases hreason
      · refine .late ts hts hf hg hfs hgs hexpected ?_
        simpa [hf', hg'] using hreason
    · rw [blame_of_gt hgt, blame_of_gt hgt']
      exact .late us hus hf hg hfs hgs hexpected hreason

/-! ## What two cursors find -/

theorem Abreast.next? (h : Abreast E c d) (hc : c.Settled) (hd : d.Settled) :
    (∃ t c' d', c.next? = some (t, c') ∧ d.next? = some (t, d'))
      ∨ c.next? = none ∧ d.next? = none := by
  cases h with
  | token t c' d' hc' hd' => exact .inl ⟨t, c', d', hc', hd'⟩
  | nothing hc' hd' =>
    exact .inr ⟨next?_eq_none_of_isEnd (hc.symm ▸ hc'), next?_eq_none_of_isEnd (hd.symm ▸ hd')⟩
  | error e e' he he' =>
    exact .inr ⟨next?_of_token?_error hc he, next?_of_token?_error hd he'⟩

/-- A scan for a kind of token finds nothing, or the error that stands there. -/
def Scans {α : Type} (c : Cursor) (r : Except LexicalError (Option (α × Cursor))) : Prop :=
  r = .ok none ∨ ∃ e, r = .error e ∧ c.token? = .error e

/-- Both scans find nothing, or both find errors in relation. -/
def SameScan {α : Type} (E : LexicalError → LexicalError → Prop) (c : Cursor)
    (r q : Except LexicalError (Option (α × Cursor))) : Prop :=
  (r = .ok none ∧ q = .ok none)
    ∨ ∃ e e', r = .error e ∧ q = .error e' ∧ E e e' ∧ c.token? = .error e

theorem sameScan_of_scans {α : Type} {r q : Except LexicalError (Option (α × Cursor))}
    {e e' : LexicalError} (hr : Scans c r) (hq : Scans d q) (hc : c.token? = .error e)
    (hd : d.token? = .error e') (hE : E e e') (hsame : r = .error e ↔ q = .error e') :
    SameScan E c r q := by
  rcases hr with hr | ⟨a, hr, ha⟩
  · rcases hq with hq | ⟨b, hq, hb⟩
    · exact .inl ⟨hr, hq⟩
    · obtain rfl := Except.error.inj (hd.symm.trans hb)
      rw [hsame.2 hq] at hr
      cases hr
  · obtain rfl := Except.error.inj (hc.symm.trans ha)
    exact .inr ⟨e, e', hr, hsame.1 hr, hE, hc⟩

theorem Abreast.number? (h : Abreast E c d) (hcs : c.Settled) (hds : d.Settled)
    (hc : c.next? = none) (hd : d.next? = none) : SameScan E c c.number? d.number? := by
  cases h with
  | token t c' d' hc' _ =>
    rw [hc] at hc'
    cases hc'
  | nothing hc' hd' => exact .inl ⟨Bare.number? (.inl hc'), Bare.number? (.inl hd')⟩
  | error e e' he he' hE hnumber _ =>
    exact sameScan_of_scans (number?_of_next?_eq_none hcs hc) (number?_of_next?_eq_none hds hd) he
      he' hE hnumber

theorem Abreast.text? (h : Abreast E c d) (hcs : c.Settled) (hds : d.Settled)
    (hc : c.next? = none) (hd : d.next? = none) : SameScan E c c.text? d.text? := by
  cases h with
  | token t c' d' hc' _ =>
    rw [hc] at hc'
    cases hc'
  | nothing hc' hd' => exact .inl ⟨Bare.text? (.inl hc'), Bare.text? (.inl hd')⟩
  | error e e' he he' hE _ htext =>
    exact sameScan_of_scans (text?_of_next?_eq_none hcs hc) (text?_of_next?_eq_none hds hd) he he'
      hE htext

/-! ## Two parsers side by side -/

/-- Literals that both parsers fail to find. -/
theorem Alongside.literal {α : Type}
    {scan : Cursor → Except LexicalError (Option (α × Cursor))} (h : Alongside E c₀ d₀)
    (hs : c₀.Reads ts s.cursor) (ht : d₀.Reads ts t.cursor) (hss : s.cursor.Settled)
    (hts : t.cursor.Settled) (hst : s.farthest.Beside E c₀ d₀ t.farthest)
    (hscan : SameScan E s.cursor (scan s.cursor) (scan t.cursor)) {A : Abort → Abort → Prop} :
    Reply.Paired (fun _ _ _ _ => False)
      (fun s t => s.farthest.Beside E c₀ d₀ t.farthest) A
      (Rule.literal scan s) (Rule.literal scan t) := by
  unfold Rule.literal
  rcases hscan with ⟨hsnone, htnone⟩ | ⟨e, e', hserror, hterror, hE, htoken⟩
  · rw [hsnone, htnone]
    exact hst
  · rw [hserror, hterror]
    refine hst.blame hs ht hss hts ?_ (.lexical hE)
    rintro rfl
    refine h.first e ?_
    rw [hs.2, hss, htoken]

/-- Two parsers of the same tokens. -/
def beside (h : Alongside E c₀ d₀) : Tandem where
  viable := Set.univ
  viable_of_append _ := trivial
  cursors ts c d := c₀.Reads ts c ∧ d₀.Reads ts d
  states s t := s.farthest.Beside E c₀ d₀ t.farthest
  aborts
    | .tooDeep c, .tooDeep d => Same c₀ d₀ c d
    | .reservedWord c word, .reservedWord d word' => Same c₀ d₀ c d ∧ word = word'
    | _, _ => False
  beyond _ := False
  beyond_of_le _ := id
  not_beyond _ := id
  moveTo _ _ h := h
  trivia := reads_both_afterTrivia
  next := by
    rintro ts c d ⟨hc, hd⟩ hcs hds
    rcases (h.abreast hc hd hcs hds).next? hcs hds with ⟨t, c', d', hc', hd'⟩ | hnone
    · exact .inl ⟨t, c', d', hc', hd',
        .inl ⟨hc.trans (reads_of_next? hc'), hd.trans (reads_of_next? hd')⟩⟩
    · exact .inr (.inl hnone)
  number := by
    rintro ts s t ⟨hs, ht⟩ hss hts hsnone htnone _ hst
    exact h.literal hs ht hss hts hst ((h.abreast hs ht hss hts).number? hss hts hsnone htnone)
  text := by
    rintro ts s t ⟨hs, ht⟩ hss hts hsnone htnone _ hst
    exact h.literal hs ht hss hts hst ((h.abreast hs ht hss hts).text? hss hts hsnone htnone)
  expect := by
    rintro ts s t e ⟨hs, ht⟩ hss hts _ _ _ hst
    exact hst.expect hs ht hss hts e
  unclosed := by
    rintro ts us s t c d keyword ⟨hc, hd⟩ hcs hds hopen ⟨hs, ht⟩ hss hts _ hst
    refine hst.blame hs ht hss hts ?_ (.unclosed ⟨ts, hc, hd, hcs, hds⟩)
    cases hopen <;> simp
  tooDeep := by
    rintro ts c d ⟨hc, hd⟩ hcs hds _
    exact ⟨ts, hc, hd, hcs, hds⟩
  reserved := by
    rintro ts c d word ⟨hc, hd⟩ hcs hds _ _ _
    exact ⟨⟨ts, hc, hd, hcs, hds⟩, rfl⟩

/-! ## The same errors -/

variable {source source' : String}

/-- The kind of error says nothing of where things stand. -/
def IsPlaceless : Problem → Prop
  | .lexical _ | .unclosedBlock .. => False
  | _ => True

/-- The same kind of error, up to where things stand. -/
inductive SameKind (E : LexicalError → LexicalError → Prop) (c₀ d₀ : Cursor)
    (source source' : String) : Problem → Problem → Prop
  | same (p : Problem) : IsPlaceless p → SameKind E c₀ d₀ source source' p p
  | lexical {e e' : LexicalError} : E e e' →
      SameKind E c₀ d₀ source source' (.lexical e) (.lexical e')
  | unclosed {keyword : String} {c d : Cursor} : Same c₀ d₀ c d →
      SameKind E c₀ d₀ source source'
        (.unclosedBlock keyword (Position.ofOffset source c.pos).line)
        (.unclosedBlock keyword (Position.ofOffset source' d.pos).line)

/-- The same error, up to where things stand and how they are spelled. -/
structure SameError (E : LexicalError → LexicalError → Prop) (c₀ d₀ : Cursor)
    (source source' : String) (e e' : ParseError) : Prop where
  kind : SameKind E c₀ d₀ source source' e.kind e'.kind
  place : ∃ c d, Same c₀ d₀ c d ∧ e.position = Position.ofOffset source c.pos
    ∧ e'.position = Position.ofOffset source' d.pos
    ∧ (e.found = e'.found ∨ e.found = c.describe ∧ e'.found = d.describe)
  expected : e.expected = e'.expected
  suggestion : e.suggestion = e'.suggestion

theorem Abreast.word?_eq (h : Abreast E c d) (hcs : c.Settled) (hds : d.Settled) :
    c.word? = d.word? := by
  rcases h.next? hcs hds with ⟨t, c', d', hc, hd⟩ | ⟨hc, hd⟩
  · by_cases ht : ∃ word, t = Token.ofWord word
    · obtain ⟨word, rfl⟩ := ht
      obtain rfl := eq_afterWord_of_next? hcs hc
      obtain rfl := eq_afterWord_of_next? hds hd
      rw [(word?_eq_some_iff hcs).2 hc, (word?_eq_some_iff hds).2 hd]
    · have hne : ∀ {c d : Cursor}, c.Settled → c.next? = some (t, d) → c.word? = none := by
        intro c d hc hnext
        rw [Option.eq_none_iff_forall_ne_some]
        intro word hword
        rw [(word?_eq_some_iff hc).1 hword] at hnext
        exact ht ⟨word, (Prod.mk.inj (Option.some.inj hnext)).1.symm⟩
      rw [hne hcs hc, hne hds hd]
  · have hne : ∀ {c : Cursor}, c.Settled → c.next? = none → c.word? = none := by
      intro c hc hnext
      rw [Option.eq_none_iff_forall_ne_some]
      intro word hword
      rw [(word?_eq_some_iff hc).1 hword] at hnext
      cases hnext
    rw [hne hcs hc, hne hds hd]

variable (h : Alongside E c₀ d₀)

include h

theorem Alongside.word?_eq (hcd : Same c₀ d₀ c d) : c.word? = d.word? := by
  obtain ⟨ts, hc, hd, hcs, hds⟩ := hcd
  exact (h.abreast hc hd hcs hds).word?_eq hcs hds

theorem Alongside.suggestionAt_eq {places places' : List Cursor}
    (hplaces : List.Forall₂ (Same c₀ d₀) places places') :
    suggestionAt places = suggestionAt places' := by
  unfold suggestionAt
  induction hplaces with
  | nil => rfl
  | cons hfirst _ ih => rw [List.findSome?_cons, List.findSome?_cons, h.word?_eq hfirst, ih]

/-- A stray `end` stands here for both or for none. -/
theorem Alongside.isStrayEnd_eq (hcd : Same c₀ d₀ c d) : isStrayEnd c = isStrayEnd d := by
  have hword := h.word?_eq hcd
  obtain ⟨ts, hc, hd, hcs, hds⟩ := hcd
  -- an `end` is stray if no `=` comes behind it, which is the same for both
  have hnone : ∀ {c : Cursor}, c.word? ≠ some "end" → c.afterKeyword? "end" = none := by
    intro c hne
    rw [Option.eq_none_iff_forall_ne_some]
    exact fun d hd => hne (word?_of_afterKeyword? (by decide) hd).1
  unfold isStrayEnd
  by_cases hend : c.word? = some "end"
  · have hend' := hword ▸ hend
    rw [afterKeyword?_of_word? hend, afterKeyword?_of_word? hend']
    have hread := reads_of_next? ((word?_eq_some_iff hcs).1 hend)
    have hread' := reads_of_next? ((word?_eq_some_iff hds).1 hend')
    have hcursors : (beside h).cursors (ts ++ [Token.ofWord "end"])
        (c.afterWord "end").afterTrivia (d.afterWord "end").afterTrivia :=
      (beside h).trivia ⟨hc.trans hread, hd.trans hread'⟩
    have hequals := Tandem.afterSymbol?_isSome_eq isSymbol_equals hcursors
      (settled_afterTrivia _) (settled_afterTrivia _)
    show Option.isNone _ = Option.isNone _
    rw [← Option.not_isSome, ← Option.not_isSome, hequals]
  · rw [hnone hend, hnone (hword ▸ hend)]

theorem Alongside.isEnd_eq (hcd : Same c₀ d₀ c d) : c.isEnd = d.isEnd := by
  obtain ⟨ts, hc, hd, hcs, hds⟩ := hcd
  have hfalse : ∀ {c : Cursor} {r : Except LexicalError (Option (Token × Cursor))},
      c.token? = r → r ≠ .ok none → c.isEnd = false := by
    rintro c _ rfl hne
    exact Bool.not_eq_true _ ▸ fun hend => hne (token?_of_isEnd hend)
  cases h.abreast hc hd hcs hds with
  | token t c' d' hc' hd' =>
    rw [hfalse ((next?_eq_some_iff hcs).1 hc') nofun, hfalse ((next?_eq_some_iff hds).1 hd') nofun]
  | nothing hc' hd' => rw [hc', hd']
  | error e e' he he' => rw [hfalse he nofun, hfalse he' nofun]

theorem Alongside.trailingKind_same (hcd : Same c₀ d₀ c d) :
    SameKind E c₀ d₀ source source' (trailingKind c) (trailingKind d) := by
  obtain ⟨ts, hc, hd, hcs, hds⟩ := hcd
  rw [trailingKind_eq hcs, trailingKind_eq hds]
  cases h.abreast hc hd hcs hds with
  | token t c' d' hc' hd' =>
    rw [(next?_eq_some_iff hcs).1 hc', (next?_eq_some_iff hds).1 hd']
    exact .same _ trivial
  | nothing hc' hd' =>
    rw [token?_of_isEnd hc', token?_of_isEnd hd']
    exact .same _ trivial
  | error e e' he he' hE =>
    rw [he, he']
    exact .lexical hE

omit h in
theorem kind_same (hreason : Option.Rel (SameReason E c₀ d₀) f.reason g.reason) :
    SameKind E c₀ d₀ source source' (f.kind source) (g.kind source') := by
  unfold Farthest.kind
  cases hf : f.reason <;> cases hg : g.reason <;> rw [hf, hg] at hreason
  · exact .same _ trivial
  · cases hreason
  · cases hreason
  · cases hreason with
    | some hsame =>
      cases hsame with
      | lexical hE => exact .lexical hE
      | unclosed hplaces => exact .unclosed hplaces

omit h in
/-- An early failure that is no earlier than where a program ends is no reason to refuse it. -/
theorem Farthest.Early.not_beyond (hf : f.Early c₀) (hc : c₀.Reads ts c) (hcs : c.Settled)
    (hle : c.pos ≤ f.place.pos) : (decide (c.pos < f.place.pos) || f.reason.isSome) = false := by
  have hfirst : c₀.afterTrivia.pos ≤ c.pos := by
    by_cases hts : ts = []
    · subst hts
      exact Nat.le_of_eq (congrArg Cursor.pos (hc.2.trans hcs))
    · exact Nat.le_of_lt (hc.pos_lt hts)
  rcases hf with hlt | ⟨heq, hreason⟩
  · omega
  · rw [hreason, decide_eq_false (by omega)]
    rfl

/-- Programs that end early at the same token are refused alike. -/
theorem Alongside.leftoverError_same (hcd : Same c₀ d₀ c d) (hfg : f.Beside E c₀ d₀ g)
    (hf : c.pos ≤ f.place.pos) (hg : d.pos ≤ g.place.pos) :
    SameError E c₀ d₀ source source' (leftoverError source f c) (leftoverError source' g d) := by
  unfold leftoverError
  rw [← h.isStrayEnd_eq hcd]
  cases isStrayEnd c with
  | true =>
    rw [if_pos rfl, if_pos rfl]
    exact ⟨.same _ trivial, ⟨c, d, hcd, rfl, rfl, .inl rfl⟩, rfl, rfl⟩
  | false =>
    rw [if_neg Bool.false_ne_true, if_neg Bool.false_ne_true]
    have htrailing : SameError E c₀ d₀ source source'
        { errorAt source (trailingKind c) c with suggestion := suggestionAt [c] }
        { errorAt source' (trailingKind d) d with suggestion := suggestionAt [d] } :=
      ⟨h.trailingKind_same hcd, ⟨c, d, hcd, rfl, rfl, .inr ⟨rfl, rfl⟩⟩, rfl,
        h.suggestionAt_eq (.cons hcd .nil)⟩
    obtain ⟨ts, hc, hd, hcs, hds⟩ := hcd
    cases hfg with
    | early hf' hg' =>
      rw [if_neg (by simp [hf'.not_beyond hc hcs hf]), if_neg (by simp [hg'.not_beyond hd hds hg])]
      exact htrailing
    | late us hus hfr hgr hfs hgs hexpected hreason =>
      -- which of the two errors is made depends on where the failures are, and that is alike
      have hlt : c.pos < f.place.pos ↔ d.pos < g.place.pos := by
        rcases compare_places hc hd hcs hds hfr hgr hfs hgs with
          ⟨_, hlt, hlt'⟩ | ⟨rfl, rfl, rfl⟩ | ⟨hgt, hgt'⟩
        · omega
        · simp
        · exact iff_of_true hgt hgt'
      have hsome : f.reason.isSome = g.reason.isSome := by
        generalize f.reason = r at hreason
        generalize g.reason = q at hreason
        cases hreason <;> rfl
      have hplaces : Same c₀ d₀ f.place g.place := ⟨us, hfr, hgr, hfs, hgs⟩
      rw [hsome]
      simp only [decide_eq_decide.2 hlt]
      split
      · refine ⟨kind_same hreason, ⟨_, _, hplaces, rfl, rfl, .inr ⟨rfl, rfl⟩⟩, ?_, ?_⟩
        · simp only [Farthest.texts, hexpected]
        · exact h.suggestionAt_eq (.cons hplaces (.cons ⟨ts, hc, hd, hcs, hds⟩ .nil))
      · exact htrailing

theorem Alongside.error_same {a b : Abort}
    (hab : (beside h).aborts a b) :
    SameError E c₀ d₀ source source' (a.error source) (b.error source') := by
  cases a with
  | tooDeep c =>
    cases b with
    | tooDeep d => exact ⟨.same _ trivial, ⟨c, d, hab, rfl, rfl, .inr ⟨rfl, rfl⟩⟩, rfl, rfl⟩
    | reservedWord d word => exact hab.elim
  | reservedWord c word =>
    cases b with
    | tooDeep d => exact hab.elim
    | reservedWord d word' =>
      obtain ⟨hcd, rfl⟩ := hab
      exact ⟨.same _ trivial, ⟨c, d, hcd, rfl, rfl, .inl rfl⟩, rfl, rfl⟩

/-! ## The same answers -/

/-- What both parsers read of their programs. -/
theorem Alongside.many (levels : Nat) (hs : s.cursor = c₀) (ht : t.cursor = d₀)
    (hst : s.farthest.Beside E c₀ d₀ t.farthest) :
    Reply.Paired
      (fun ss ss' s t => ss = ss' ∧ Same c₀ d₀ s.cursor.afterTrivia t.cursor.afterTrivia
        ∧ s.farthest.Beside E c₀ d₀ t.farthest)
      (fun _ _ => True) (beside h).aborts
      ((level .nothing levels).statement.many s) ((level .nothing levels).statement.many t) := by
  have hstart : (beside h).At [] s t :=
    ⟨⟨hs ▸ .refl s.cursor, ht ▸ .refl t.cursor⟩, hst⟩
  have hall : (beside h).Allows [] Grammar.statements∗ := fun _ _ => trivial
  refine Reply.Paired.mono ((Tandem.program_tracks levels hall _ _ hstart).paired
    fun _ => id) ?_ fun _ _ hU => hU
  rintro ss ss' s' t' ⟨hss, ts, _, hcursors, hstates⟩
  obtain ⟨hc, hd⟩ := (beside h).trivia hcursors
  exact ⟨hss, ⟨ts, hc, hd, settled_afterTrivia _, settled_afterTrivia _⟩, hstates⟩

omit h in
/-- The program that is made of what has been read. -/
def answer (source : String) : Reply (List Statement) → Except ParseError Program
  | .matched statements s =>
    let place := s.cursor.afterTrivia
    if place.isEnd then .ok ⟨statements⟩ else .error (leftoverError source s.farthest place)
  | .unmatched s => .error (leftoverError source s.farthest s.cursor.afterTrivia)
  | .aborted a => .error (a.error source)

omit h in
theorem parseWith_eq_answer (source : String) : parseWith .nothing source =
    answer source ((level .nothing nestingLimit).statement.many (State.start source)) := by
  unfold parseWith answer
  cases (level .nothing nestingLimit).statement.many (State.start source) <;> rfl

/-- Programs that are read side by side, with statements before the second one. -/
theorem Alongside.answer_same (source source' : String) (levels : Nat) (front : List Statement)
    (hs : s.cursor = c₀) (ht : t.cursor = d₀) (hst : s.farthest.Beside E c₀ d₀ t.farthest) :
    (∃ ss, answer source ((level .nothing levels).statement.many s) = .ok ⟨ss⟩
        ∧ answer source' (((level .nothing levels).statement.many t).map (front ++ ·))
          = .ok ⟨front ++ ss⟩)
      ∨ ∃ e e', answer source ((level .nothing levels).statement.many s) = .error e
        ∧ answer source' (((level .nothing levels).statement.many t).map (front ++ ·)) = .error e'
        ∧ SameError E c₀ d₀ source source' e e' := by
  have hmany := h.many levels hs ht hst
  cases hms : (level .nothing levels).statement.many s <;>
    cases hmt : (level .nothing levels).statement.many t <;>
    simp only [hms, hmt, Reply.Paired] at hmany
  · rename_i ss s' ss' t'
    obtain ⟨rfl, hplaces, hstates⟩ := hmany
    have hend := h.isEnd_eq hplaces
    simp only [answer, Reply.map]
    rw [← hend]
    split
    · exact .inl ⟨ss, rfl, rfl⟩
    · exact .inr ⟨_, _, rfl, rfl, h.leftoverError_same hplaces hstates (pos_le_of_many hms)
        (pos_le_of_many hmt)⟩
  · exact absurd hms (many_ne_unmatched _ _ _)
  · exact .inr ⟨_, _, rfl, rfl, h.error_same hmany⟩

end SceneScript.Parser
