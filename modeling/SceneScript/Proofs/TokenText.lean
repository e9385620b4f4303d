import Mathlib.Data.List.Forall2
import SceneScript.Proofs.Cursor.Cut
import SceneScript.Proofs.Cursor.Places
import SceneScript.Proofs.Cursor.Shift

/-!
# The texts of tokens

A source that is a sequence of tokens is what its tokens are spelled as, with trivia before, between
and behind them.  The text of a token is that token by itself, whatever it stood next to, and with
blanks between them such texts are the same tokens again.  A source that is no such sequence is one
up to its first malformed token, and there the cursor stays.
-/

namespace SceneScript

open Cursor

/-- How a token of a source is spelled. -/
def Lexeme.text (source : String) (l : Lexeme) : List Char :=
  Text.between source.toList l.start l.stop

/-- The offsets between which there is no token, from an offset behind the last token to the end. -/
def gaps (stop : Nat) : Nat → List Lexeme → List (Nat × Nat)
  | start, [] => [(start, stop)]
  | start, l :: ls => (start, l.start) :: gaps stop l.stop ls

/-- The texts in their order, with at least one blank between two of them. -/
inductive Spaced : List (List Char) → List Char → Prop
  | nil : Spaced [] []
  | last {text : List Char} : Spaced [text] text
  | cons {first blanks more : List Char} {texts : List (List Char)} : blanks ≠ [] →
      (∀ x ∈ blanks, Text.isBlank x = true) → texts ≠ [] → Spaced texts more →
      Spaced (first :: texts) (first ++ blanks ++ more)

/-- The tokens of a source are all of it but trivia, and each of them stands for itself. -/
structure Lossless (source : String) (ls : List Lexeme) : Prop where
  nonempty : ∀ l ∈ ls, l.start < l.stop
  isValid : ∀ l ∈ ls, String.Pos.Raw.IsValid source ⟨l.start⟩
    ∧ String.Pos.Raw.IsValid source ⟨l.stop⟩
  ordered : ls.Pairwise fun l m => l.stop ≤ m.start
  /-- What is between the tokens is passed as trivia, and nothing behind it is. -/
  trivia : ∀ gap ∈ gaps source.utf8ByteSize 0 ls,
    (seek source gap.1).afterTrivia = seek source gap.2
  alone : ∀ l ∈ ls, tokenize (String.ofList (l.text source))
    = .ok [⟨l.token, 0, l.stop - l.start⟩]
  spaced : ∀ text, Spaced (ls.map (·.text source)) text →
    ∃ ms, tokenize (String.ofList text) = .ok ms ∧ ms.map Lexeme.token = ls.map Lexeme.token

/-- The source is a sequence of tokens up to an error, and the cursor stays there. -/
structure StopsAt (source : String) (e : LexicalError) : Prop where
  isValid : String.Pos.Raw.IsValid source ⟨e.offset⟩
  before : ∃ ls, tokenize (cutOff source e.offset) = .ok ls
  cursor : (start source).lexemes.2 = seek source e.offset

variable {source : String} {text more : List Char} {c d : Cursor} {t : Token} {ls : List Lexeme}
  {length : Nat}

/-! ## One token -/

/-- The text is the token and nothing else. -/
structure IsTokenText (text : List Char) (t : Token) (length : Nat) : Prop where
  settled : (Cursor.mk text 0).Settled
  token? : (Cursor.mk text 0).token? = .ok (some (t, ⟨[], length⟩))

theorem Cursor.Settled.of_append (h : (c.append more).Settled) : c.Settled := by
  have hplace : (c.append more).afterTrivia = c.append more := h
  have hle : more.length ≤ (c.append more).afterTrivia.rest.length := by
    rw [hplace, append, List.length_append]
    omega
  exact append_inj ((afterTrivia_of_append hle).symm.trans hplace)

/-- What ended a token where it stood is not needed to end it. -/
theorem isTokenText_between (h : (start source).Onward c) (hc : c.Settled)
    (htoken : c.token? = .ok (some (t, d))) :
    IsTokenText (Text.between source.toList c.pos d.pos) t (d.pos - c.pos) := by
  have hrest := rest_eq_between_append h (beyond_of_token? htoken).onward
  generalize Text.between source.toList c.pos d.pos = text at hrest ⊢
  -- the text stands in the source as in a source of its own, only further down
  have hplace : c = ((Cursor.mk text 0).shift c.pos).append d.rest := by
    rw [append, shift, Nat.zero_add, ← hrest]
  rw [hplace] at hc htoken
  obtain ⟨e, he, hcut⟩ := token?_of_append htoken (Nat.le_refl _)
  obtain ⟨f, rfl, halone⟩ := token?_of_shift hcut
  have hempty : f.rest ++ d.rest = d.rest := congrArg Cursor.rest he.symm
  have hpos : f.pos + c.pos = d.pos := congrArg Cursor.pos he.symm
  have hlength : f = ⟨[], d.pos - c.pos⟩ := by
    show Cursor.mk f.rest f.pos = _
    rw [List.append_left_eq_self.1 hempty, ← hpos, Nat.add_sub_cancel]
  rw [hlength] at halone
  exact ⟨hc.of_append.of_shift, halone⟩

namespace IsTokenText

theorem next? (h : IsTokenText text t length) :
    (Cursor.mk text 0).next? = some (t, ⟨[], length⟩) :=
  (next?_eq_some_iff h.settled).2 h.token?

/-- The token comes next wherever the text stands. -/
theorem next?_at (h : IsTokenText text t length) (pos : Nat) :
    (Cursor.mk text pos).next? = some (t, ⟨[], length + pos⟩) := by
  have hshift := next?_shift h.next? (n := pos)
  rwa [shift, shift, Nat.zero_add] at hshift

theorem tokenize (h : IsTokenText text t length) :
    tokenize (String.ofList text) = .ok [⟨t, 0, length⟩] := by
  have hstart : start (String.ofList text) = ⟨text, 0⟩ := by rw [start, String.toList_ofList]
  have hplace : (Cursor.mk text 0).afterTrivia = ⟨text, 0⟩ := h.settled
  have hend : (Cursor.mk [] length).nextLexeme = (.ok none, ⟨[], length⟩) := rfl
  have hnone : (Cursor.mk [] length).lexemes = (.ok [], ⟨[], length⟩) := by rw [lexemes, hend]
  rw [SceneScript.tokenize, hstart, lexemes_of_next? h.next?, hnone, hplace]

end IsTokenText

/-! ## Texts between blanks -/

theorem afterTrivia_blanks {blanks : List Char} (h : ∀ x ∈ blanks, Text.isBlank x = true)
    (more : List Char) (pos : Nat) : ∃ pos', (Cursor.mk (blanks ++ more) pos).afterTrivia
      = (Cursor.mk more pos').afterTrivia := by
  induction blanks generalizing pos with
  | nil => exact ⟨pos, rfl⟩
  | cons x blanks ih =>
    obtain ⟨hx, hblanks⟩ := List.forall_mem_cons.1 h
    obtain ⟨pos', hpos'⟩ := ih hblanks (pos + x.utf8Size)
    refine ⟨pos', ?_⟩
    rw [afterTrivia_blank rfl hx, ← hpos']
    simp [advance]

/-- Texts of tokens with blanks between them are the tokens. -/
theorem Spaced.ahead {texts : List (List Char)} (h : Spaced texts text) {ts : List Token}
    (hts : List.Forall₂ (fun text t => ∃ length, IsTokenText text t length) texts ts) (pos : Nat) :
    (Cursor.mk text pos).Ahead ts := by
  induction h generalizing ts pos with
  | nil =>
    cases hts
    rfl
  | last =>
    obtain _ | ⟨⟨length, htext⟩, ⟨⟩⟩ := hts
    exact ⟨_, htext.next?_at pos, rfl⟩
  | @cons first blanks more texts hne hblanks _ _ ih =>
    obtain _ | ⟨⟨length, htext⟩, hmore⟩ := hts
    obtain ⟨x, blanks, rfl⟩ := List.exists_cons_of_ne_nil hne
    obtain ⟨pos', hpos'⟩ := afterTrivia_blanks hblanks more (length + pos)
    refine ⟨_, ?_, (ahead_congr hpos').2 (ih hmore pos')⟩
    rw [List.append_assoc]
    exact next?_append (hblanks x (List.mem_cons_self ..)) (htext.next?_at pos)

/-! ## The tokens of a source -/

/-- A token stands between two places of the source. -/
structure Lexeme.Stands (source : String) (l : Lexeme) (c d : Cursor) : Prop where
  onward : (Cursor.start source).Onward c
  settled : c.Settled
  token? : c.token? = .ok (some (l.token, d))
  start_eq : l.start = c.pos
  stop_eq : l.stop = d.pos

namespace Cursor.Lexes

theorem stands (h : c.Lexes ls) (hc : (start source).Onward c) :
    ∀ l ∈ ls, ∃ a b, l.Stands source a b := by
  induction h with
  | done => exact nofun
  | @token c d t ls hnext _ ih =>
    intro l hl
    rcases List.mem_cons.1 hl with rfl | hl
    · have htoken := hnext
      rw [← next?_afterTrivia, next?_eq_some_iff (settled_afterTrivia c)] at htoken
      exact ⟨_, d, hc.trans (onward_afterTrivia c), settled_afterTrivia c, htoken, rfl, rfl⟩
    · exact ih (hc.trans (onward_of_next? hnext)) l hl

/-- The tokens start behind the place from which they are read. -/
theorem pos_le_start (h : c.Lexes ls) : ∀ l ∈ ls, c.pos ≤ l.start := by
  induction h with
  | done => exact nofun
  | @token c d t ls hnext _ ih =>
    have hle := (onward_afterTrivia c).pos_le
    have hlt := (beyond_of_next? hnext).pos_lt
    intro l hl
    rcases List.mem_cons.1 hl with rfl | hl
    · exact hle
    · have hmore := ih l hl
      omega

theorem ordered (h : c.Lexes ls) : ls.Pairwise fun l m => l.stop ≤ m.start := by
  induction h with
  | done => exact .nil
  | token _ hmore ih => exact .cons hmore.pos_le_start ih

theorem trivia (h : c.Lexes ls) (hc : (start source).Onward c) :
    ∀ gap ∈ gaps (Text.byteLength source.toList) c.pos ls,
      (seek source gap.1).afterTrivia = seek source gap.2 := by
  induction h with
  | @done c hend =>
    intro gap hgap
    rw [gaps, List.mem_singleton] at hgap
    have hlast := hc.trans (onward_afterTrivia c)
    rw [hgap, ← pos_of_isEnd hlast hend, seek_pos hc, seek_pos hlast]
  | @token c d t ls hnext _ ih =>
    intro gap hgap
    rw [gaps] at hgap
    rcases List.mem_cons.1 hgap with rfl | hgap
    · rw [seek_pos hc, seek_pos (hc.trans (onward_afterTrivia c))]
    · exact ih (hc.trans (onward_of_next? hnext)) gap hgap

end Cursor.Lexes

namespace Lexeme.Stands

variable {l : Lexeme}

theorem onward_stop (h : l.Stands source c d) : (Cursor.start source).Onward d :=
  h.onward.trans (beyond_of_token? h.token?).onward

theorem isTokenText (h : l.Stands source c d) :
    IsTokenText (l.text source) l.token (l.stop - l.start) := by
  rw [Lexeme.text, h.start_eq, h.stop_eq]
  exact isTokenText_between h.onward h.settled h.token?

end Lexeme.Stands

theorem lossless_of_tokenize (h : tokenize source = .ok ls) : Lossless source ls := by
  have hlexes : (start source).Lexes ls := lexes_of_lexemes h
  have hstands := hlexes.stands (.refl (start source))
  have htext : ∀ l ∈ ls, IsTokenText (l.text source) l.token (l.stop - l.start) := by
    intro l hl
    obtain ⟨c, d, hcd⟩ := hstands l hl
    exact hcd.isTokenText
  constructor
  case nonempty =>
    intro l hl
    obtain ⟨c, d, hcd⟩ := hstands l hl
    rw [hcd.start_eq, hcd.stop_eq]
    exact (beyond_of_token? hcd.token?).pos_lt
  case isValid =>
    intro l hl
    obtain ⟨c, d, hcd⟩ := hstands l hl
    rw [hcd.start_eq, hcd.stop_eq]
    exact ⟨isValid_pos hcd.onward, isValid_pos hcd.onward_stop⟩
  case ordered => exact hlexes.ordered
  case trivia =>
    have htrivia := hlexes.trivia (.refl (start source))
    rwa [← Text.utf8ByteSize_ofList, String.ofList_toList] at htrivia
  case alone => exact fun l hl => (htext l hl).tokenize
  case spaced =>
    intro text hspaced
    -- the lexemes' texts, spaced out, are read as the same tokens again
    have hts : List.Forall₂ (fun text t => ∃ length, IsTokenText text t length)
        (ls.map (·.text source)) (ls.map Lexeme.token) := by
      rw [List.forall₂_map_left_iff, List.forall₂_map_right_iff, List.forall₂_same]
      exact fun l hl => ⟨_, htext l hl⟩
    obtain ⟨ms, hms, htokens⟩ := lexemes_of_ahead (hspaced.ahead hts 0)
    refine ⟨ms, ?_, htokens⟩
    rw [tokenize, start, String.toList_ofList]
    exact hms

theorem stopsAt_of_tokenize {e : LexicalError} (h : tokenize source = .error e) :
    StopsAt source e := by
  obtain ⟨ts, d, hreads, hd, herror⟩ := reads_of_lexemes_error h
  have hoffset := offset_of_token?_error herror
  constructor
  case isValid =>
    rw [hoffset]
    exact isValid_pos hreads.onward
  case before =>
    obtain ⟨f, hf, hsettled, hend, _⟩ := hreads.exists_end_cutOff hd
    have hnone : f.Ahead [] := by
      show f.afterTrivia.isEnd = true
      rwa [hsettled]
    obtain ⟨ls, hls, _⟩ := lexemes_of_ahead (hf.ahead hnone)
    exact ⟨ls, by rw [hoffset]; exact hls⟩
  case cursor => rw [lexemes_eq_of_token?_error hreads hd herror, hoffset, seek_pos hreads.onward]

/-- A source that is a sequence of tokens loses nothing in them, and another one is a sequence of
tokens up to its error. -/
theorem tokenize_lossless (source : String) :
    (∀ ls, tokenize source = .ok ls → Lossless source ls)
      ∧ ∀ e, tokenize source = .error e → StopsAt source e :=
  ⟨fun _ => lossless_of_tokenize, fun _ => stopsAt_of_tokenize⟩

/-- A quote between quotes of the other kind is a text, and behind it a comment runs to the end.  A
number that runs into a letter is an error, and the comment before it is none. -/
theorem tokenize_lossless_of_quote_and_comment :
    tokenize "a/'\"'//\u00e4"
        = .ok [⟨.identifier "a", 0, 1⟩, ⟨.operator '/', 1, 2⟩, ⟨.text "\"", 2, 5⟩]
      ∧ Lossless "a/'\"'//\u00e4"
        [⟨.identifier "a", 0, 1⟩, ⟨.operator '/', 1, 2⟩, ⟨.text "\"", 2, 5⟩]
      ∧ tokenize "a // \u00e4\n2x" = .error (.malformedNumber 8 "2x")
      ∧ StopsAt "a // \u00e4\n2x" (.malformedNumber 8 "2x") := by
  have htokens : tokenize "a/'\"'//\u00e4"
      = .ok [⟨.identifier "a", 0, 1⟩, ⟨.operator '/', 1, 2⟩, ⟨.text "\"", 2, 5⟩] := by
    decide +kernel
  have herror : tokenize "a // \u00e4\n2x" = .error (.malformedNumber 8 "2x") := by
    decide +kernel
  exact ⟨htokens, (tokenize_lossless _).1 _ htokens, herror, (tokenize_lossless _).2 _ herror⟩

end SceneScript
