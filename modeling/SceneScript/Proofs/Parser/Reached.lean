import SceneScript.Proofs.Cursor.Errors
import SceneScript.Proofs.Cursor.Places
import SceneScript.Proofs.Language
import SceneScript.Proofs.Parser.StatementTandem

/-!
# Where the parser can fail

A parser goes in tandem with itself.  So whatever place it notes for a failure, in any alternative
that it tries, it has come there by tokens that some sentence begins with, and a lexical error that
it notes is one that stands there.
-/

namespace SceneScript.Parser

open Rule Grammar Cursor Computability

variable {c₀ c d : Cursor} {f : Farthest} {source : String}

/-- The place is behind tokens that some sentence begins with. -/
def Reached (c₀ place : Cursor) : Prop := ∃ ts, c₀.Reads ts place ∧ place.Settled ∧ IsViable ts

/-- Where a parse was ended. -/
def Abort.place : Abort → Cursor
  | .tooDeep place => place
  | .reservedWord place _ => place

/-- A parse is ended behind tokens that may have been read, and a reserved word ends it only where it
stands in the place of a name. -/
structure Abort.Due (c₀ : Cursor) (viable : Language Token) (a : Abort) (ts : List Token) :
    Prop where
  reads : c₀.Reads ts a.place
  settled : a.place.Settled
  mem : ts ∈ viable
  reserved : ∀ place word, a = .reservedWord place word →
    place.word? = some word ∧ isReserved word = true ∧ ∀ us ∈ names, ts ++ us ∈ viable

/-- The failure is no more than the start, or it has been reached. -/
inductive Farthest.Located (c₀ : Cursor) (f : Farthest) : Prop
  | start : f.place = c₀ → f.reason = none → Located c₀ f
  | reached : Reached c₀ f.place →
      (∀ e, f.reason = some (.lexical e) → f.place.token? = .error e) → Located c₀ f

/-! ## What is noted at a place that has been reached -/

theorem Farthest.Located.onward (h : f.Located c₀) : c₀.Onward f.place := by
  cases h with
  | start hplace _ =>
    rw [hplace]
    exact .refl c₀
  | reached hreached _ =>
    obtain ⟨ts, hts, _⟩ := hreached
    exact hts.onward

theorem Farthest.Located.reach (h : f.Located c₀) (hc : Reached c₀ c) :
    (f.reach c).Located c₀ :=
  reach_cases (fun _ => .reached hc nofun) fun _ => h

theorem Farthest.Located.expect (h : f.Located c₀) (hc : Reached c₀ c) (e : Expectation) :
    (f.expect c e).Located c₀ := by
  refine expect_cases (h.reach hc) fun _ _ => ?_
  cases h.reach hc with
  | start hplace hreason => exact .start hplace hreason
  | reached hreached hreason => exact .reached hreached hreason

theorem Farthest.Located.blame {reason : Reason} (h : f.Located c₀) (hc : Reached c₀ c)
    (hreason : ∀ e, reason = .lexical e → c.token? = .error e) :
    (f.blame c reason).Located c₀ := by
  refine blame_cases (h.reach hc) fun hhere _ => ?_
  -- the two places have the same offset in one source, so they are one place
  have hplace : (f.reach c).place = c := by
    obtain ⟨ts, hts, _⟩ := hc
    exact (h.reach ⟨ts, hts, ‹_›⟩).onward.eq_of_pos_eq hts.onward hhere
  refine .reached ?_ fun e he => ?_
  · rw [hplace]
    exact hc
  · rw [hplace]
    exact hreason e (Option.some.inj he)

/-- A failure behind some place, or for a reason, is no more the start. -/
theorem Farthest.Located.reached_of_far {place : Cursor} (h : f.Located (Cursor.start source))
    (hfar : place.pos < f.place.pos ∨ f.reason.isSome = true) :
    Reached (Cursor.start source) f.place
      ∧ ∀ e, f.reason = some (.lexical e) → f.place.token? = .error e := by
  cases h with
  | start hplace hreason =>
    have hzero : f.place.pos = 0 := by
      rw [hplace]
      rfl
    simp [hreason, hzero] at hfar
  | reached hreached hlexical => exact ⟨hreached, hlexical⟩

/-! ## One parser in tandem with itself -/

/-- What is known of the farthest failure is still known of it when more is noted, in a place that
is behind tokens that may have been read. -/
structure Upheld (c₀ : Cursor) (viable : Language Token) (Known : Farthest → Prop) : Prop where
  lexical {ts : List Token} {c : Cursor} {f : Farthest} {error : LexicalError} : c₀.Reads ts c →
    c.Settled → ts ∈ viable → c.token? = .error error → Known f → Known (f.blame c (.lexical error))
  expect {ts : List Token} {c : Cursor} {f : Farthest} {e : Expectation} : c₀.Reads ts c →
    c.Settled → (∃ us, us ∈ e.phrases) → (∀ us ∈ e.phrases, ts ++ us ∈ viable) →
    (e.IsName → c.word? = none) → Known f → Known (f.expect c e)
  unclosed {ts us : List Token} {c d : Cursor} {f : Farthest} {keyword : String} : c₀.Reads ts c →
    c.Settled → IsOpen keyword us → c.Reads us d → d.Settled → ts ++ us ++ [word "end"] ∈ viable →
    Known f → Known (f.blame d (.unclosed keyword c))

variable {viable : Language Token} {Known : Farthest → Prop}

/-- A literal that stands nowhere leaves what is known, and its error is noted where it stands. -/
theorem Upheld.literal {α : Type} {V : α → α → State → State → Prop} {A : Abort → Abort → Prop}
    {scan : Cursor → Except LexicalError (Option (α × Cursor))} {ts : List Token} {s t : State}
    (h : Upheld c₀ viable Known)
    (hscan : scan s.cursor = .ok none
      ∨ ∃ error, scan s.cursor = .error error ∧ s.cursor.token? = .error error)
    (hcursor : s.cursor = t.cursor) (hreads : c₀.Reads ts s.cursor) (hs : s.cursor.Settled)
    (hts : ts ∈ viable) (hst : s.farthest = t.farthest ∧ Known s.farthest) :
    Reply.Paired V (fun s t => s.farthest = t.farthest ∧ Known s.farthest) A
      (Rule.literal scan s) (Rule.literal scan t) := by
  unfold Rule.literal
  rw [← hcursor]
  rcases hscan with hscan | ⟨error, hscan, htoken⟩
  · rw [hscan]
    exact hst
  · rw [hscan]
    refine ⟨by simp only [State.blame, hst.1, hcursor], ?_⟩
    exact h.lexical hreads hs hts htoken hst.2

/-- A parser and itself, in a source. -/
def single (hviable : ∀ ts us, ts ++ us ∈ viable → ts ∈ viable) (h : Upheld c₀ viable Known) :
    Tandem where
  viable := viable
  viable_of_append := hviable _ _
  cursors ts c d := c = d ∧ c₀.Reads ts c
  states s t := s.farthest = t.farthest ∧ Known s.farthest
  aborts a b := a = b ∧ ∃ ts, a.Due c₀ viable ts
  beyond _ := False
  beyond_of_le _ := id
  not_beyond _ := id
  moveTo _ _ h := h
  trivia := by
    rintro ts c _ ⟨rfl, h⟩
    exact ⟨rfl, h.behind⟩
  next := by
    rintro ts c _ ⟨rfl, h⟩ _ _
    rcases hnext : c.next? with _ | ⟨t, e⟩
    · exact .inr (.inl ⟨rfl, rfl⟩)
    · exact .inl ⟨t, e, e, rfl, rfl, .inl ⟨rfl, h.trans (reads_of_next? hnext)⟩⟩
  number := by
    rintro ts s t ⟨hcursor, hreads⟩ hs _ hnone _ hts hst
    exact h.literal (number?_of_next?_eq_none hs hnone) hcursor hreads hs hts hst
  text := by
    rintro ts s t ⟨hcursor, hreads⟩ hs _ hnone _ hts hst
    exact h.literal (text?_of_next?_eq_none hs hnone) hcursor hreads hs hts hst
  expect := by
    rintro ts s t e ⟨hcursor, hreads⟩ hs _ hocc hphrases hname ⟨hfarthest, hknown⟩
    refine ⟨by simp only [State.expect, hfarthest, hcursor], ?_⟩
    exact h.expect hreads hs hocc hphrases (fun hn => (hname hn).1) hknown
  unclosed := by
    rintro ts us s t c _ keyword ⟨rfl, hc⟩ hcs _ hopen ⟨hcursor, hreads⟩ hs _ hend
      ⟨hfarthest, hknown⟩
    refine ⟨by simp only [State.blame, hfarthest, hcursor], ?_⟩
    exact h.unclosed hc hcs hopen (hc.split hreads hs) hs hend hknown
  tooDeep := by
    rintro ts c _ ⟨rfl, hreads⟩ hc _ hts
    exact ⟨rfl, ts, hreads, hc, hts, nofun⟩
  reserved := by
    rintro ts c _ word ⟨rfl, hreads⟩ hc _ hword hreserved hnames
    obtain ⟨us, hus⟩ := occurs_names.exists_mem
    refine ⟨rfl, ts, hreads, hc, hviable _ _ (hnames us hus), fun place other heq => ?_⟩
    cases heq
    exact ⟨hword, hreserved, hnames⟩

/-- Failures are noted where the parser has come. -/
theorem upheld_located (c₀ : Cursor) : Upheld c₀ {ts | IsViable ts} (·.Located c₀) where
  lexical {ts c f error} hreads hc hts htoken hlocated := by
    refine hlocated.blame ⟨ts, hreads, hc, hts⟩ fun e he => ?_
    cases he
    exact htoken
  expect {ts c f e} hreads hc hocc hphrases _ hlocated := by
    obtain ⟨us, hus⟩ := hocc
    exact hlocated.expect ⟨ts, hreads, hc, IsViable.of_append (hphrases us hus)⟩ e
  unclosed {ts us c d f keyword} hc _ _ hd hds hend hlocated :=
    hlocated.blame ⟨ts ++ us, hc.trans hd, hds, IsViable.of_append hend⟩ nofun

/-! ## Programs -/

/-- What the parser has read of a program, and where it ended the parse. -/
theorem single_many (h : Upheld (start source) {ts | IsViable ts} Known)
    (hstart : Known (Farthest.start (start source))) (levels : Nat) :
    Reply.Paired
      (fun ss ss' s s' => ss = ss' ∧ ∃ ts ∈ Grammar.statements∗,
        (single (fun _ _ => IsViable.of_append) h).At ts s s')
      (fun _ _ => True) (fun a b => a = b ∧ ∃ ts, a.Due (start source) {ts | IsViable ts} ts)
      ((level .nothing levels).statement.many (State.start source))
      ((level .nothing levels).statement.many (State.start source)) := by
  have hat : (single (fun _ _ => IsViable.of_append) h).At [] (State.start source)
      (State.start source) := ⟨⟨rfl, .refl _⟩, rfl, hstart⟩
  -- behind the empty beginning every sequence of statements can come
  have hall : (single (fun _ _ => IsViable.of_append) h).Allows [] Grammar.statements∗ :=
    fun us hus => IsSentence.isViable (show us ∈ sentences from sentences_eq ▸ hus)
  exact (Tandem.program_tracks levels hall _ _ hat).paired fun _ => id

/-- What is known of a failure from the start is known of it where the statements end. -/
theorem known_of_many {levels : Nat} {ss : List Statement} {s : State}
    (h : Upheld (start source) {ts | IsViable ts} Known)
    (hstart : Known (Farthest.start (start source)))
    (hmany : (level .nothing levels).statement.many (State.start source) = .matched ss s) :
    Known s.farthest := by
  have hsingle := single_many h hstart levels
  rw [hmany] at hsingle
  obtain ⟨_, _, _, _, _, hknown⟩ := hsingle
  exact hknown

/-- The statements of a program end where the parser has come by tokens of the grammar. -/
theorem located_of_many {levels : Nat} {ss : List Statement} {s : State}
    (h : (level .nothing levels).statement.many (State.start source) = .matched ss s) :
    (∃ ts, (start source).Reads ts s.cursor ∧ IsSentence ts)
      ∧ s.farthest.Located (start source) := by
  have hlocated := known_of_many (upheld_located (start source)) (.start rfl rfl) h
  have hsingle := single_many (upheld_located (start source)) (.start rfl rfl) levels
  rw [h] at hsingle
  obtain ⟨_, ts, hts, ⟨_, hreads⟩, _⟩ := hsingle
  exact ⟨⟨ts, hreads, show ts ∈ sentences from sentences_eq ▸ hts⟩, hlocated⟩

theorem due_of_aborted {levels : Nat} {a : Abort}
    (h : (level .nothing levels).statement.many (State.start source) = .aborted a) :
    ∃ ts, a.Due (start source) {ts | IsViable ts} ts := by
  have hsingle := single_many (upheld_located (start source)) (.start rfl rfl) levels
  rw [h] at hsingle
  exact hsingle.2

theorem reached_of_aborted {levels : Nat} {a : Abort}
    (h : (level .nothing levels).statement.many (State.start source) = .aborted a) :
    Reached (start source) a.place := by
  obtain ⟨ts, hdue⟩ := due_of_aborted h
  exact ⟨ts, hdue.reads, hdue.settled, hdue.mem⟩

/-- Where the statements end, it has been noted that there is no other one. -/
theorem pos_le_of_many {levels : Nat} {ss : List Statement} {s t : State}
    (h : (level .nothing levels).statement.many s = .matched ss t) :
    t.cursor.afterTrivia.pos ≤ t.farthest.place.pos := by
  induction ss generalizing s with
  | nil =>
    rcases Tandem.matched_many (advances_level levels) h with ⟨_, hone⟩ | ⟨_, _, _, hcons, _⟩
    · cases levels with
      | zero => cases hone
      | succ levels =>
        -- the last alternative notes that no statement starts here
        have hany := unmatched_trivia_bind hone
        have hloud : s.cursor.afterTrivia.pos ≤ t.farthest.place.pos :=
          Loud.loud (x := anyStatement _ _) hany
        have hcursor : t.cursor = s.cursor.afterTrivia := cursor_of_unmatched_firstOf hany
        rwa [hcursor, afterTrivia_afterTrivia]
    · cases hcons
  | cons st ss ih =>
    rcases Tandem.matched_many (advances_level levels) h with ⟨hnil, _⟩ | ⟨_, _, u, hcons, _, hmore⟩
    · cases hnil
    · cases hcons
      exact ih hmore

/-! ## Errors -/

/-- Which place a program that ends early is refused for. -/
inductive Leftover (source : String) (f : Farthest) (place : Cursor) : ParseError → Prop
  | stray {e : ParseError} : isStrayEnd place = true → e.kind = .trailingInput →
      e.position = Position.ofOffset source place.pos → Leftover source f place e
  | failure {e : ParseError} : isStrayEnd place = false →
      place.pos < f.place.pos ∨ f.reason.isSome = true → e.kind = f.kind source →
      e.position = Position.ofOffset source f.place.pos → Leftover source f place e
  | trailing {e : ParseError} : isStrayEnd place = false → f.place.pos ≤ place.pos →
      f.reason = none → e.kind = trailingKind place →
      e.position = Position.ofOffset source place.pos → Leftover source f place e

theorem leftover_leftoverError (source : String) (f : Farthest) (place : Cursor) :
    Leftover source f place (leftoverError source f place) := by
  unfold leftoverError
  cases hstray : isStrayEnd place with
  | true => exact .stray hstray rfl rfl
  | false =>
    rw [if_neg Bool.false_ne_true]
    split
    · rename_i h
      simp only [Bool.or_eq_true, decide_eq_true_eq] at h
      exact .failure hstray h rfl rfl
    · rename_i h
      simp only [Bool.or_eq_true, decide_eq_true_eq, not_or, Bool.not_eq_true,
        Option.isSome_eq_false_iff, Option.isNone_iff_eq_none] at h
      exact .trailing hstray (by omega) h.2 rfl rfl

/-- How a source is refused: the parse is ended, or the program ends early. -/
theorem refused_of_parseWith {e : ParseError} (h : parseWith .nothing source = .error e) :
    (∃ a, (level .nothing nestingLimit).statement.many (State.start source) = .aborted a
        ∧ e = a.error source)
      ∨ ∃ ss s, (level .nothing nestingLimit).statement.many (State.start source) = .matched ss s
        ∧ s.cursor.afterTrivia.isEnd = false
        ∧ e = leftoverError source s.farthest s.cursor.afterTrivia := by
  unfold parseWith at h
  cases hmany : (level .nothing nestingLimit).statement.many (State.start source) with
  | matched ss s =>
    rw [hmany] at h
    dsimp only at h
    split at h
    · cases h
    · rename_i hend
      cases h
      exact .inr ⟨ss, s, rfl, Bool.not_eq_true _ ▸ hend, rfl⟩
  | unmatched s => exact absurd hmany (many_ne_unmatched _ _ _)
  | aborted a =>
    rw [hmany] at h
    cases h
    exact .inl ⟨a, rfl, rfl⟩

theorem trailingKind_eq (hc : c.Settled) : trailingKind c =
    match c.token? with
    | .error e => .lexical e
    | .ok _ => .trailingInput := by
  have hplace : c.afterTrivia = c := hc
  simp only [trailingKind, nextLexeme, hplace]
  rcases c.token? with e | _ | _ <;> rfl

theorem token?_of_trailingKind {e : LexicalError} (hc : c.Settled)
    (h : trailingKind c = .lexical e) : c.token? = .error e := by
  rw [trailingKind_eq hc] at h
  split at h
  · rename_i htoken
    cases h
    exact htoken
  · cases h

/-- Every error is at a place that the parser has reached, and a lexical one is what stands
there. -/
theorem reached_of_parseWith {e : ParseError} (h : parseWith .nothing source = .error e) :
    ∃ place, Reached (Cursor.start source) place
      ∧ e.position = Position.ofOffset source place.pos
      ∧ ∀ error, e.kind = .lexical error → place.token? = .error error := by
  rcases refused_of_parseWith h with ⟨a, hmany, rfl⟩ | ⟨ss, s, hmany, _, rfl⟩
  · refine ⟨a.place, reached_of_aborted hmany, ?_, ?_⟩
    · cases a <;> rfl
    · cases a <;> exact nofun
  · obtain ⟨⟨ts, hreads, hsentence⟩, hlocated⟩ := located_of_many hmany
    have hsettled := settled_afterTrivia s.cursor
    have hplace : Reached (Cursor.start source) s.cursor.afterTrivia :=
      ⟨ts, by simpa using hreads.trans (reads_afterTrivia s.cursor), hsettled, hsentence.isViable⟩
    cases leftover_leftoverError source s.farthest s.cursor.afterTrivia with
    | stray _ hkind hposition => exact ⟨_, hplace, hposition, by simp [hkind]⟩
    | failure _ hfar hkind hposition =>
      obtain ⟨hreached, hlexical⟩ := hlocated.reached_of_far hfar
      refine ⟨_, hreached, hposition, fun error he => hlexical error ?_⟩
      rw [hkind] at he
      unfold Farthest.kind at he
      split at he <;> simp_all
    | trailing _ _ _ hkind hposition =>
      refine ⟨_, hplace, hposition, fun error he => token?_of_trailingKind hsettled ?_⟩
      rw [← hkind, he]

end SceneScript.Parser
