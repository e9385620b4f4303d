import SceneScript.Proofs.Parser.Answers
import SceneScript.Proofs.Parser.Parses

/-!
# What comes of a rule that is tried

A state is sound if its cursor stands in the source and every answer in its tables ends behind the
place it was found at.  In a sound state the parser with a counter answers just as the rules for the
levels that are left, with the counter where it was, and leaves a sound state that is not further
back.  So every state in which a rule is tried is sound, and all that is repeated comes to an end.
-/

namespace SceneScript.Parser

open Rule Cursor

variable {α β : Type} {source : String} {s t u : State} {c : Cursor}

/-! ## Sound states -/

/-- The answers in a table end in the source, behind the place they were found at. -/
def Memo.Sound (source : String) (table : Memo α) : Prop :=
  ∀ place value c, table[place]? = some (some (value, c)) →
    (start source).Onward c ∧ place < c.pos

/-- The cursor is at a place of the source, and the tables are sound. -/
structure State.Sound (source : String) (s : State) : Prop where
  cursor : (Cursor.start source).Onward s.cursor
  table {α : Type} (kind : Nested α) : (kind.table s).Sound source

/-- At the start the tables are empty. -/
theorem State.sound_start (source : String) : (State.start source).Sound source where
  cursor := .refl _
  table kind := by
    intro place value c h
    cases kind <;> simp [Nested.table, State.start] at h

theorem State.Sound.moveTo (h : s.Sound source) (hc : (Cursor.start source).Onward c) :
    (s.moveTo c).Sound source where
  cursor := hc
  table kind := by
    have hkind := h.table kind
    cases kind <;> exact hkind

theorem State.Sound.settle (h : s.Sound source) : s.settle.Sound source :=
  h.moveTo (h.cursor.trans (onward_afterTrivia _))

/-- Going on with the same tables keeps a state sound. -/
theorem State.Sound.onward (h : s.Sound source) (k : s.Onward t) : t.Sound source where
  cursor := h.cursor.trans k.cursor
  table kind := by
    have hkind := h.table kind
    cases kind
    · rwa [Nested.table, k.statements]
    · rwa [Nested.table, k.expressions]

/-- An answer that ends behind its place can be put in a table, and so can a failure. -/
theorem Memo.Sound.insert {table : Memo α} {place : Nat} {answer : Option (α × Cursor)}
    (h : table.Sound source) (hanswer : ∀ value c, answer = some (value, c) →
      (start source).Onward c ∧ place < c.pos) : Memo.Sound source (table.insert place answer) := by
  intro other value c hknown
  rw [Std.TreeMap.getElem?_insert] at hknown
  split at hknown
  · rename_i heq
    obtain rfl : place = other := by simpa using heq
    exact hanswer value c (Option.some.inj hknown)
  · exact h other value c hknown

/-- Changing one table leaves the other and the cursor as they are. -/
theorem State.Sound.change {kind : Nested α} {f : Memo α → Memo α} (h : s.Sound source)
    (hf : (f (kind.table s)).Sound source) : (kind.change f s).Sound source where
  cursor := by cases kind <;> exact h.cursor
  table other := by
    have hother := h.table other
    cases kind <;> cases other
    · exact hf
    · exact hother
    · exact hother
    · exact hf

/-! ## Nested rules -/

namespace Nested

variable {kind : Nested α} {levels : Nat}

/-- What is tried with so many levels to go, if there is no answer in the table. -/
def fresh (kind : Nested α) : Nat → Rule α
  | 0 => stop .tooDeep
  | levels + 1 => kind.alternatives (level .tables levels)

theorem rule_level : kind.rule (level .tables levels) s
    = remember kind.table kind.change (kind.fresh levels) s.settle := by
  cases kind <;> cases levels <;> rfl

theorem lookup_eq : kind.lookup s = (kind.table s.settle)[s.settle.cursor.pos]? := by
  cases kind <;> rfl

/-- A known answer is given again, without a trial. -/
theorem rule_of_known {answer : Option (α × Cursor)} (h : kind.lookup s = some answer) :
    kind.rule (level .tables levels) s = .recalled s.settle answer := by
  rw [lookup_eq] at h
  rw [rule_level, remember]
  simp only [h]
  cases answer <;> rfl

/-- Without an answer the rule is tried with one level less, and what comes of it is kept. -/
theorem rule_of_unknown (h : kind.lookup s = none) : kind.rule (level .tables levels) s
    = kind.kept s.settle.cursor.pos (kind.fresh levels s.settle) := by
  rw [lookup_eq] at h
  rw [rule_level, remember]
  simp only [h]
  cases kind.fresh levels s.settle <;> rfl

theorem cursor_change {f : Memo α → Memo α} : (kind.change f s).cursor = s.cursor := by
  cases kind <;> rfl

/-- An answer that ends behind the place it was found at can be put in the table. -/
theorem sound_kept {place offset : Nat} {reply : Reply α}
    (hreply : ∀ {u}, reply.Leaves u → u.Sound source ∧ offset ≤ u.cursor.pos)
    (hlt : ∀ {v u}, reply = .matched v u → place < u.cursor.pos)
    (h : (kind.kept place reply).Leaves t) : t.Sound source ∧ offset ≤ t.cursor.pos := by
  cases reply with
  | matched v u =>
    obtain ⟨hu, hle⟩ := hreply (.matched v u)
    cases h
    rw [cursor_change]
    refine ⟨hu.change ((hu.table kind).insert ?_), hle⟩
    rintro value c ⟨⟩
    exact ⟨hu.cursor, hlt rfl⟩
  | unmatched u =>
    obtain ⟨hu, hle⟩ := hreply (.unmatched u)
    cases h
    rw [cursor_change]
    exact ⟨hu.change ((hu.table kind).insert nofun), hle⟩
  | aborted a => cases h

/-- Keeping an answer does not change where the rule has left the cursor. -/
theorem matched_kept {place : Nat} {reply : Reply α} {v : α}
    (h : kind.kept place reply = .matched v t) :
    ∃ u, reply = .matched v u ∧ t.cursor = u.cursor := by
  cases reply <;> cases h
  exact ⟨_, rfl, cursor_change⟩

theorem unmatched_kept {place : Nat} {reply : Reply α}
    (h : kind.kept place reply = .unmatched t) :
    ∃ u, reply = .unmatched u ∧ t.cursor = u.cursor := by
  cases reply <;> cases h
  exact ⟨_, rfl, cursor_change⟩

end Nested

/-! ## Outcomes -/

/-- What comes of a rule that is tried at a depth and in a state. -/
structure Outcome (source : String) {x : Level → Rule α} (rule : Assembly x) (n : Nat) (s : State)
    (reply : Reply α) (m : Nat) : Prop where
  /-- The counter is where it was. -/
  counter : m = n
  /-- The answer is that of the rule for the levels that are left. -/
  answer : x (level .tables (nestingLimit - n)) s = reply
  leaves {t : State} : reply.Leaves t → t.Sound source ∧ s.cursor.pos ≤ t.cursor.pos
  leads {v : α} {t : State} : rule.Leads → reply = .matched v t →
    s.cursor.afterTrivia.pos < t.cursor.pos

namespace Outcome

variable {x y : Level → Rule α} {f : Level → α → Rule β} {rule first : Assembly x}
  {second : ∀ v, Assembly fun inside => f inside v} {kind : Nested α} {n m k : Nat} {v : α}
  {reply : Reply α} {a : Abort}

theorem sound (h : Outcome source rule n s (.matched v t) m) : t.Sound source :=
  (h.leaves (.matched v t)).1

/-- With the cursor put back after a failure, the state is sound. -/
theorem sound_back (h : Outcome source rule n s (.unmatched t) m) (hs : s.Sound source) :
    (t.moveTo s.cursor).Sound source :=
  (h.leaves (.unmatched t)).1.moveTo hs.cursor

/-- What a rule leaves that is tried further on. -/
theorem leaves_of_le (h : Outcome source rule n u reply m) (hle : s.cursor.pos ≤ u.cursor.pos)
    (hleaves : reply.Leaves t) : t.Sound source ∧ s.cursor.pos ≤ t.cursor.pos := by
  obtain ⟨hsound, hafter⟩ := h.leaves hleaves
  exact ⟨hsound, Nat.le_trans hle hafter⟩

/-- A rule that starts behind trivia goes on from there. -/
theorem pos_lt (h : Outcome source rule n s.settle reply m) (hleads : rule.Leads)
    (hm : reply = .matched v t) : s.cursor.afterTrivia.pos < t.cursor.pos := by
  have hlt := h.leads hleads hm
  rwa [State.settle, State.cursor_moveTo, afterTrivia_afterTrivia] at hlt

/-- A rule without nested ones touches neither the counter nor the tables. -/
theorem plain {x : Rule α} [Plain x] (hs : s.Sound source) :
    Outcome source (.plain (x := x)) n s (x s) n where
  counter := rfl
  answer := rfl
  leaves h := ⟨hs.onward (Plain.onward h), (Plain.onward h).cursor.pos_le⟩
  leads h := h s _ _

theorem pos_le_settle (s : State) : s.cursor.pos ≤ s.settle.cursor.pos :=
  (onward_afterTrivia s.cursor).pos_le

theorem known {answer : Option (α × Cursor)} (hs : s.Sound source)
    (h : kind.lookup s = some answer) :
    Outcome source (.nested kind) n s (.recalled s.settle answer) n where
  counter := rfl
  answer := Nested.rule_of_known h
  leaves {t} hleaves := by
    cases answer with
    | none =>
      cases hleaves
      exact ⟨hs.settle, pos_le_settle s⟩
    | some found =>
      obtain ⟨value, c⟩ := found
      cases hleaves
      obtain ⟨hc, hlt⟩ := hs.table kind _ value c h
      exact ⟨hs.settle.moveTo hc, Nat.le_trans (pos_le_settle s) (Nat.le_of_lt hlt)⟩
  leads {v t} _ hm := by
    cases answer with
    | none => cases hm
    | some found =>
      obtain ⟨value, c⟩ := found
      cases hm
      exact (hs.table kind _ _ _ h).2

/-- At the limit nothing is tried, and the counter stays. -/
theorem tooDeep (h : kind.lookup s = none) (hn : nestingLimit ≤ n) :
    Outcome source (.nested kind) n s (.aborted (.tooDeep s.settle.cursor)) n where
  counter := rfl
  answer := by
    rw [Nat.sub_eq_zero_of_le hn]
    exact Nested.rule_of_unknown h
  leaves h := by cases h
  leads _ h := by cases h

/-- The counter goes up before what is inside and down again behind it, whatever comes of it. -/
theorem entered (h : kind.lookup s = none) (hn : n < nestingLimit)
    (hinner : Outcome source kind.assembly (n + 1) s.settle reply m) :
    Outcome source (.nested kind) n s (kind.kept s.settle.cursor.pos reply) (m - 1) where
  counter := by rw [hinner.counter, Nat.add_sub_cancel]
  answer := by
    have hlevels : nestingLimit - n = nestingLimit - (n + 1) + 1 := by omega
    rw [hlevels, Nested.rule_of_unknown h, ← hinner.answer]
    rfl
  leaves := Nested.sound_kept (hinner.leaves_of_le (pos_le_settle s))
    fun hm => hinner.pos_lt kind.leads_assembly hm
  leads _ hm := by
    obtain ⟨u, hu, hcursor⟩ := Nested.matched_kept hm
    rw [hcursor]
    exact hinner.pos_lt kind.leads_assembly hu

theorem afterTrivia (h : Outcome source rule n s.settle reply m) :
    Outcome source (.afterTrivia rule) n s reply m where
  counter := h.counter
  answer := h.answer
  leaves := h.leaves_of_le (pos_le_settle s)
  leads hleads hm := h.pos_lt hleads hm

theorem bindMatched {reply : Reply β} (h : Outcome source first n s (.matched v t) m)
    (hsecond : Outcome source (second v) m t reply k) :
    Outcome source (.bind first second) n s reply k := by
  obtain rfl := h.counter
  have hle := (h.leaves (.matched v t)).2
  refine ⟨hsecond.counter, ?_, hsecond.leaves_of_le hle, fun hleads hm => ?_⟩
  · rw [bind_of_matched h.answer]
    exact hsecond.answer
  · subst hm
    exact Nat.lt_of_lt_of_le (h.leads hleads rfl) (hsecond.leaves (.matched ..)).2

theorem bindUnmatched (h : Outcome source first n s (.unmatched t) m) :
    Outcome source (.bind first second) n s (.unmatched t) m where
  counter := h.counter
  answer := bind_of_unmatched h.answer
  leaves hleaves := by
    cases hleaves
    exact h.leaves (.unmatched t)
  leads _ hm := by cases hm

theorem bindAborted (h : Outcome source first n s (.aborted a) m) :
    Outcome source (.bind first second) n s (.aborted a) m where
  counter := h.counter
  answer := aborted_bind h.answer
  leaves hleaves := by cases hleaves
  leads _ hm := by cases hm

/-- What goes back on a failure goes to the place where it began. -/
theorem attempt (hs : s.Sound source) (h : Outcome source rule n s reply m) :
    Outcome source (.attempt rule) n s (reply.putBack s.cursor) m where
  counter := h.counter
  answer := by
    rw [← h.answer]
    unfold Rule.attempt
    cases x (level .tables (nestingLimit - n)) s <;> rfl
  leaves hleaves := by
    cases reply with
    | matched v t => exact h.leaves hleaves
    | unmatched t =>
      cases hleaves
      exact ⟨h.sound_back hs, Nat.le_refl _⟩
    | aborted a => cases hleaves
  leads hleads hm := by
    cases reply with
    | matched v t => exact h.leads hleads hm
    | unmatched t => cases hm
    | aborted a => cases hm

/-! ### Choice -/

section Choice

variable {last : Assembly y} {step : Cursor → Option Cursor} [Plain (move step)]

theorem preferred (h : Outcome source first n s (.matched v t) m) :
    Outcome source (.orElse first last) n s (.matched v t) m where
  counter := h.counter
  answer := orElse_of_matched h.answer
  leaves := h.leaves
  leads hleads hm := h.leads hleads.1 hm

theorem other (h : Outcome source first n s (.unmatched t) m)
    (hlast : Outcome source last m (t.moveTo s.cursor) reply k) :
    Outcome source (.orElse first last) n s reply k := by
  obtain rfl := h.counter
  refine ⟨hlast.counter, ?_, hlast.leaves, fun hleads => hlast.leads hleads.2⟩
  rw [orElse_of_unmatched h.answer]
  exact hlast.answer

theorem orElseAborted (h : Outcome source first n s (.aborted a) m) :
    Outcome source (.orElse first last) n s (.aborted a) m where
  counter := h.counter
  answer := orElse_of_aborted h.answer
  leaves hleaves := by cases hleaves
  leads _ hm := by cases hm

theorem onward_step (hstep : step s.cursor = some c) : s.Onward (s.moveTo c) :=
  Plain.matched (move_of_some hstep)

theorem yes (hstep : step s.cursor = some c)
    (h : Outcome source first n (s.moveTo c) reply m) :
    Outcome source (.branch step first last) n s reply m := by
  have hmove := move_of_some hstep
  refine ⟨h.counter, ?_, h.leaves_of_le (onward_step hstep).cursor.pos_le, fun hleads hm => ?_⟩
  · simp only [hmove]
    exact h.answer
  · subst hm
    exact Nat.lt_of_lt_of_le (hleads.1 s () _ hmove) (h.leaves (.matched ..)).2

theorem no (hstep : step s.cursor = none) (h : Outcome source last n s reply m) :
    Outcome source (.branch step first last) n s reply m where
  counter := h.counter
  answer := by
    simp only [move, hstep]
    exact h.answer
  leaves := h.leaves
  leads hleads := h.leads hleads.2

end Choice

/-! ### Repetition -/

/-- A match that goes on leaves less of the source. -/
theorem length_rest_lt (hs : s.Sound source) (h : Outcome source rule n s (.matched v t) m)
    (hleads : rule.Leads) : t.cursor.rest.length < s.cursor.rest.length := by
  have hlt := h.leads hleads rfl
  have htrivia := pos_le_settle s
  exact hs.cursor.length_rest_lt h.sound.cursor (Nat.lt_of_le_of_lt htrivia hlt)

/-- A further round starts behind the one before, since what is repeated moves on. -/
theorem manyMatched {reply : Reply (List α)} (hs : s.Sound source)
    (h : Outcome source rule n s (.matched v t) m) (hleads : rule.Leads)
    (hmore : Outcome source (.many rule) m t reply k) :
    Outcome source (.many rule) n s (reply.map (v :: ·)) k := by
  obtain rfl := h.counter
  have hle := (h.leaves (.matched v t)).2
  refine ⟨hmore.counter, ?_, fun hleaves => ?_, nofun⟩
  · rw [← hmore.answer, Rule.many, h.answer]
    exact if_pos (h.length_rest_lt hs hleads)
  · exact hmore.leaves_of_le hle (Reply.leaves_of_map hleaves)

theorem manyUnmatched (h : Outcome source rule n s (.unmatched t) m) :
    Outcome source (.many rule) n s (.matched [] t) m where
  counter := h.counter
  answer := by rw [Rule.many, h.answer]
  leaves hleaves := by
    cases hleaves
    exact h.leaves (.unmatched t)
  leads := nofun

theorem manyAborted (h : Outcome source rule n s (.aborted a) m) :
    Outcome source (.many rule) n s (.aborted a) m where
  counter := h.counter
  answer := by rw [Rule.many, h.answer]
  leaves hleaves := by cases hleaves
  leads := nofun

end Outcome

/-! ## All rules -/

variable {x : Level → Rule α} {rule : Assembly x} {n m : Nat} {reply : Reply α}

/-- Whatever the parser with a counter answers, it is what the rules for the levels answer. -/
theorem Assembly.Answers.outcome (h : rule.Answers n s reply m) (hs : s.Sound source)
    (hends : rule.Ends) : Outcome source rule n s reply m := by
  induction h with
  | plain => exact .plain hs
  | known h => exact .known hs h
  | tooDeep h hn => exact .tooDeep h hn
  | @entered _ kind _ _ _ _ h hn _ ih => exact .entered h hn (ih hs.settle kind.ends_assembly)
  | afterTrivia _ ih => exact .afterTrivia (ih hs.settle hends)
  | bindMatched _ _ ihfirst ihsecond =>
    have hfirst := ihfirst hs hends.1
    exact hfirst.bindMatched (ihsecond hfirst.sound (hends.2 _))
  | bindUnmatched _ ih => exact (ih hs hends.1).bindUnmatched
  | bindAborted _ ih => exact (ih hs hends.1).bindAborted
  | attempt _ ih => exact (ih hs hends).attempt hs
  | preferred _ ih => exact (ih hs hends.1).preferred
  | other _ _ ihfirst ihlast =>
    have hfirst := ihfirst hs hends.1
    exact hfirst.other (ihlast (hfirst.sound_back hs) hends.2)
  | orElseAborted _ ih => exact (ih hs hends.1).orElseAborted
  | @yes _ _ _ _ _ _ _ _ _ s c _ hstep _ ih =>
    exact .yes hstep (ih (hs.onward (Outcome.onward_step hstep)) hends.1)
  | no hstep _ ih => exact .no hstep (ih hs hends.2)
  | manyMatched _ _ ihone ihmore =>
    have hone := ihone hs hends.1
    exact hone.manyMatched hs hends.2 (ihmore hone.sound hends)
  | manyUnmatched _ ih => exact (ih hs hends.1).manyUnmatched
  | manyAborted _ ih => exact (ih hs hends.1).manyAborted

/-- Every rule in which all that is repeated goes on has an answer, if the nested rules have. -/
theorem answers_of_nested {n : Nat}
    (hnested : ∀ {α : Type} (kind : Nested α) {s : State}, s.Sound source →
      ∃ reply m, Assembly.Answers (.nested kind) n s reply m)
    (hs : s.Sound source) (hends : rule.Ends) : ∃ reply m, rule.Answers n s reply m := by
  induction rule generalizing s with
  | plain => exact ⟨_, _, .plain⟩
  | nested kind => exact hnested kind hs
  | afterTrivia rule ih =>
    obtain ⟨reply, m, h⟩ := ih hs.settle hends
    exact ⟨reply, m, .afterTrivia h⟩
  | bind first second ihfirst ihsecond =>
    obtain ⟨reply, m, h⟩ := ihfirst hs hends.1
    have hfirst := h.outcome hs hends.1
    obtain rfl := hfirst.counter
    cases reply with
    | matched v t =>
      obtain ⟨reply, k, hsecond⟩ := ihsecond v hfirst.sound (hends.2 v)
      exact ⟨reply, k, .bindMatched h hsecond⟩
    | unmatched t => exact ⟨_, _, .bindUnmatched h⟩
    | aborted a => exact ⟨_, _, .bindAborted h⟩
  | attempt rule ih =>
    obtain ⟨reply, m, h⟩ := ih hs hends
    exact ⟨_, m, .attempt h⟩
  | orElse first last ihfirst ihlast =>
    obtain ⟨reply, m, h⟩ := ihfirst hs hends.1
    have hfirst := h.outcome hs hends.1
    obtain rfl := hfirst.counter
    cases reply with
    | matched v t => exact ⟨_, _, .preferred h⟩
    | unmatched t =>
      obtain ⟨reply, k, hlast⟩ := ihlast (hfirst.sound_back hs) hends.2
      exact ⟨reply, k, .other h hlast⟩
    | aborted a => exact ⟨_, _, .orElseAborted h⟩
  | branch step yes no ihyes ihno =>
    cases hstep : step s.cursor with
    | some c =>
      obtain ⟨reply, m, h⟩ := ihyes (hs.onward (Outcome.onward_step hstep)) hends.1
      exact ⟨reply, m, .yes hstep h⟩
    | none =>
      obtain ⟨reply, m, h⟩ := ihno hs hends.2
      exact ⟨reply, m, .no hstep h⟩
  | many rule ih =>
    -- each match leaves less of the source
    induction hlength : s.cursor.rest.length using Nat.strongRecOn generalizing s with
    | ind length ihlength =>
      obtain ⟨reply, m, h⟩ := ih hs hends.1
      have hone := h.outcome hs hends.1
      obtain rfl := hone.counter
      cases reply with
      | matched v t =>
        have hlt := hone.length_rest_lt hs hends.2
        obtain ⟨reply, k, hmore⟩ := ihlength _ (hlength ▸ hlt) hone.sound rfl
        exact ⟨_, k, .manyMatched h hmore⟩
      | unmatched t => exact ⟨_, _, .manyUnmatched h⟩
      | aborted a => exact ⟨_, _, .manyAborted h⟩

/-- A statement and an expression always have an answer: there are just so many levels. -/
theorem answers_nested (kind : Nested α) (n : Nat) (hs : s.Sound source) :
    ∃ reply m, Assembly.Answers (.nested kind) n s reply m := by
  induction hlevels : nestingLimit - n generalizing α kind n s with
  | zero =>
    cases h : kind.lookup s with
    | some answer => exact ⟨_, _, .known h⟩
    | none => exact ⟨_, _, .tooDeep h (Nat.sub_eq_zero_iff_le.1 hlevels)⟩
  | succ levels ih =>
    cases h : kind.lookup s with
    | some answer => exact ⟨_, _, .known h⟩
    | none =>
      have hinside : ∃ reply m, kind.assembly.Answers (n + 1) s.settle reply m :=
        answers_of_nested (fun kind _ hs => ih kind (n + 1) hs (by omega)) hs.settle
          kind.ends_assembly
      obtain ⟨reply, m, hreply⟩ := hinside
      exact ⟨_, _, .entered h (by omega) hreply⟩

/-- In a sound state there is one answer, and it is that of the rules for the levels. -/
theorem answers_iff (hs : s.Sound source) (hends : rule.Ends) : rule.Answers n s reply m
    ↔ reply = x (level .tables (nestingLimit - n)) s ∧ m = n := by
  constructor
  · intro h
    have houtcome := h.outcome hs hends
    exact ⟨houtcome.answer.symm, houtcome.counter⟩
  · rintro ⟨hreply, hm⟩
    obtain ⟨_, _, h⟩ := answers_of_nested (fun kind _ hs => answers_nested kind n hs) hs hends
    have houtcome := h.outcome hs hends
    rw [hreply, hm, houtcome.answer]
    exact houtcome.counter ▸ h

/-! ## What is tried -/

/-- Every state in which a rule is tried is sound. -/
theorem Tried.sound (h : Tried source rule n s) : s.Sound source ∧ rule.Ends := by
  induction h with
  | program => exact ⟨State.sound_start source, trivial, trivial⟩
  | @entered _ kind _ _ _ _ _ ih => exact ⟨ih.1.settle, kind.ends_assembly⟩
  | afterTrivia _ ih => exact ⟨ih.1.settle, ih.2⟩
  | first _ ih => exact ⟨ih.1, ih.2.1⟩
  | second _ h ih => exact ⟨(h.outcome ih.1 ih.2.1).sound, ih.2.2 _⟩
  | attempt _ ih => exact ih
  | preferred _ ih => exact ⟨ih.1, ih.2.1⟩
  | other _ h ih => exact ⟨(h.outcome ih.1 ih.2.1).sound_back ih.1, ih.2.2⟩
  | yes _ hstep ih => exact ⟨ih.1.onward (Outcome.onward_step hstep), ih.2.1⟩
  | no _ _ ih => exact ⟨ih.1, ih.2.2⟩
  | once _ ih => exact ⟨ih.1, ih.2.1⟩
  | again _ h ih => exact ⟨(h.outcome ih.1 ih.2.1).sound, ih.2⟩

end SceneScript.Parser
