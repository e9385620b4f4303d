import SceneScript.Proofs.Parser.Outcome

/-!
# Where rules leave the cursor

Statements, expressions and what they are made of go past the first place after trivia where they
match, and stay at just that place where they do not, whether the answer is found or remembered.  So
a parser that counts how deep it is and repeats for as long as there is a match answers like the
rules for the levels, with the counter where it was, and each of its repetitions matches at most
once for each byte that is left.
-/

namespace SceneScript.Parser

open Rule

namespace Assembly

/-- The rules that go on where they match and stay where they do not. -/
inductive IsPhrase : {α : Type} → {x : Level → Rule α} → Assembly x → Prop
  | statement : IsPhrase .statement
  | expression : IsPhrase .expression
  | product : IsPhrase .product
  | signed : IsPhrase .signed
  | value : IsPhrase .value
  | condition : IsPhrase .condition

/-- From one state to another, what is repeated has matched so many times. -/
inductive Rounds : {α : Type} → {x : Level → Rule α} → Assembly x → Nat → Nat → State → State →
    Prop
  | zero {α : Type} {x : Level → Rule α} {rule : Assembly x} {n : Nat} {s : State} :
      Rounds (.many rule) 0 n s s
  | succ {α : Type} {x : Level → Rule α} {rule : Assembly x} {count n m : Nat} {s t u : State}
      {v : α} : rule.Answers n s (.matched v t) m → Rounds (.many rule) count m t u →
      Rounds (.many rule) (count + 1) n s u

end Assembly

variable {α : Type} {x : Level → Rule α} {rule : Assembly x} {source : String} {s t : State}
  {levels : Nat}

theorem Assembly.IsPhrase.leads (h : rule.IsPhrase) : rule.Leads := by
  cases h with
  | statement | expression | condition => trivial
  | product | signed => exact leads_signed
  | value => exact leads_value

/-! ## No match -/

/-- Whether it is found or remembered, where there is no match only trivia is passed. -/
theorem Nested.cursor_of_unmatched (kind : Nested α)
    (h : kind.rule (level .tables levels) s = .unmatched t) : t.cursor = s.cursor.afterTrivia := by
  cases hlookup : kind.lookup s with
  | some answer =>
    rw [rule_of_known hlookup] at h
    cases answer <;> cases h
    rfl
  | none =>
    rw [rule_of_unknown hlookup] at h
    obtain ⟨u, hfresh, hcursor⟩ := unmatched_kept h
    rw [hcursor]
    cases levels with
    | zero => cases hfresh
    | succ levels =>
      cases kind with
      | statement => exact cursor_of_unmatched_firstOf hfresh
      | expression =>
        have hsum := cursor_of_unmatched_sum hfresh
        rwa [State.settle, State.cursor_moveTo, Cursor.afterTrivia_afterTrivia] at hsum

theorem Assembly.IsPhrase.cursor_of_unmatched (h : rule.IsPhrase)
    (hm : x (level .tables levels) s = .unmatched t) : t.cursor = s.cursor.afterTrivia := by
  cases h with
  | statement => exact Nested.cursor_of_unmatched .statement hm
  | expression => exact Nested.cursor_of_unmatched .expression hm
  | product =>
    obtain ⟨u, _, rfl⟩ := unmatched_attempt (unmatched_trivia_bind (operand_of_unmatched_chain hm))
    rfl
  | signed =>
    obtain ⟨u, _, rfl⟩ := unmatched_attempt (unmatched_trivia_bind hm)
    rfl
  | value => exact cursor_of_unmatched_firstOf (unmatched_trivia_bind hm)
  | condition =>
    -- an operator without a right side is put back, and the left side is the condition
    rcases unmatched_bind hm with hleft | ⟨_, _, _, hright⟩
    · exact Nested.cursor_of_unmatched .expression hleft
    · obtain ⟨_, _, hnone⟩ := unmatched_orElse hright
      cases hnone

/-! ## Repetition -/

/-- Each match takes a byte or more from what is left. -/
theorem Assembly.Rounds.add_byteLength_le {count n : Nat} (h : rule.Rounds count n s t)
    (htried : Tried source rule n s) :
    count + Text.byteLength t.cursor.rest ≤ Text.byteLength s.cursor.rest := by
  induction h with
  | zero => exact Nat.le_of_eq (Nat.zero_add _)
  | succ hone _ ih =>
    have hrest := ih (htried.again hone)
    obtain ⟨hs, hends⟩ := htried.sound
    have houtcome := hone.outcome hs hends.1
    have hlt := Nat.lt_of_le_of_lt (Outcome.pos_le_settle _) (houtcome.leads hends.2 rfl)
    have hends := houtcome.sound.cursor.endPos_eq.trans hs.cursor.endPos_eq.symm
    simp only [Cursor.endPos] at hends
    omega

/-! ## Every rule that is tried -/

/-- Whenever a rule is tried while a source is parsed, a parser with a counter gives one answer,
that of the rules for the levels that are left, with the counter where it was.  A phrase goes past
the first place after trivia where it matches and stays at that place where it does not, and a
repetition matches at most once for each byte that is left. -/
theorem cursor_of_tried (source : String) {α : Type} {x : Level → Rule α} {rule : Assembly x}
    {depth : Nat} {s : State} (h : Tried source rule depth s) :
    let answer := x (level .tables (nestingLimit - depth)) s
    (∀ reply n, rule.Answers depth s reply n ↔ reply = answer ∧ n = depth)
      ∧ (rule.IsPhrase →
        (∀ v t, answer = .matched v t → s.cursor.afterTrivia.pos < t.cursor.pos)
          ∧ ∀ t, answer = .unmatched t → t.cursor = s.cursor.afterTrivia)
      ∧ ∀ count t, rule.Rounds count depth s t →
        count + Text.byteLength t.cursor.rest ≤ Text.byteLength s.cursor.rest := by
  intro answer
  obtain ⟨hs, hends⟩ := h.sound
  have hanswers : ∀ reply n, rule.Answers depth s reply n ↔ reply = answer ∧ n = depth :=
    fun _ _ => answers_iff hs hends
  have houtcome := ((hanswers answer depth).2 ⟨rfl, rfl⟩).outcome hs hends
  refine ⟨hanswers, fun hphrase => ⟨fun v t hm => ?_, fun t hm => ?_⟩, fun count t hrounds => ?_⟩
  · exact houtcome.leads hphrase.leads hm
  · exact hphrase.cursor_of_unmatched hm
  · exact hrounds.add_byteLength_le h

/-- The place where a match ends. -/
def Reply.end? : Reply α → Option Cursor
  | .matched _ t => some t.cursor
  | .unmatched _ => none
  | .aborted _ => none

theorem Reply.matched_of_end? {reply : Reply α} {c : Cursor} (h : reply.end? = some c) :
    ∃ v t, reply = .matched v t ∧ t.cursor = c := by
  cases reply <;> cases h
  exact ⟨_, _, rfl, rfl⟩

/-- The first statement of a source starts behind a blank and ends at the end. -/
theorem cursor_of_tried_first_statement :
    let s := State.start " draw(a)"
    Tried " draw(a)" .statement 0 s ∧ s.cursor.afterTrivia.pos = 1
      ∧ ∃ v t, Assembly.statement.Answers 0 s (.matched v t) 0 ∧ t.cursor = ⟨[], 8⟩
        ∧ s.cursor.afterTrivia.pos < t.cursor.pos := by
  intro s
  have htried : Tried " draw(a)" .statement 0 s := .once .program
  obtain ⟨hanswers, hphrase, _⟩ := cursor_of_tried " draw(a)" htried
  have hend : ((level .tables nestingLimit).statement s).end? = some ⟨[], 8⟩ := by decide +kernel
  obtain ⟨v, t, hm, hcursor⟩ := Reply.matched_of_end? hend
  exact ⟨htried, by decide +kernel, v, t, (hanswers _ _).2 ⟨hm.symm, rfl⟩, hcursor,
    (hphrase .statement).1 v t hm⟩

end SceneScript.Parser
