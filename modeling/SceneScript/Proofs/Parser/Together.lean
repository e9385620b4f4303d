import SceneScript.Proofs.Parser.Blocks
import SceneScript.Proofs.Parser.Farthest

/-!
# Two parsers at one place

Two parsers on one source that always stand at the same place are in lockstep as long as the rest of
their states is kept by what rules do to it.  `rerun` is the case of a rule that is run again where
everything it notes has been noted before: it does the same and changes nothing.
-/

namespace SceneScript.Parser

open Rule

/-- What two parsers keep that stand at one place. -/
structure Together where
  /-- Where they may stand. -/
  cursors : Mode → Cursor → Prop
  states : State → State → Prop
  trivia {m : Mode} {c : Cursor} : cursors m c → cursors m c.afterTrivia
  next {m m' : Mode} {c d : Cursor} {t : Token} : cursors m c → c.next? = some (t, d) →
    m.step t = some m' → cursors m' d
  moveTo {s t : State} (c d : Cursor) : states s t → states (s.moveTo c) (t.moveTo d)
  expect {s t : State} (e : Expectation) : s.cursor = t.cursor → states s t →
    states (s.expect e) (t.expect e)
  blame {s t : State} (reason : Reason) : s.cursor = t.cursor → states s t →
    states (s.blame reason) (t.blame reason)

namespace Together

variable (T : Together) {α : Type} {m : Mode} {s t : State}

/-- A literal that both read at one place. -/
theorem literal_paired {scan : Cursor → Except LexicalError (Option (α × Cursor))}
    {token : α → Token} (hscan : ∀ c v d, c.Settled → scan c = .ok (some (v, d)) →
      c.next? = some (token v, d)) (hstep : ∀ v, m.step (token v) = some m.after)
    (hst : s.cursor = t.cursor) (hc : T.cursors m s.cursor) (hs : s.cursor.Settled)
    (h : T.states s t) :
    Reply.Paired (fun v w s t => v = w ∧ (s.cursor = t.cursor ∧ T.cursors m.after s.cursor) ∧
      T.states s t) T.states Eq (literal scan s) (literal scan t) := by
  unfold literal
  rw [← hst]
  split
  · rename_i v d hv
    have hnext := T.next hc (hscan _ v d hs hv) (hstep v)
    exact ⟨rfl, ⟨rfl, hnext⟩, T.moveTo _ _ h⟩
  · exact h
  · exact T.blame _ hst h

/-- The two parsers go on side by side if their states differ in the tables alone. -/
def lockstep : Lockstep where
  cursors m c d := c = d ∧ T.cursors m c
  states := T.states
  aborts := Eq
  moveTo := T.moveTo
  trivia := by
    rintro m c _ ⟨rfl, hc⟩
    exact ⟨rfl, T.trivia hc⟩
  next := by
    rintro m c _ ⟨rfl, hc⟩ hs _
    cases hnext : c.next? with
    | none => exact .inl ⟨rfl, rfl⟩
    | some found =>
      refine .inr ⟨found.1, found.2, found.2, rfl, rfl, fun m' hm => ⟨rfl, ?_⟩⟩
      exact T.next hc hnext hm
  expect := by
    intro m s t e hc _ _ hst
    exact T.expect e hc.1 hst
  number := by
    intro m s t hm hc hs _ hst
    exact T.literal_paired (fun c v d hc => (Cursor.number?_eq_some_iff hc).1)
      (Mode.step_number hm) hc.1 hc.2 hs hst
  text := by
    intro m s t hm hc hs _ hst
    exact T.literal_paired (fun c v d hc => (Cursor.text?_eq_some_iff hc).1)
      (Mode.step_text hm) hc.1 hc.2 hs hst

theorem eq_of_cursors {m : Mode} {c d : Cursor} (h : T.lockstep.cursors m c d) : c = d := h.1

/-- Through statements, too, if where they may stand does not depend on the mode. -/
def blocks (hu : ∀ {m m' : Mode} {c : Cursor}, T.cursors m c → T.cursors m' c) :
    Blocks T.lockstep where
  uniform := ⟨fun h => ⟨h.1, hu h.2⟩⟩
  places c d := c = d
  place h _ _ := h.1
  reserved := by
    rintro c _ word rfl
    rfl
  unclosed := by
    rintro m s t c _ word rfl h _ _ hst
    exact T.blame _ h.1 hst

theorem stop_keeps {P U : State → State → Prop} {m' : Mode} (why : Cursor → Abort)
    (h : ∀ s t, P s t → s.cursor = t.cursor) :
    T.lockstep.Keeps P U m' (stop why : Rule α) (stop why) := by
  intro s t hst
  show why s.cursor = why t.cursor
  rw [h s t hst]

/-- The parser that remembers nothing keeps step with itself. -/
theorem level_firm (levels : Nat) : ∀ {m : Mode}, m ≠ .operator → T.lockstep.Firm m m.after
    (level .nothing levels).expression (level .nothing levels).expression := by
  induction levels with
  | zero =>
    intro m _
    exact Lockstep.Keeps.after_trivia (T.stop_keeps _ fun s t hst => hst.1.1.1)
  | succ levels ih =>
    intro m hm
    have hinner := ih (Mode.opened_ne_operator m)
    rw [Mode.after_opened] at hinner
    have heven := Lockstep.evenIn_of_eq T.eq_of_cursors hm hinner
    exact Lockstep.Keeps.after_trivia
      ((Lockstep.sum_firm hm hinner heven).weaken fun s t hst => hst.1)

end Together

/-! ## Running a rule again -/

/-- The second state is a given one that covers whatever the first one notes. -/
def replay (given : State) : Together where
  cursors _ _ := True
  states s t := s.farthest.Within given.farthest → t = given.moveTo t.cursor
  trivia _ := trivial
  next _ _ _ := trivial
  moveTo := by
    intro s t c d hst hwithin
    rw [hst hwithin]
    rfl
  expect := by
    intro s t e hc hst hwithin
    have ht := hst ((Farthest.within_expect _ _ e).trans hwithin)
    have hsame : t.farthest.expect t.cursor e = t.farthest := by
      rw [ht, ← hc]
      exact Farthest.expect_of_within hwithin
    show { t with farthest := t.farthest.expect t.cursor e } = given.moveTo t.cursor
    rw [hsame, ← ht]
  blame := by
    intro s t reason hc hst hwithin
    have ht := hst ((Farthest.within_blame _ _ reason).trans hwithin)
    have hsame : t.farthest.blame t.cursor reason = t.farthest := by
      rw [ht, ← hc]
      exact Farthest.blame_of_within hwithin
    show { t with farthest := t.farthest.blame t.cursor reason } = given.moveTo t.cursor
    rw [hsame, ← ht]

/-- The parser that remembers nothing does the same wherever it starts from one place, and leaves a
state that covers all it notes as it was, the cursor apart. -/
theorem rerun_paired (levels : Nat) {s t : State} (hcursor : t.cursor = s.cursor) :
    Reply.Paired (fun v w s' t' => v = w ∧
        (s'.farthest.Within t.farthest → t' = t.moveTo s'.cursor))
      (fun s' t' => s'.farthest.Within t.farthest → t' = t.moveTo s'.cursor) Eq
      ((level .nothing levels).expression s) ((level .nothing levels).expression t) := by
  have hstart : (replay t).lockstep.At .operand s t := ⟨⟨hcursor.symm, trivial⟩, fun _ => rfl⟩
  refine ((replay t).level_firm levels (by decide) s t hstart).mono ?_ ?_
  · rintro v w s' t' ⟨rfl, ⟨hc, _⟩, hst⟩
    refine ⟨rfl, fun hwithin => ?_⟩
    rw [hc]
    exact hst hwithin
  · rintro s' t' ⟨⟨hc, _⟩, hst⟩ hwithin
    rw [hc]
    exact hst hwithin

variable {levels : Nat} {s s' t : State}

theorem rerun_matched {value : Expr} (h : (level .nothing levels).expression s = .matched value s')
    (hcursor : t.cursor = s.cursor) (hwithin : s'.farthest.Within t.farthest) :
    (level .nothing levels).expression t = .matched value (t.moveTo s'.cursor) := by
  have hpair := rerun_paired levels hcursor
  rw [h] at hpair
  cases ht : (level .nothing levels).expression t <;> simp only [ht, Reply.Paired] at hpair
  obtain ⟨rfl, hsame⟩ := hpair
  rw [hsame hwithin]

theorem rerun_unmatched (h : (level .nothing levels).expression s = .unmatched s')
    (hcursor : t.cursor = s.cursor) (hwithin : s'.farthest.Within t.farthest) :
    (level .nothing levels).expression t = .unmatched (t.moveTo s'.cursor) := by
  have hpair := rerun_paired levels hcursor
  rw [h] at hpair
  cases ht : (level .nothing levels).expression t <;> simp only [ht, Reply.Paired] at hpair
  rw [hpair hwithin]

end SceneScript.Parser
