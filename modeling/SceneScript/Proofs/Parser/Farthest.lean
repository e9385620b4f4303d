import SceneScript.Parser.Farthest

/-!
# What a failure already covers

`f.Within g` says that whatever led to the farthest failure `f` adds nothing to `g`.  Noting a
failure moves up in this order, and noting it a second time changes nothing.
-/

namespace SceneScript.Parser.Farthest

/-- The second failure is farther, or it is as far and nothing is known only of the first. -/
def Within (f g : Farthest) : Prop :=
  f.place.pos < g.place.pos ∨
    f.place.pos = g.place.pos ∧ f.expected ⊆ g.expected ∧ (g.reason = none → f.reason = none)

variable {f g h : Farthest} {place : Cursor} {e : Expectation} {reason : Reason}

theorem Within.refl (f : Farthest) : f.Within f := .inr ⟨rfl, fun _ hmem => hmem, id⟩

theorem Within.trans (hfg : f.Within g) (hgh : g.Within h) : f.Within h := by
  rcases hfg with hlt | ⟨heq, hsub, hreason⟩
  · rcases hgh with hlt' | ⟨heq', _, _⟩
    · exact .inl (by omega)
    · exact .inl (by omega)
  · rcases hgh with hlt' | ⟨heq', hsub', hreason'⟩
    · exact .inl (by omega)
    · exact .inr ⟨by omega, fun x hmem => hsub' (hsub hmem), fun hnone => hreason (hreason' hnone)⟩

/-! ## What noting a failure can do -/

/-- A failure at a place is the first one known there, or it leaves the one that is as far. -/
@[elab_as_elim] theorem reach_cases {P : Farthest → Prop}
    (farther : f.place.pos < place.pos → P ⟨place, [], none⟩)
    (same : place.pos ≤ f.place.pos → P f) : P (f.reach place) := by
  unfold reach
  split
  · exact farther ‹_›
  · exact same (by omega)

/-- What is expected at a place is added to a failure there, or nothing is. -/
@[elab_as_elim] theorem expect_cases {P : Farthest → Prop} (reached : P (f.reach place))
    (added : (f.reach place).place.pos = place.pos → e ∉ (f.reach place).expected →
      P { f.reach place with expected := e :: (f.reach place).expected }) :
    P (f.expect place e) := by
  unfold expect
  dsimp only
  split
  · rename_i hnew
    exact added hnew.1 hnew.2
  · exact reached

/-- A reason is given to a failure at a place that has none, or none is given. -/
@[elab_as_elim] theorem blame_cases {P : Farthest → Prop} (reached : P (f.reach place))
    (added : (f.reach place).place.pos = place.pos → (f.reach place).reason = none →
      P { f.reach place with reason := some reason }) :
    P (f.blame place reason) := by
  unfold blame
  dsimp only
  split
  · rename_i hnew
    exact added hnew.1 hnew.2
  · exact reached

theorem within_reach (f : Farthest) (place : Cursor) : f.Within (f.reach place) :=
  reach_cases (fun hlt => .inl hlt) fun _ => Within.refl f

theorem pos_le_reach (f : Farthest) (place : Cursor) : place.pos ≤ (f.reach place).place.pos :=
  reach_cases (fun _ => Nat.le_refl _) id

theorem within_expect (f : Farthest) (place : Cursor) (e : Expectation) :
    f.Within (f.expect place e) := by
  refine (within_reach f place).trans ?_
  refine expect_cases (Within.refl _) fun _ _ => ?_
  exact .inr ⟨rfl, fun x hmem => List.mem_cons_of_mem e hmem, id⟩

theorem within_blame (f : Farthest) (place : Cursor) (reason : Reason) :
    f.Within (f.blame place reason) := by
  refine (within_reach f place).trans ?_
  refine blame_cases (Within.refl _) fun _ hnone => ?_
  exact .inr ⟨rfl, fun x hmem => hmem, fun _ => hnone⟩

/-- What is expected at a place is noted there, if no failure is farther. -/
theorem mem_expected_expect (f : Farthest) (place : Cursor) (e : Expectation) :
    place.pos < (f.expect place e).place.pos ∨
      (f.expect place e).place.pos = place.pos ∧ e ∈ (f.expect place e).expected := by
  have hle := pos_le_reach f place
  unfold expect
  dsimp only
  split
  · rename_i hnew
    exact .inr ⟨hnew.1, List.mem_cons_self ..⟩
  · rename_i hnot
    by_cases heq : (f.reach place).place.pos = place.pos
    · refine .inr ⟨heq, ?_⟩
      by_cases hmem : e ∈ (f.reach place).expected
      · exact hmem
      · exact absurd ⟨heq, hmem⟩ hnot
    · exact .inl (by omega)

theorem reason_blame (f : Farthest) (place : Cursor) (reason : Reason) :
    place.pos < (f.blame place reason).place.pos ∨
      (f.blame place reason).place.pos = place.pos ∧ (f.blame place reason).reason ≠ none := by
  have hle := pos_le_reach f place
  unfold blame
  dsimp only
  split
  · rename_i hnew
    exact .inr ⟨hnew.1, by simp⟩
  · rename_i hnot
    by_cases heq : (f.reach place).place.pos = place.pos
    · exact .inr ⟨heq, fun hnone => hnot ⟨heq, hnone⟩⟩
    · exact .inl (by omega)

theorem reach_eq_self (h : place.pos ≤ f.place.pos) : f.reach place = f := by
  unfold reach
  rw [if_neg (by omega)]

/-! ## Failures before, at and behind the farthest one -/

theorem expect_of_lt (h : f.place.pos < place.pos) : f.expect place e = ⟨place, [e], none⟩ := by
  simp [expect, reach, h]

theorem blame_of_lt (h : f.place.pos < place.pos) :
    f.blame place reason = ⟨place, [], some reason⟩ := by
  simp [blame, reach, h]

theorem expect_of_gt (h : place.pos < f.place.pos) : f.expect place e = f := by
  unfold expect
  rw [reach_eq_self (Nat.le_of_lt h)]
  exact if_neg fun hhere => by omega

theorem blame_of_gt (h : place.pos < f.place.pos) : f.blame place reason = f := by
  unfold blame
  rw [reach_eq_self (Nat.le_of_lt h)]
  exact if_neg fun hhere => by omega

theorem expect_of_eq (h : f.place.pos = place.pos) : f.expect place e =
    if e ∉ f.expected then { f with expected := e :: f.expected } else f := by
  unfold expect
  rw [reach_eq_self (Nat.le_of_eq h.symm)]
  simp only [h, true_and]

theorem blame_of_eq (h : f.place.pos = place.pos) : f.blame place reason =
    if f.reason = none then { f with reason := some reason } else f := by
  unfold blame
  rw [reach_eq_self (Nat.le_of_eq h.symm)]
  simp only [h, true_and]

/-- An expectation that is covered already changes nothing. -/
theorem expect_of_within (h : (f.expect place e).Within g) : g.expect place e = g := by
  -- what `f` would note is farther in `g`, or as far and listed
  have hcovered : place.pos < g.place.pos ∨ g.place.pos = place.pos ∧ e ∈ g.expected := by
    rcases mem_expected_expect f place e with hlt | ⟨heq, hmem⟩
    · rcases h with hlt' | ⟨heq', _, _⟩
      · exact .inl (by omega)
      · exact .inl (by omega)
    · rcases h with hlt' | ⟨heq', hsub, _⟩
      · exact .inl (by omega)
      · exact .inr ⟨by omega, hsub hmem⟩
  have hreach : g.reach place = g := reach_eq_self (by omega)
  unfold expect
  rw [hreach]
  dsimp only
  rw [if_neg]
  rintro ⟨heq, hnot⟩
  rcases hcovered with hlt | ⟨_, hmem⟩
  · omega
  · exact hnot hmem

/-- A reason for a failure that is covered already changes nothing. -/
theorem blame_of_within (h : (f.blame place reason).Within g) : g.blame place reason = g := by
  have hcovered : place.pos < g.place.pos ∨ g.place.pos = place.pos ∧ g.reason ≠ none := by
    rcases reason_blame f place reason with hlt | ⟨heq, hsome⟩
    · rcases h with hlt' | ⟨heq', _, _⟩
      · exact .inl (by omega)
      · exact .inl (by omega)
    · rcases h with hlt' | ⟨heq', _, hreason⟩
      · exact .inl (by omega)
      · exact .inr ⟨by omega, fun hnone => hsome (hreason hnone)⟩
  have hreach : g.reach place = g := reach_eq_self (by omega)
  unfold blame
  rw [hreach]
  dsimp only
  rw [if_neg]
  rintro ⟨heq, hnone⟩
  rcases hcovered with hlt | ⟨_, hsome⟩
  · omega
  · exact hsome hnone

end SceneScript.Parser.Farthest
