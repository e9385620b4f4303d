import SceneScript.Proofs.Parser.ExpressionSound
import SceneScript.Proofs.Parser.Path
import SceneScript.Proofs.Parser.Together

/-!
# Remembered expressions

While an expression is read from a place where an operand is due, every answer in the table that
lies behind that place is the one that would be found again: it was found in the mode, and so with
as many levels to go, in which its place is reached, and all that it noted is covered by the
farthest failure.  So a parser that remembers expressions keeps step with one that does not.
-/

namespace SceneScript.Parser

open Rule

/-- How many levels further in an expression is due than at the root. -/
def Mode.depth : Mode → Nat
  | operand => 0
  | operator => 0
  | inside depth => depth + 1

theorem Mode.depth_opened (m : Mode) : m.opened.depth = m.depth + 1 := by
  cases m <;> rfl

/-- A remembered answer as the answer of a rule that notes nothing new. -/
def replayed (t : State) : Option (Expr × Cursor) → Reply Expr
  | some (value, c) => .matched value (t.moveTo c)
  | none => .unmatched t

/-- The answer is the one that is found at a place on the way from `base`, where expressions have
so many levels. -/
structure Recorded (base : Cursor) (levels : Nat) (farthest : Farthest) (c : Cursor) (m : Mode)
    (answer : Option (Expr × Cursor)) : Prop where
  settled : c.Settled
  path : Path base c m
  due : m ≠ .operator
  again {n : Nat} {t : State} : n + m.depth = levels → t.cursor = c →
    farthest.Within t.farthest → (level .nothing n).expression t = replayed t answer
  behind {value : Expr} {d : Cursor} : answer = some (value, d) → Path base d m.after

/-- The answers that are remembered behind `base` are those that would be found. -/
def Faithful (base : Cursor) (levels : Nat) (s : State) : Prop :=
  ∀ (p : Nat) (answer : Option (Expr × Cursor)), s.expressions[p]? = some answer →
    base.afterTrivia.pos ≤ p →
    ∃ c m, c.pos = p ∧ Recorded base levels s.farthest c m answer

variable {base : Cursor} {levels : Nat} {statements : Memo Statement}

theorem Recorded.mono {f g : Farthest} {c : Cursor} {m : Mode} {answer : Option (Expr × Cursor)}
    (h : Recorded base levels f c m answer) (hfg : f.Within g) :
    Recorded base levels g c m answer :=
  { h with again := fun hn hc hwithin => h.again hn hc (hfg.trans hwithin) }

theorem Faithful.mono {s t : State} (h : Faithful base levels s)
    (htable : t.expressions = s.expressions) (hst : s.farthest.Within t.farthest) :
    Faithful base levels t := by
  intro p answer hp hle
  rw [htable] at hp
  obtain ⟨c, m, hc, hrec⟩ := h p answer hp hle
  exact ⟨c, m, hc, hrec.mono hst⟩

/-- The first parser remembers expressions and the second one does not. -/
def remembering (base : Cursor) (levels : Nat) (statements : Memo Statement) : Together where
  cursors m c := Path base c m
  states s t := s.farthest = t.farthest ∧ s.statements = statements ∧ Faithful base levels s
  trivia := Path.afterTrivia
  next hc hnext hm := hc.next hnext hm
  moveTo := by
    rintro s t c d ⟨hf, hs, hk⟩
    exact ⟨hf, hs, hk.mono rfl (Farthest.Within.refl _)⟩
  expect := by
    rintro s t e hc ⟨hf, hs, hk⟩
    refine ⟨?_, hs, hk.mono rfl (Farthest.within_expect _ _ e)⟩
    show s.farthest.expect s.cursor e = t.farthest.expect t.cursor e
    rw [hf, hc]
  blame := by
    rintro s t reason hc ⟨hf, hs, hk⟩
    refine ⟨?_, hs, hk.mono rfl (Farthest.within_blame _ _ reason)⟩
    show s.farthest.blame s.cursor reason = t.farthest.blame t.cursor reason
    rw [hf, hc]

/-- An answer that was just found is remembered as it would be found again. -/
theorem faithful_insert {s s' t : State} {m : Mode} {n : Nat}
    {answer : Option (Expr × Cursor)} (hs : s.cursor.Settled) (hpath : Path base s.cursor m)
    (hdue : m ≠ .operator) (hn : n + m.depth = levels) (hkept : Faithful base levels s')
    (hagain : ∀ u : State, u.cursor = s.cursor → s'.farthest.Within u.farthest →
      (level .nothing n).expression u = replayed u answer)
    (hbehind : ∀ value d, answer = some (value, d) → Path base d m.after)
    (ht : t = { s' with expressions := s'.expressions.insert s.cursor.pos answer }) :
    Faithful base levels t := by
  subst ht
  intro p other hp hle
  have hp : (s'.expressions.insert s.cursor.pos answer)[p]? = some other := hp
  rw [Std.TreeMap.getElem?_insert] at hp
  split at hp
  · rename_i heq
    have hpos : s.cursor.pos = p := by simpa using heq
    cases hp
    refine ⟨s.cursor, m, hpos, hs, hpath, hdue, ?_, fun h => hbehind _ _ h⟩
    intro n' u hn' hu hwithin
    obtain rfl : n' = n := by omega
    exact hagain u hu hwithin
  · exact hkept p other hp hle

/-- An answer that is in the table is found again at its place, and in the mode it was found in. -/
theorem Faithful.again {s t : State} {m : Mode} {n : Nat} {answer : Option (Expr × Cursor)}
    (h : Faithful base levels s) (hs : s.cursor.Settled) (hpath : Path base s.cursor m)
    (hn : n + m.depth = levels) (hcursor : s.cursor = t.cursor) (hf : s.farthest = t.farthest)
    (hlook : s.expressions[s.cursor.pos]? = some answer) :
    (level .nothing n).expression t = replayed t answer ∧
      ∀ value d, answer = some (value, d) → Path base d m.after := by
  have hle : base.afterTrivia.pos ≤ s.cursor.pos := by
    have := hpath.pos_le
    rwa [hs] at this
  obtain ⟨c, m', hpos, hrec⟩ := h _ _ hlook hle
  -- the path to a place has one mode, so the answer was found in this one
  obtain ⟨hc, rfl⟩ := hpath.unique hrec.path (by rw [hs, hrec.settled, hpos])
  rw [hs, hrec.settled] at hc
  exact ⟨hrec.again hn (hcursor.symm.trans hc) (hf ▸ Farthest.Within.refl _),
    fun _ _ => hrec.behind⟩

/-- Looking an answer up keeps step with finding it. -/
theorem remember_keeps {n : Nat} {m : Mode} {rule rule' : Rule Expr} (hm : m ≠ .operator)
    (hn : n + m.depth = levels)
    (hrule : (remembering base levels statements).lockstep.Firm m m.after rule rule')
    (hsame : ∀ t, t.cursor.Settled → (level .nothing n).expression t = rule' t)
    (hback : ∀ s t, rule' s = .unmatched t → t.cursor = s.cursor.afterTrivia) :
    (remembering base levels statements).lockstep.Keeps
      ((remembering base levels statements).lockstep.SettledAt m)
      ((remembering base levels statements).lockstep.At m) m.after
      (Memory.tables.expression rule) rule' := by
  intro s t hst
  obtain ⟨⟨⟨hcursor, hpath⟩, hf, hs, hkept⟩, hsettled, hsettled'⟩ := id hst
  unfold Memory.tables remember
  dsimp only
  split
  · -- an answer in the table was found at this place, and running the rule finds it again
    rename_i value d hlook
    obtain ⟨hagain, hbehind⟩ := hkept.again hsettled hpath hn hcursor hf hlook
    rw [← hsame t hsettled', hagain]
    exact ⟨rfl, ⟨rfl, hbehind _ _ rfl⟩, hf, hs, hkept.mono rfl (Farthest.Within.refl _)⟩
  · rename_i hlook
    obtain ⟨hagain, _⟩ := hkept.again hsettled hpath hn hcursor hf hlook
    rw [← hsame t hsettled', hagain]
    exact hst.1
  · -- the answer is found now, and running the rule again would find it again
    have hpair := hrule s t hst.1
    have hfound := hsame t hsettled'
    cases hx : rule s <;> cases hy : rule' t <;> simp only [hx, hy, Reply.Paired] at hpair ⊢
    · rename_i v s' w t'
      obtain ⟨rfl, ⟨hc', hpath'⟩, hf', hs', hkept'⟩ := hpair
      rw [hy] at hfound
      refine ⟨rfl, ⟨hc', hpath'⟩, hf', hs', ?_⟩
      refine faithful_insert hsettled hpath hm hn hkept' ?_ ?_ rfl
      · -- the answer put in the table is what a later run finds, with no less known of it
        intro u hu hwithin
        rw [rerun_matched hfound (hu.trans hcursor) (hf' ▸ hwithin), ← hc']
        rfl
      · intro value d hanswer
        cases hanswer
        exact hpath'
    · rename_i s' t'
      obtain ⟨⟨hc', hpath'⟩, hf', hs', hkept'⟩ := hpair
      rw [hy] at hfound
      refine ⟨⟨hc', hpath'⟩, hf', hs', ?_⟩
      refine faithful_insert hsettled hpath hm hn hkept' ?_ ?_ rfl
      · intro u hu hwithin
        rw [rerun_unmatched hfound (hu.trans hcursor) (hf' ▸ hwithin), hback t t' hy, hsettled',
          ← hcursor, ← hu]
        rfl
      · intro value d hanswer
        cases hanswer
    · exact hpair

/-- A parser that remembers expressions keeps step with one that remembers nothing. -/
theorem level_tables_firm (n : Nat) : ∀ {m : Mode}, m ≠ .operator → n + m.depth = levels →
    (remembering base levels statements).lockstep.Firm m m.after (level .tables n).expression
      (level .nothing n).expression := by
  induction n with
  | zero =>
    intro m hm hn
    refine Lockstep.Keeps.after_trivia (remember_keeps hm hn ?_ ?_ ?_)
    · exact Together.stop_keeps _ _ fun s t hst => hst.1.1
    · exact fun t ht => trivia_bind_settled ht
    · intro s t h
      cases h
  | succ n ih =>
    intro m hm hn
    have hinner := ih (Mode.opened_ne_operator m) (by rw [Mode.depth_opened]; omega)
    rw [Mode.after_opened] at hinner
    have heven := Lockstep.evenIn_of_eq (Together.eq_of_cursors _) hm hinner
    refine Lockstep.Keeps.after_trivia (remember_keeps hm hn (Lockstep.sum_firm hm hinner heven) ?_ ?_)
    · exact fun t ht => trivia_bind_settled ht
    · exact fun s t => cursor_of_unmatched_sum

end SceneScript.Parser
