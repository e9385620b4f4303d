import SceneScript.Proofs.Parser.Lockstep

/-!
# The way through an expression

`Path base c m` says that an operand is due at `base` and that an expression can be read from there
up to `c`, where it is in the mode `m`.  The tokens between two places are determined, so there is
only one mode in which a place can be reached.
-/

namespace SceneScript

namespace Cursor

/-- Trivia at either place makes no difference. -/
theorem Reads.afterTrivia {c d : Cursor} {ts : List Token} (h : c.Reads ts d) :
    c.afterTrivia.Reads ts d.afterTrivia := by
  cases ts with
  | nil =>
    rw [h.2]
    exact Reads.refl _
  | cons t ts =>
    obtain ⟨e, he, hrest⟩ := h
    refine ⟨e, (next?_afterTrivia c).trans he, ?_⟩
    simpa using hrest.trans (reads_afterTrivia d)

theorem Reads.pos_le {c d : Cursor} {ts : List Token} (h : c.Reads ts d) :
    c.afterTrivia.pos ≤ d.afterTrivia.pos :=
  h.afterTrivia.onward.pos_le

theorem Reads.pos_lt_afterTrivia {c d : Cursor} {ts : List Token} (h : c.Reads ts d)
    (hts : ts ≠ []) : c.afterTrivia.pos < d.afterTrivia.pos := by
  have hlt := h.pos_lt hts
  have hle := (onward_afterTrivia d).pos_le
  omega

/-- The tokens up to a place begin the tokens up to a later one. -/
theorem Reads.extend {c d e : Cursor} {ts us : List Token} (h : c.Reads ts d) (k : c.Reads us e)
    (hle : d.afterTrivia.pos ≤ e.afterTrivia.pos) :
    ∃ vs, us = ts ++ vs ∧ d.afterTrivia.Reads vs e.afterTrivia := by
  induction ts generalizing c us with
  | nil =>
    refine ⟨us, rfl, ?_⟩
    rw [← h.2]
    exact k.afterTrivia
  | cons t ts ih =>
    cases us with
    | nil =>
      have hlt := h.pos_lt_afterTrivia (by simp)
      rw [k.2] at hlt
      omega
    | cons u us =>
      obtain ⟨f, hf, hrest⟩ := h
      obtain ⟨g, hg, hmore⟩ := k
      rw [hf] at hg
      cases hg
      obtain ⟨vs, rfl, hvs⟩ := ih hrest hmore
      exact ⟨vs, rfl, hvs⟩

end Cursor

namespace Parser

/-- The mode behind some tokens, if an expression can go on with them. -/
def Mode.run : Mode → List Token → Option Mode
  | m, [] => some m
  | m, t :: ts => (m.step t).bind fun m' => m'.run ts

theorem Mode.run_append (m : Mode) (ts us : List Token) :
    m.run (ts ++ us) = (m.run ts).bind fun m' => m'.run us := by
  induction ts generalizing m with
  | nil => rfl
  | cons t ts ih =>
    show ((m.step t).bind fun m' => m'.run (ts ++ us)) = _
    rw [Mode.run]
    cases m.step t with
    | none => rfl
    | some m' => exact ih m'

/-- An expression that is due at one place can be read up to another one. -/
def Path (base c : Cursor) (m : Mode) : Prop :=
  ∃ ts, base.Reads ts c ∧ Mode.operand.run ts = some m

variable {base c d : Cursor} {m m' : Mode}

theorem Path.refl (c : Cursor) : Path c c .operand := ⟨[], Cursor.Reads.refl c, rfl⟩

theorem Path.afterTrivia (h : Path base c m) : Path base c.afterTrivia m := by
  obtain ⟨ts, hts, hrun⟩ := h
  refine ⟨ts, ?_, hrun⟩
  simpa using hts.trans (Cursor.reads_afterTrivia c)

theorem Path.next {t : Token} (h : Path base c m) (hnext : c.next? = some (t, d))
    (hm : m.step t = some m') : Path base d m' := by
  obtain ⟨ts, hts, hrun⟩ := h
  refine ⟨ts ++ [t], hts.trans (Cursor.reads_of_next? hnext), ?_⟩
  rw [Mode.run_append, hrun]
  show ((m.step t).bind fun m' => some m') = some m'
  rw [hm]
  rfl

theorem Path.pos_le (h : Path base c m) : base.afterTrivia.pos ≤ c.afterTrivia.pos := by
  obtain ⟨ts, hts, _⟩ := h
  exact hts.pos_le

/-- A place that is not before another one is that place, or the expression goes on to it. -/
theorem Path.extend (h : Path base c m) (k : Path base d m')
    (hle : c.afterTrivia.pos ≤ d.afterTrivia.pos) :
    (c.afterTrivia = d.afterTrivia ∧ m = m')
      ∨ c.afterTrivia.pos < d.afterTrivia.pos ∧
        ∃ t e m'', c.next? = some (t, e) ∧ m.step t = some m'' := by
  obtain ⟨ts, hts, hrun⟩ := h
  obtain ⟨us, hus, hrun'⟩ := k
  obtain ⟨vs, rfl, hvs⟩ := hts.extend hus hle
  rw [Mode.run_append, hrun] at hrun'
  -- the tokens up to the first place begin those up to the second one
  cases vs with
  | nil =>
    refine .inl ⟨by simpa using hvs.2, ?_⟩
    exact Option.some.inj hrun'
  | cons v vs =>
    right
    have hlt := hvs.pos_lt_afterTrivia (by simp)
    obtain ⟨e, he, _⟩ := hvs
    refine ⟨by simpa using hlt, v, e, ?_⟩
    cases hstep : m.step v with
    | none =>
      have hnone : ((m.step v).bind fun m' => m'.run vs) = some m' := hrun'
      rw [hstep] at hnone
      cases hnone
    | some m'' => exact ⟨m'', by simpa using he, rfl⟩

/-- A place is reached in one mode. -/
theorem Path.unique (h : Path base c m) (k : Path base d m')
    (hpos : c.afterTrivia.pos = d.afterTrivia.pos) : c.afterTrivia = d.afterTrivia ∧ m = m' := by
  rcases h.extend k (by omega) with heq | ⟨hlt, _⟩
  · exact heq
  · omega

end Parser

end SceneScript
