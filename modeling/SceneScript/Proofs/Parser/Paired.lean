import SceneScript.Parser.Nesting

/-!
# Rules side by side

`Rule.Paired P V U A x y` compares two rules: from states in the relation `P`, both match and `V`
holds of what they yield and where they end, or both do not match and `U` holds of where they end,
or both abort and `A` holds of the reasons.  Each way to put rules together keeps this comparison.

The two rules may be one rule on two states, or the rules of two parsers on one state.
-/

namespace SceneScript.Parser

variable {α β γ δ : Type}

/-- Two answers of one kind whose contents are in relation. -/
def Reply.Paired (V : α → β → State → State → Prop) (U : State → State → Prop)
    (A : Abort → Abort → Prop) : Reply α → Reply β → Prop
  | .matched v s, .matched w t => V v w s t
  | .unmatched s, .unmatched t => U s t
  | .aborted a, .aborted b => A a b
  | _, _ => False

theorem Reply.Paired.mono {V V' : α → β → State → State → Prop} {U R : State → State → Prop}
    {A : Abort → Abort → Prop} {r : Reply α} {q : Reply β} (h : Reply.Paired V U A r q)
    (hV : ∀ v w s t, V v w s t → V' v w s t) (hU : ∀ s t, U s t → R s t) :
    Reply.Paired V' R A r q := by
  cases r <;> cases q <;> first | exact hV _ _ _ _ h | exact hU _ _ h | exact h

namespace Rule

theorem bind_apply (x : Rule α) (f : α → Rule β) (s : State) : (x >>= f) s =
    match x s with
    | .matched value t => f value t
    | .unmatched t => .unmatched t
    | .aborted a => .aborted a := rfl

/-- The rules do the same from states in relation. -/
def Paired (P : State → State → Prop) (V : α → β → State → State → Prop)
    (U : State → State → Prop) (A : Abort → Abort → Prop) (x : Rule α) (y : Rule β) : Prop :=
  ∀ s t, P s t → Reply.Paired V U A (x s) (y t)

section

variable {P P' : State → State → Prop} {V V' : α → β → State → State → Prop}
variable {W : γ → δ → State → State → Prop} {U R : State → State → Prop}
variable {A : Abort → Abort → Prop} {x x' : Rule α} {y y' : Rule β}

theorem Paired.mono (h : Paired P V U A x y) (hP : ∀ s t, P' s t → P s t)
    (hV : ∀ v w s t, V v w s t → V' v w s t) (hU : ∀ s t, U s t → R s t) :
    Paired P' V' R A x y :=
  fun s t hst => (h s t (hP s t hst)).mono hV hU

theorem Paired.weaken (h : Paired P V U A x y) (hP : ∀ s t, P' s t → P s t) :
    Paired P' V U A x y :=
  fun s t hst => h s t (hP s t hst)

theorem paired_pure {v : α} {w : β} (h : ∀ s t, P s t → V v w s t) :
    Paired P V U A (pure v) (pure w) :=
  fun s t hst => h s t hst

/-- One rule after the other, from two states. -/
theorem paired_bind {V : α → β → State → State → Prop} {f : α → Rule γ} {g : β → Rule δ}
    {s t : State} (h : Reply.Paired V U A (x s) (y t))
    (hfg : ∀ v w s t, V v w s t → Reply.Paired W U A (f v s) (g w t)) :
    Reply.Paired W U A ((x >>= f) s) ((y >>= g) t) := by
  rw [bind_apply, bind_apply]
  cases hx : x s <;> cases hy : y t <;> simp only [hx, hy, Reply.Paired] at h
  · exact hfg _ _ _ _ h
  · exact h
  · exact h

/-- One rule or else the other, from two states. -/
theorem paired_orElse {s t : State} (h : Reply.Paired V U A (x s) (y t))
    (h' : ∀ u w, U u w →
      Reply.Paired V R A (x' (u.moveTo s.cursor)) (y' (w.moveTo t.cursor))) :
    Reply.Paired V R A (x.orElse x' s) (y.orElse y' t) := by
  unfold Rule.orElse Rule.attempt
  cases hx : x s <;> cases hy : y t <;> simp only [hx, hy, Reply.Paired] at h
  · exact h
  · exact h' _ _ h
  · exact h

theorem Paired.bind {f : α → Rule γ} {g : β → Rule δ} (h : Paired P V U A x y)
    (hfg : ∀ v w, Paired (V v w) W U A (f v) (g w)) : Paired P W U A (x >>= f) (y >>= g) :=
  fun s t hst => paired_bind (h s t hst) fun v w s t hvw => hfg v w s t hvw

/-- Putting the cursor back leaves the rest of what an unmatched rule did. -/
theorem Paired.attempt (h : Paired P V U A x y)
    (hback : ∀ s t s' t', P s t → U s' t' → R (s'.moveTo s.cursor) (t'.moveTo t.cursor)) :
    Paired P V R A x.attempt y.attempt := by
  intro s t hst
  have hxy := h s t hst
  unfold Rule.attempt
  cases hx : x s <;> cases hy : y t <;> simp only [hx, hy, Reply.Paired] at hxy
  · exact hxy
  · exact hback s t _ _ hst hxy
  · exact hxy

/-- The second alternatives start from what the first ones leave. -/
theorem Paired.orElse (h : Paired P V U A x y)
    (hback : ∀ s t s' t', P s t → U s' t' → P' (s'.moveTo s.cursor) (t'.moveTo t.cursor))
    (h' : Paired P' V R A x' y') : Paired P V R A (x.orElse x') (y.orElse y') :=
  fun s t hst => paired_orElse (h s t hst) fun u w huw => h' _ _ (hback s t u w hst huw)

theorem paired_firstOf_nil : Paired P V P A (firstOf []) (firstOf []) :=
  fun _ _ hst => hst

theorem paired_unmet {e : Expectation} (h : ∀ s t, P s t → U (s.expect e) (t.expect e)) :
    Paired P V U A (unmet e) (unmet e) :=
  fun s t hst => h s t hst

/-- A rule that may be left out always matches. -/
theorem Paired.optionally {x y : Rule Unit} {V : Unit → Unit → State → State → Prop}
    (h : Paired P V (V () ()) A x y) : Paired P V U A x.optionally y.optionally := by
  intro s t hst
  have hxy := h s t hst
  unfold Rule.optionally
  cases hx : x s <;> cases hy : y t <;> simp only [hx, hy, Reply.Paired] at hxy
  · exact hxy
  · exact hxy
  · exact hxy

/-- The matches of the two rules both move their cursors on, or neither does. -/
def Even (P : State → State → Prop) (x : Rule α) (y : Rule β) : Prop :=
  ∀ s t v w s' t', P s t → x s = .matched v s' → y t = .matched w t' →
    (s'.cursor.rest.length < s.cursor.rest.length ↔ t'.cursor.rest.length < t.cursor.rest.length)

/-- Rules that keep a relation when they match keep it when repeated, until they do not match. -/
theorem Paired.many {x y : Rule α} {R : State → State → Prop}
    (h : Paired P (fun v w s t => v = w ∧ P s t) U A x y) (heven : Even P x y)
    (hPU : ∀ s t, P s t → U s t) :
    Paired P (fun vs ws s t => vs = ws ∧ U s t) R A x.many y.many := by
  intro s t hst
  induction hn : s.cursor.rest.length using Nat.strongRecOn generalizing s t with
  | ind n ih =>
    have hxy := h s t hst
    rw [Rule.many, Rule.many]
    cases hx : x s <;> cases hy : y t <;> simp only [hx, hy, Reply.Paired] at hxy
    · rename_i v s' w t'
      obtain ⟨rfl, hst'⟩ := hxy
      have hguard := heven s t v v s' t' hst hx hy
      by_cases hs : s'.cursor.rest.length < s.cursor.rest.length
      · simp only [if_pos hs, if_pos (hguard.1 hs)]
        have hrest := ih _ (hn ▸ hs) s' t' hst' rfl
        cases hmx : x.many s' <;> cases hmy : y.many t' <;>
          simp only [hmx, hmy, Reply.Paired] at hrest
        · obtain ⟨rfl, hend⟩ := hrest
          exact ⟨rfl, hend⟩
        · exact hrest
        · exact hrest
      · simp only [if_neg hs, if_neg (mt hguard.2 hs)]
        exact ⟨rfl, hPU _ _ hst'⟩
    · exact ⟨rfl, hxy⟩
    · exact hxy

end

end Rule

end SceneScript.Parser
