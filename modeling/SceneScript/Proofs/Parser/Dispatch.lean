import SceneScript.Proofs.Parser.Yields

/-!
# Which alternatives are passed over

Most alternatives of a choice begin with a keyword or a symbol, so what stands at a place says which
of them are passed over there without a trace.
-/

namespace SceneScript.Parser

open Rule

variable {α β : Type} {c : Cursor} {s : State}

/-! ## Passing over -/

/-- The rule does not match here and notes nothing. -/
def Misses (x : Rule α) (s : State) : Prop := ∃ d, x s = .unmatched (s.moveTo d)

/-- The rule does not match at the place and notes nothing, whatever else the state holds. -/
def Skips (c : Cursor) (x : Rule α) : Prop := ∀ s, s.cursor = c → Misses x s

/-- A choice whose first alternative misses is the other. -/
theorem orElse_of_misses {x y : Rule α} (h : Misses x s) : x.orElse y s = y s := by
  obtain ⟨d, hd⟩ := h
  unfold Rule.orElse Rule.attempt
  rw [hd]
  rfl

/-- What is passed over is so whatever would come behind it. -/
theorem skips_bind {x : Rule α} {f : α → Rule β} (h : Skips c x) : Skips c (x >>= f) := by
  intro s hs
  obtain ⟨d, hd⟩ := h s hs
  refine ⟨d, ?_⟩
  show andThen x f s = _
  unfold andThen
  rw [hd]

theorem skips_orElse {x y : Rule α} (hx : Skips c x) (hy : Skips c y) : Skips c (x.orElse y) := by
  intro s hs
  rw [Misses, orElse_of_misses (hx s hs)]
  exact hy s hs

theorem skips_firstOf {rules : List (Rule α)} (h : ∀ rule ∈ rules, Skips c rule) :
    Skips c (firstOf rules) := by
  induction rules with
  | nil => exact fun s _ => ⟨s.cursor, rfl⟩
  | cons rule rules ih =>
    exact skips_orElse (h rule (List.mem_cons_self ..))
      (ih fun other ho => h other (List.mem_cons_of_mem _ ho))

theorem skips_move {f : Cursor → Option Cursor} (h : f c = none) : Skips c (move f) := by
  rintro s rfl
  refine ⟨s.cursor, ?_⟩
  unfold Rule.move
  rw [h]
  rfl

/-- Trivia is passed over, too. -/
theorem skips_trivia_bind {f : Unit → Rule β} (hc : c.Settled) (h : Skips c (f ())) :
    Skips c (trivia >>= f) := by
  rintro s rfl
  rw [Misses, trivia_bind_settled hc]
  exact h s rfl

/-! ## By the next token -/

/-- Where another word stands, or none, the keyword does not. -/
theorem afterKeyword?_eq_none {word : String} (hw : Cursor.IsWord word)
    (h : c.word? ≠ some word) : c.afterKeyword? word = none := by
  rw [Option.eq_none_iff_forall_ne_some]
  intro d hd
  exact h (Cursor.word?_of_afterKeyword? hw hd).1

theorem skips_keyword {word : String} (hc : c.Settled) (hw : Cursor.IsWord word)
    (h : c.word? ≠ some word) : Skips c (Rule.keyword word) :=
  skips_trivia_bind hc (skips_move (afterKeyword?_eq_none hw h))

theorem skips_opening {word : String} (hc : c.Settled) (hw : Cursor.IsWord word)
    (h : c.word? ≠ some word) : Skips c (opening word) := by
  refine skips_trivia_bind hc ?_
  intro s hs
  exact skips_bind (skips_move (afterKeyword?_eq_none hw h)) s hs

theorem skips_oneOf {choices : List α} {word : α → String} (hc : c.Settled)
    (hw : ∀ choice ∈ choices, Cursor.IsWord (word choice))
    (h : ∀ choice ∈ choices, c.word? ≠ some (word choice)) : Skips c (oneOf choices word) := by
  refine skips_firstOf fun rule hmem => ?_
  obtain ⟨choice, hchoice, rfl⟩ := List.mem_map.1 hmem
  exact skips_bind (skips_keyword hc (hw choice hchoice) (h choice hchoice))

/-! ## Choices -/

/-- A choice with some of the alternatives left out that are passed over at a place. -/
inductive Kept (c : Cursor) : List (Rule α) → List (Rule α) → Prop
  | nil : Kept c [] []
  | keep {rule : Rule α} {rules kept : List (Rule α)} : Kept c rules kept →
      Kept c (rule :: rules) (rule :: kept)
  | skip {rule : Rule α} {rules kept : List (Rule α)} : Skips c rule → Kept c rules kept →
      Kept c (rule :: rules) kept

theorem Kept.refl (rules : List (Rule α)) : Kept c rules rules := by
  induction rules with
  | nil => exact .nil
  | cons rule rules ih => exact .keep ih

/-- Alternatives that are passed over make no difference to the choice. -/
theorem firstOf_of_kept {rules kept : List (Rule α)} (h : Kept s.cursor rules kept) :
    firstOf rules s = firstOf kept s := by
  generalize hc : s.cursor = c at h
  induction h generalizing s with
  | nil => rfl
  | keep _ ih =>
    show orElse _ _ s = orElse _ _ s
    unfold Rule.orElse
    split
    · rename_i rule rules kept _ t ht
      obtain ⟨u, _, rfl⟩ := unmatched_attempt ht
      exact ih hc
    · rfl
  | skip hskip _ ih =>
    rw [← ih hc]
    exact orElse_of_misses (hskip s hc)

/-- Alternatives that are tried after others. -/
theorem firstOf_append (rules others : List (Rule α)) (s : State) :
    firstOf (rules ++ others) s = (firstOf rules).orElse (firstOf others) s := by
  induction rules generalizing s with
  | nil => exact (orElse_of_misses ⟨s.cursor, rfl⟩).symm
  | cons rule rules ih =>
    show rule.orElse (firstOf (rules ++ others)) s
      = (rule.orElse (firstOf rules)).orElse (firstOf others) s
    cases hx : rule s with
    | matched value t =>
      rw [orElse_of_matched hx, orElse_of_matched (orElse_of_matched hx)]
    | unmatched t =>
      rw [orElse_of_unmatched hx, ih]
      have hrest : rule.orElse (firstOf rules) s = firstOf rules (t.moveTo s.cursor) :=
        orElse_of_unmatched hx
      cases hr : firstOf rules (t.moveTo s.cursor) with
      | matched value u =>
        rw [orElse_of_matched hr, orElse_of_matched (hrest.trans hr)]
      | unmatched u =>
        rw [orElse_of_unmatched hr, orElse_of_unmatched (hrest.trans hr)]
        rfl
      | aborted a =>
        rw [orElse_of_aborted hr, orElse_of_aborted (hrest.trans hr)]
    | aborted a =>
      rw [orElse_of_aborted hx, orElse_of_aborted (orElse_of_aborted hx)]

/-! ## Statements by their first word -/

/-- Alternatives with the words that lead them. -/
abbrev Led := List (List String × Rule Statement)

/-- The alternatives that a word leads. -/
def ledBy (word : Option String) (led : Led) : List (Rule Statement) :=
  (led.filter fun entry => entry.1.any (word == some ·)).map (·.2)

/-- What is tried before assignments, by the first word. -/
def ledBefore (statement : Rule Statement) (expression : Rule Expr) : Led :=
  [(["set"], camera expression), (["append"], light expression), (["do"], block statement),
    (["if"], conditional statement expression), (["while"], loop statement expression),
    (["call"], call expression), (["function"], definition statement),
    (["draw", "display", "append"], command expression)]

/-- What is tried after assignments, by the first word. -/
def ledAfter (statement : Rule Statement) (expression : Rule Expr) : Led :=
  [(["scale", "rotate", "translate"], transformation statement expression)]

/-- The word that stands at a place leaves the alternatives it leads to, and those without such
words. -/
theorem kept_ledBy {led : Led} {rules kept : List (Rule Statement)}
    (h : ∀ entry ∈ led, (∀ word ∈ entry.1, c.word? ≠ some word) → Skips c entry.2)
    (hrest : Kept c rules kept) :
    Kept c (led.map (·.2) ++ rules) (ledBy c.word? led ++ kept) := by
  induction led with
  | nil => exact hrest
  | cons entry led ih =>
    have ih := ih fun other hmem => h other (List.mem_cons_of_mem _ hmem)
    unfold ledBy at ih ⊢
    rw [List.filter_cons]
    split
    · exact .keep ih
    · rename_i hnone
      refine .skip (h entry (List.mem_cons_self ..) ?_) ih
      intro word hmem hword
      refine hnone (List.any_eq_true.2 ⟨word, hmem, ?_⟩)
      rw [hword]
      exact beq_self_eq_true _

theorem skips_of_not_led {statement : Rule Statement} {expression : Rule Expr} (hc : c.Settled) :
    ∀ entry ∈ ledBefore statement expression ++ ledAfter statement expression,
      (∀ word ∈ entry.1, c.word? ≠ some word) → Skips c entry.2 := by
  intro entry hmem h
  simp only [ledBefore, ledAfter, List.cons_append, List.nil_append, List.mem_cons,
    List.not_mem_nil, or_false] at hmem
  rcases hmem with rfl | rfl | rfl | rfl | rfl | rfl | rfl | rfl | rfl
  · exact skips_bind (skips_keyword hc (by decide) (h _ (List.mem_cons_self ..)))
  · exact skips_bind (skips_keyword hc (by decide) (h _ (List.mem_cons_self ..)))
  · exact skips_bind (skips_opening hc (by decide) (h _ (List.mem_cons_self ..)))
  · exact skips_bind (skips_opening hc (by decide) (h _ (List.mem_cons_self ..)))
  · exact skips_bind (skips_opening hc (by decide) (h _ (List.mem_cons_self ..)))
  · exact skips_bind (skips_keyword hc (by decide) (h _ (List.mem_cons_self ..)))
  · exact skips_bind (skips_opening hc (by decide) (h _ (List.mem_cons_self ..)))
  · refine skips_bind (skips_oneOf hc (fun name _ => Cursor.isWord_command name) ?_)
    exact fun name _ => h _ (by cases name <;> simp [Command.text])
  · refine skips_bind (skips_oneOf hc (fun kind _ => Cursor.isWord_transform kind) ?_)
    exact fun kind _ => h _ (by cases kind <;> simp [Transform.text])

/-- A statement is one that its first word leads, or an assignment. -/
theorem anyStatement_eq (statement : Rule Statement) (expression : Rule Expr)
    (hs : s.cursor.Settled) : anyStatement statement expression s =
      firstOf (ledBy s.cursor.word? (ledBefore statement expression) ++
        (assignment expression :: (ledBy s.cursor.word? (ledAfter statement expression) ++
          [unmet .statement]))) s := by
  have hskip : ∀ entry ∈ ledBefore statement expression ++ ledAfter statement expression, _ :=
    skips_of_not_led hs
  have hafter := kept_ledBy (fun entry hmem => hskip entry (List.mem_append_right _ hmem))
    (Kept.refl [unmet .statement])
  exact firstOf_of_kept (kept_ledBy
    (fun entry hmem => hskip entry (List.mem_append_left _ hmem)) (.keep hafter))

end SceneScript.Parser
