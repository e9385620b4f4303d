import SceneScript.Proofs.Parser.Lenient
import SceneScript.Proofs.Parser.StatementSound
import SceneScript.Proofs.Parser.TokenTandem

/-!
# Where a reserved word ends a parse

A reserved word ends a parse from inside alternatives that could have been given up.  It does so
only where it stands as a name: a name is due there, or the word is assigned to.

What is due depends on what has been read, so each rule is taken behind the tokens before it.
-/

namespace SceneScript

open Grammar

/-- A name is due behind the tokens: they end with `local`, `function` or `call`, or in a list of
parameters that is still open. -/
inductive Grammar.NameDue : List Token → Prop
  | keyword {keyword : String} (ts : List Token) : keyword ∈ ["local", "function", "call"] →
      NameDue (ts ++ [word keyword])
  | parameter {t : Token} {name : String} {ps : List Token} {params : List String}
      (ts : List Token) : IsName t name → IsParameters ps params →
      NameDue (ts ++ word "function" :: t :: leftParen :: ps)

theorem Grammar.NameDue.behind {us : List Token} (h : NameDue us) (ts : List Token) :
    NameDue (ts ++ us) := by
  cases h with
  | keyword us hmem =>
    rw [← List.append_assoc]
    exact .keyword (ts ++ us) hmem
  | parameter us hname hparams =>
    rw [← List.append_assoc]
    exact .parameter (ts ++ us) hname hparams

/-- The word at a place behind the tokens stands as a name: one is due there, or the word is
assigned to. -/
def StandsAsName (ts : List Token) (place : Cursor) (word : String) : Prop :=
  NameDue ts ∨ ∃ d, (place.afterWord word).next? = some (equals, d)

namespace Parser

open Rule Cursor

variable {α β : Type} {s t : State} {ts us : List Token} {a : Abort}

/-- Behind the tokens and from a place on, a reserved word ends a parse only where it stands as a
name. -/
def Abort.Justified (us : List Token) (c : Cursor) : Abort → Prop
  | .tooDeep _ => True
  | .reservedWord place word => ∃ ts, c.Reads ts place ∧ StandsAsName (us ++ ts) place word

theorem Abort.Justified.onward {c d : Cursor} (h : a.Justified (us ++ ts) d) (hts : c.Reads ts d) :
    a.Justified us c := by
  cases a with
  | tooDeep place => trivial
  | reservedWord place word =>
    obtain ⟨more, hmore, hstands⟩ := h
    exact ⟨ts ++ more, hts.trans hmore, by rwa [← List.append_assoc]⟩

theorem Abort.Justified.behind {c : Cursor} (h : a.Justified us c) (ts : List Token) :
    a.Justified (ts ++ us) c := by
  cases a with
  | tooDeep place => trivial
  | reservedWord place word =>
    obtain ⟨more, hmore, hstands⟩ := h
    refine ⟨more, hmore, ?_⟩
    rw [List.append_assoc]
    exact hstands.imp_left fun hdue => hdue.behind ts

namespace Rule

/-- Behind the tokens the rule ends a parse for a reserved word only where that stands as a name. -/
def Justified (us : List Token) (x : Rule α) : Prop :=
  ∀ s a, x s = .aborted a → a.Justified us s.cursor

variable {x y : Rule α} {f : α → Rule β} {P : List Token → α → Prop}

/-- What comes from no tokens before the rule comes from none before those. -/
theorem Justified.anywhere (h : Justified [] x) : Justified us x := by
  intro s a ha
  have hbehind := (h s a ha).behind us
  rwa [List.append_nil] at hbehind

/-- A lenient rule ends the parse for no word. -/
theorem Lenient.abort_justified {c : Cursor} (h : Lenient x) (ha : x s = .aborted a) :
    a.Justified us c := by
  obtain ⟨place, rfl⟩ := h.tooDeep ha
  trivial

theorem Lenient.justified (h : Lenient x) : Justified us x := fun _ _ ha => h.abort_justified ha

/-! ## Rules put together -/

theorem Justified.bind (hx : Justified us x) (hreads : Yields x P)
    (hf : ∀ ts v, P ts v → Justified (us ++ ts) (f v)) : Justified us (x >>= f) := by
  intro s a h
  rcases aborted_bind_cases h with h | ⟨v, t, hm, h⟩
  · exact hx s a h
  · obtain ⟨ts, hts, hv⟩ := hreads s v t hm
    exact (hf ts v hv t a h).onward hts

/-- A rule behind one that reads given tokens. -/
theorem Justified.after [hx : Lenient x]
    (hreads : ∀ {s t v}, x s = .matched v t → s.cursor.Reads ts t.cursor)
    (hf : ∀ v, Justified (us ++ ts) (f v)) : Justified us (x >>= f) := by
  refine .bind (P := fun more _ => more = ts) hx.justified (fun s v t hm => ⟨ts, hreads hm, rfl⟩) ?_
  rintro _ v rfl
  exact hf v

/-- What comes behind need not be known if nothing there minds a reserved word. -/
theorem Justified.bind_lenient (hx : Justified us x) [hf : ∀ v, Lenient (f v)] :
    Justified us (x >>= f) := by
  intro s a h
  rcases aborted_bind_cases h with h | ⟨v, t, _, h⟩
  · exact hx s a h
  · exact (hf v).abort_justified h

theorem Justified.orElse (hx : Justified us x) (hy : Justified us y) :
    Justified us (x.orElse y) := by
  intro s a h
  rcases aborted_orElse_cases h with h | ⟨t, _, h⟩
  · exact hx s a h
  · exact hy (t.moveTo s.cursor) a h

theorem Justified.firstOf {rules : List (Rule α)} (h : ∀ rule ∈ rules, Justified us rule) :
    Justified us (firstOf rules) := by
  induction rules with
  | nil => exact lenient_firstOf_nil.justified
  | cons rule rules ih =>
    exact (h rule (List.mem_cons_self ..)).orElse
      (ih fun other hmem => h other (List.mem_cons_of_mem _ hmem))

/-- A repeated rule stands each time behind what it has matched before. -/
theorem Justified.many (hreads : Yields x P)
    (hx : ∀ ts vs, Listed P ts vs → Justified (us ++ ts) x) : Justified us x.many := by
  intro s a h
  fun_induction Rule.many x s generalizing us with
  | case1 s v t hv hlt ih =>
    obtain ⟨ts, hts, hP⟩ := hreads s v t hv
    have hmore : a.Justified (us ++ ts) t.cursor := by
      refine ih (fun more vs hlisted => ?_) (aborted_map h)
      rw [List.append_assoc]
      exact hx _ _ (.cons hP hlisted)
    exact hmore.onward hts
  | case2 | case3 => cases h
  | case4 s b hb =>
    cases h
    have hfirst := hx [] [] .nil s a hb
    rwa [List.append_nil] at hfirst

/-! ## Names -/

theorem justified_dueName {what : Expectation} (h : NameDue us) : Justified us (dueName what) := by
  intro s a ha
  rcases aborted_bind_cases ha with ha | ⟨_, t, htrivia, ha⟩
  · cases ha
  · cases htrivia
    rcases aborted_orElse_cases ha with ha | ⟨t, _, ha⟩
    · exact lenient_name.abort_justified ha
    · split at ha
      · cases ha
        refine ⟨[], reads_afterTrivia s.cursor, .inl ?_⟩
        rwa [List.append_nil]
      · cases ha

end Rule

/-! ## Statements -/

variable {levels : Nat} {statement : Rule Statement} {expression : Rule Expr}

/-- Statements behind one another. -/
theorem justified_body (h : Within levels statement) (hj : Justified [] statement) :
    Justified us statement.many :=
  .many h.yields fun _ _ _ => hj.anywhere

theorem justified_block (h : Within levels statement) (hj : Justified [] statement) :
    Justified us (block statement) :=
  .after (fun hm => (matched_opening (by decide) hm).2) fun _ => (justified_body h hj).bind_lenient

theorem justified_guarded [Lenient expression] (h : Within levels statement)
    (hj : Justified [] statement) (k : Inside levels expression) {first second : String}
    {make : Expr → List Statement → Statement} (hfirst : IsWord first) (hsecond : IsWord second) :
    Justified us (guarded first second make statement expression) := by
  refine .after (fun hm => (matched_opening hfirst hm).2) fun _ => ?_
  refine .bind lenient_condition.justified (condition_sound k) fun _ _ _ => ?_
  refine .after (fun hm => matched_dueKeyword hsecond hm) fun _ => ?_
  exact (justified_body h hj).bind_lenient

theorem justified_conditional [Lenient expression] (h : Within levels statement)
    (hj : Justified [] statement) (k : Inside levels expression) :
    Justified us (conditional statement expression) :=
  justified_guarded h hj k (by decide) (by decide)

theorem justified_loop [Lenient expression] (h : Within levels statement)
    (hj : Justified [] statement) (k : Inside levels expression) :
    Justified us (loop statement expression) :=
  justified_guarded h hj k (by decide) (by decide)

theorem justified_call [Lenient expression] : Justified us (call expression) := by
  refine .after (fun hm => matched_keyword (by decide) hm) fun _ => ?_
  rw [ofWord_eq_word (by decide)]
  exact (justified_dueName (.keyword us (by decide))).bind_lenient

/-- Behind some parameters another one is due. -/
theorem justified_parameters {t : Token} {name : String} (hname : IsName t name) :
    Justified (us ++ [word "function", t, leftParen]) parameter.many := by
  refine .many yields_parameter fun ps _ hlisted => ?_
  have hdue := NameDue.parameter us hname (parameters_of_listed hlisted).1
  refine (justified_dueName ?_).bind_lenient
  simpa using hdue

theorem justified_definition (h : Within levels statement) (hj : Justified [] statement) :
    Justified us (definition statement) := by
  refine .after (fun hm => (matched_opening (by decide) hm).2) fun _ => ?_
  rw [ofWord_eq_word (by decide)]
  have hyields : Yields (dueName .functionName) fun ts name => ∃ t, ts = [t] ∧ IsName t name :=
    fun s name t hm => ⟨_, (matched_dueName hm).1, _, rfl, (matched_dueName hm).2.1⟩
  refine .bind (justified_dueName (.keyword us (by decide))) hyields ?_
  rintro _ name ⟨t, rfl, hname⟩
  refine .after (fun hm => matched_dueSymbol isSymbol_leftParen hm) fun _ => ?_
  have hparameters : Justified (us ++ [word "function", t, leftParen]) parameter.many :=
    justified_parameters hname
  refine .bind (by simpa using hparameters) (.many yields_parameter stays_parameter) fun _ _ _ => ?_
  refine .after (fun hm => matched_dueSymbol isSymbol_rightParen hm) fun _ => ?_
  exact (justified_body h hj).bind_lenient

theorem justified_transformation [Lenient expression] (hj : Justified [] statement)
    (k : Inside levels expression) : Justified us (transformation statement expression) := by
  refine .bind (lenient_oneOf _ _).justified
    (yields_oneOf fun kind _ => isWord_transform kind) fun _ _ _ => ?_
  refine .after (fun hm => matched_dueSymbol isSymbol_leftParen hm) fun _ => ?_
  refine .bind (lenient_triple _).justified (triple_sound k isSymbol_rightParen) fun _ _ _ => ?_
  exact hj.anywhere.bind_lenient

/-! ## Assignments -/

/-- Where no name stands, a word ends a parse if `local` stands before it or `=` behind it, and a
`local` does if there is only a `=` behind it. -/
theorem aborted_unnamed {localPlace : Option Cursor} (hs : s.cursor.Settled)
    (h : unnamed localPlace s = .aborted a) :
    (∃ word, a = .reservedWord s.cursor word
        ∧ (localPlace.isSome = true ∨ ∃ d, (s.cursor.afterWord word).next? = some (equals, d)))
      ∨ ∃ place, localPlace = some place ∧ a = .reservedWord place "local"
        ∧ ∃ d, s.cursor.next? = some (equals, d) := by
  unfold unnamed at h
  dsimp only at h
  split at h
  · cases h
    exact .inl ⟨_, rfl, .inl rfl⟩
  · split at h
    · rename_i hequals
      cases h
      obtain ⟨d, hd⟩ := Option.isSome_iff_exists.1 hequals
      refine .inl ⟨_, rfl, .inr ⟨d, ?_⟩⟩
      rw [← next?_afterTrivia]
      exact (afterSymbol?_eq_some_iff (settled_afterTrivia _) isSymbol_equals).1 hd
    · cases h
  · split at h
    · rename_i hequals
      cases h
      obtain ⟨d, hd⟩ := Option.isSome_iff_exists.1 hequals
      exact .inr ⟨_, rfl, rfl, d, (afterSymbol?_eq_some_iff hs isSymbol_equals).1 hd⟩
    · cases h
  · cases h

/-- A `local` that is found stands behind trivia. -/
theorem matched_localKeyword_some {place : Cursor} (h : localKeyword s = .matched (some place) t) :
    place = s.cursor.afterTrivia ∧ t.cursor = place.afterWord "local" := by
  rcases matched_orElse h with h | ⟨u, _, h⟩
  · obtain ⟨opened, u, hopening, h⟩ := matched_bind h
    obtain ⟨heq, rfl⟩ := matched_pure h
    cases heq
    obtain ⟨_, w, hhere, h⟩ := matched_bind (matched_trivia_bind hopening)
    cases hhere
    obtain ⟨_, w, hmove, h⟩ := matched_bind h
    obtain ⟨rfl, rfl⟩ := matched_pure h
    exact ⟨rfl, (word?_of_afterKeyword? (by decide) (matched_move hmove)).2⟩
  · obtain ⟨heq, _⟩ := matched_pure h
    cases heq

theorem justified_assignee : Justified us assignee := by
  intro s a h
  rcases aborted_bind_cases h with h | ⟨localPlace, t, hlocal, h⟩
  · exact lenient_localKeyword.abort_justified h
  obtain ⟨ts, hts, rfl⟩ := yields_localKeyword _ _ _ hlocal
  rcases aborted_bind_cases (x := name.orElse (unnamed localPlace))
    (s := t.moveTo t.cursor.afterTrivia) h with h | ⟨target, u, _, h⟩
  · rcases aborted_orElse_cases h with h | ⟨u, _, h⟩
    · exact lenient_name.abort_justified h
    rcases aborted_unnamed (settled_afterTrivia _) h with
      ⟨word, rfl, hword⟩ | ⟨place, rfl, rfl, d, hd⟩
    · refine ⟨_, hts.behind, ?_⟩
      refine hword.imp_left fun hsome => ?_
      rw [hsome]
      exact .keyword us (by decide)
    · -- the word `local` itself is assigned to
      obtain ⟨rfl, hplace⟩ := matched_localKeyword_some hlocal
      refine ⟨[], reads_afterTrivia s.cursor, .inr ⟨d, ?_⟩⟩
      rw [← hplace, ← next?_afterTrivia]
      exact hd
  · have hdue : Lenient (dueSymbol "=" >>= fun _ => pure (localPlace.isSome, target)) :=
      inferInstance
    exact hdue.abort_justified h

theorem justified_assignment [Lenient expression] : Justified us (assignment expression) :=
  justified_assignee.bind_lenient

/-! ## All statements -/

theorem justified_anyStatement [Lenient expression] (h : Within levels statement)
    (hj : Justified [] statement) (k : Inside levels expression) :
    Justified [] (anyStatement statement expression) := by
  refine .firstOf fun rule hmem => ?_
  simp only [List.mem_cons, List.not_mem_nil, or_false] at hmem
  rcases hmem with rfl | rfl | rfl | rfl | rfl | rfl | rfl | rfl | rfl | rfl | rfl
  · exact lenient_camera.justified
  · exact lenient_light.justified
  · exact justified_block h hj
  · exact justified_conditional h hj k
  · exact justified_loop h hj k
  · exact justified_call
  · exact justified_definition h hj
  · exact lenient_command.justified
  · exact justified_assignment
  · exact justified_transformation hj k
  · exact (lenient_unmet _).justified

/-- The statements of the parser that remembers nothing. -/
theorem justified_level (levels : Nat) : Justified [] (level .nothing levels).statement := by
  induction levels with
  | zero =>
    have hdeep : Lenient (level .nothing 0).statement := lenient_bind (f := fun _ => stop _)
    exact hdeep.justified
  | succ levels ih =>
    have hany := justified_anyStatement (within_level levels) ih (inside_level levels)
    intro s a h
    have hbehind := hany (s.moveTo s.cursor.afterTrivia) a h
    exact hbehind.onward (reads_afterTrivia s.cursor)

end Parser

end SceneScript
