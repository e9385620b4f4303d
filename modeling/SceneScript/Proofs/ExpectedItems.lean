import SceneScript.Proofs.Parser.Honest

/-!
# What could have stood there

An error lists what could have stood at its place.  The list is gathered from alternatives that were
given up, and it holds nothing that is wrong: each item goes on the tokens before the place to the
beginning of a sentence, and none of them stands there.
-/

namespace SceneScript

open Grammar Cursor SceneScript.Parser

/-- What is expected would go on the tokens to the beginning of a sentence, each phrase of it and
not for want of phrases, and no phrase of it stands at the place.  Where a name is expected there is
not even a reserved word. -/
structure Missing (ts : List Token) (place : Cursor) (x : Expectation) : Prop where
  occurs : ∃ us, us ∈ x.phrases
  isViable : ∀ us ∈ x.phrases, IsViable (ts ++ us)
  absent : ∀ us ∈ x.phrases, ∀ d, ¬place.Reads us d
  word? : x.IsName → place.word? = none

namespace Parser

variable {source : String} {e : ParseError} {s : State} {ss : List Statement} {ts : List Token}

/-- No phrase that is expected is empty. -/
theorem Expectation.phrase_ne_nil {x : Expectation} {us : List Token} (h : us ∈ x.phrases) :
    us ≠ [] := by
  cases x with
  | literal text =>
    obtain ⟨t, rfl, _⟩ := h
    exact List.cons_ne_nil _ _
  | statement =>
    obtain ⟨st, hst⟩ := h
    exact isStatement_ne_nil hst
  | value =>
    obtain ⟨v, hv⟩ := h
    exact (IsNegation.value hv).ne_nil
  | identifier | functionName | parameterName =>
    obtain ⟨t, _, rfl, _⟩ := h
    exact List.cons_ne_nil _ _

/-- What stands at the place of a failure is no phrase of what was expected there: its first token
would go on the tokens before the place. -/
theorem Refusal.absent {x : Expectation} {us : List Token} {d : Cursor}
    (h : Refusal source e s ss ts) (hviable : ∀ us ∈ x.phrases, IsViable (ts ++ us))
    (hus : us ∈ x.phrases) : ¬s.farthest.place.Reads us d := by
  intro hreads
  obtain ⟨t, more, rfl⟩ := List.exists_cons_of_ne_nil (Expectation.phrase_ne_nil hus)
  obtain ⟨d', hnext, _⟩ := hreads
  have htoken := (next?_eq_some_iff h.settled).1 hnext
  have hmore := hviable _ hus
  rw [← List.singleton_append, ← List.append_assoc] at hmore
  exact not_isViable_of_many h.reads h.settled htoken h.many h.cursor (Nat.le_refl _)
    (IsViable.of_append hmore)

theorem Refusal.missing (h : Refusal source e s ss ts) {x : Expectation}
    (hx : x ∈ s.farthest.expected) : Missing ts s.farthest.place x := by
  obtain ⟨us, hfits⟩ := h.honest.expected x hx
  -- the tokens before the place are the same for all that is expected there
  obtain rfl := hfits.reads.tokens_unique h.reads h.settled
  exact ⟨hfits.occurs, hfits.isViable, fun _ hus _ => h.absent hfits.isViable hus, hfits.word?⟩

/-- What could have stood at the farthest failure when a rule has answered. -/
def Reply.expected {α : Type} : Reply α → List Expectation
  | .matched _ s => s.farthest.expected
  | .unmatched s => s.farthest.expected
  | .aborted _ => []

end Parser

/-- Where nothing fits or a block is not closed, no item of the error is wrong: behind the tokens
before its place a sentence could go on with each item, and the item does not stand there. -/
theorem expected_items_missing {source : String} {e : ParseError} (h : parse source = .error e)
    (hkind : e.kind = .unexpected ∨ ∃ keyword line, e.kind = .unclosedBlock keyword line) :
    ∃ ts place, (start source).Reads ts place ∧ place.Settled ∧ place.pos = e.position.offset
      ∧ ∀ item ∈ e.expected.items, ∃ x : Expectation, x.text = item ∧ Missing ts place x := by
  have hparse : parse source = parseWith .nothing source := parseWith_tables source
  rw [hparse] at h
  obtain ⟨s, ss, ts, hrefusal⟩ := exists_refusal h hkind
  refine ⟨ts, s.farthest.place, hrefusal.reads, hrefusal.settled, hrefusal.position.symm, ?_⟩
  intro item hitem
  rw [hrefusal.expected, Farthest.texts, List.mem_mergeSort] at hitem
  obtain ⟨x, hx, rfl⟩ := List.mem_map.1 hitem
  exact ⟨x, rfl, hrefusal.missing hx⟩

/-- In a parameter list that breaks off a parameter or the parenthesis is missing. -/
theorem expected_items_missing_in_parameters :
    ∃ e, parse "function f(a, 1" = .error e ∧ e.kind = .unexpected ∧ e.position.offset = 14
      ∧ (∀ item, item ∈ e.expected.items ↔ item = "`)`" ∨ item = "parameter name")
      ∧ ∃ ts place, (start "function f(a, 1").Reads ts place ∧ place.Settled
        ∧ place.pos = e.position.offset
        ∧ ∀ item ∈ e.expected.items, ∃ x : Expectation, x.text = item ∧ Missing ts place x := by
  obtain ⟨e, he, hkind, hoffset⟩ : ∃ e, parse "function f(a, 1" = .error e
      ∧ e.kind = .unexpected ∧ e.position.offset = 14 := exists_error_of_decide (by decide +kernel)
  refine ⟨e, he, hkind, hoffset, fun item => ?_, expected_items_missing he (.inl hkind)⟩
  -- the items are sorted, which is no matter here
  have hplain := he
  rw [parse, parseWith_tables] at hplain
  obtain ⟨s, ss, ts, hrefusal⟩ := exists_refusal hplain (.inl hkind)
  have hfarthest : ((level .nothing nestingLimit).statement.many
      (State.start "function f(a, 1")).expected = [.literal ")", .parameterName] := by
    decide +kernel
  rw [hrefusal.many] at hfarthest
  have hexpected : s.farthest.expected = [.literal ")", .parameterName] := hfarthest
  rw [hrefusal.expected, Farthest.texts, hexpected, List.mem_mergeSort]
  have htexts : [Expectation.literal ")", .parameterName].map Expectation.text
      = ["`)`", "parameter name"] := by decide
  rw [htexts]
  simp only [List.mem_cons, List.not_mem_nil, or_false]

end SceneScript
