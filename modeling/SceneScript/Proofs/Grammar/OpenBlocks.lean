import SceneScript.Proofs.Grammar.StatementEnd

/-!
# Blocks that are not closed

The tokens before the last `end`s of a statement are blocks inside one another that are not closed.
`OpenBlocks` says how many there are, what stands before the innermost one, and which keyword opens
it.

A phrase is found among the tokens of such blocks because it ends itself: no word that comes behind
it goes on it.
-/

namespace SceneScript.Grammar

open SceneScript.Parser Computability

variable {L : Language Token} {keyword outer : String} {ts us before k : List Token} {count : Nat}

/-! ## Open blocks -/

/-- What a transformation is before the statement that it transforms. -/
def transforms : Language Token :=
  oneTokenOf Transform.all (fun kind => word kind.text) * (token leftParen * triples rightParen)

/-- So many blocks inside one another, each one perhaps transformed, and none of them closed. -/
inductive OpenBlocks : Nat → List Token → List Token → String → Prop
  | innermost {us : List Token} {keyword : String} : IsOpen keyword us →
      OpenBlocks 1 us [] keyword
  | inside {us ts before : List Token} {outer keyword : String} {count : Nat} : IsOpen outer us →
      OpenBlocks count ts before keyword → OpenBlocks (count + 1) (us ++ ts) (us ++ before) keyword
  | transformed {us ts before : List Token} {keyword : String} {count : Nat} : us ∈ transforms →
      OpenBlocks count ts before keyword → OpenBlocks count (us ++ ts) (us ++ before) keyword

/-- The innermost block is behind what is said to stand before it. -/
theorem OpenBlocks.exists_innermost (h : OpenBlocks count us before keyword) :
    0 < count ∧ ∃ ts, us = before ++ ts ∧ IsOpen keyword ts := by
  induction h with
  | @innermost us keyword h => exact ⟨Nat.one_pos, us, rfl, h⟩
  | inside _ _ ih =>
    obtain ⟨_, ts, rfl, hts⟩ := ih
    exact ⟨Nat.succ_pos _, ts, (List.append_assoc ..).symm, hts⟩
  | transformed _ _ ih =>
    obtain ⟨hpos, ts, rfl, hts⟩ := ih
    exact ⟨hpos, ts, (List.append_assoc ..).symm, hts⟩

/-! ## The first two tokens -/

/-- The keyword of a block comes first, and nothing is assigned to it. -/
theorem IsOpen.exists_cons (h : IsOpen keyword us) (hk : WordFirst k) :
    ∃ more, us = word keyword :: more ∧ (more ++ k).head? ≠ some equals := by
  cases h with
  | block hvs =>
    obtain ⟨ss, hss⟩ := isBody_of_mem hvs
    exact ⟨_, rfl, (wordFirst_append_of_isBody hss hk).head?_ne rfl⟩
  | conditional hcs hvs =>
    obtain ⟨c, hc⟩ := hcs
    refine ⟨_, rfl, ?_⟩
    rw [List.append_assoc]
    exact head?_ne_equals_of_isCondition hc (show (word "then").word? = some "then" from rfl)
  | loop hcs hvs =>
    obtain ⟨c, hc⟩ := hcs
    refine ⟨_, rfl, ?_⟩
    rw [List.append_assoc]
    exact head?_ne_equals_of_isCondition hc (show (word "do").word? = some "do" from rfl)
  | definition hns hps hvs =>
    obtain ⟨t, name, rfl, hname⟩ := hns
    exact ⟨_, rfl, head?_ne_of_word? hname.word? rfl _⟩

/-- Blocks that are open start with a word, which is no `end`. -/
theorem OpenBlocks.exists_cons (h : OpenBlocks count us before keyword) :
    ∃ text more, us = word text :: more ∧ text ≠ "end" := by
  have hopen : ∀ {outer us}, IsOpen outer us →
      ∃ text more, us = word text :: more ∧ text ≠ "end" := by
    intro outer us h
    obtain ⟨more, rfl, _⟩ := h.exists_cons wordFirst_nil
    exact ⟨outer, more, rfl, by cases h <;> decide⟩
  cases h with
  | innermost h => exact hopen h
  | inside h _ =>
    obtain ⟨text, more, rfl, htext⟩ := hopen h
    exact ⟨text, more ++ _, rfl, htext⟩
  | transformed h _ =>
    obtain ⟨_, ⟨kind, _, rfl⟩, more, _, rfl⟩ := h
    exact ⟨kind.text, more ++ _, rfl, by cases kind <;> decide⟩

theorem OpenBlocks.wordFirst (h : OpenBlocks count us before keyword) : WordFirst us := by
  obtain ⟨text, more, rfl, _⟩ := h.exists_cons
  exact wordFirst_cons (show (word text).word? = some text from rfl)

/-- Nothing is assigned to a word with a parenthesis behind it. -/
theorem not_mem_prefixes_assigned (t : Token) (us : List Token) :
    t :: leftParen :: us ∉ prefixes (assignees * sums) := by
  rintro ⟨more, _, ⟨ls, hls, _, ⟨_, ⟨u, name, rfl, hname⟩, _, rfl, rfl⟩, rfl⟩, ts, _, heq⟩
  -- an assignee has `=` or the name behind `local` in the second place
  rcases hls with rfl | rfl
  · cases (List.cons.inj (List.cons.inj heq).2).1
  · obtain ⟨rfl, _⟩ := List.cons.inj (List.cons.inj heq).2
    cases hname

end SceneScript.Grammar
