import SceneScript.Proofs.Parser.Alongside
import SceneScript.Proofs.Parser.Horizon

/-!
# Up to a word

Two parsers that find the same tokens up to a place where one of them finds a word or nothing, and
the other one another word or nothing, still go in tandem if nothing that has begun can go on with a
word there.  All that the second one notes on the way is before that place, or it is what could have
stood there.
-/

namespace SceneScript.Parser

open Rule Grammar Cursor Computability

variable {c₀ d₀ c d p q : Cursor} {all ts us : List Token} {f : Farthest} {s t : State}
variable {L M : Language Token}

/-! ## What is noted up to a place -/

theorem Farthest.Early.expect_of_le (hf : f.Early q) (hq : q.Settled) (e : Expectation)
    (hc : c.pos < q.pos ∨ c = q) : (f.expect c e).Early q := by
  rcases hc with hlt | rfl
  · have hlt' : c.pos < q.afterTrivia.pos := hq.symm ▸ hlt
    rcases Nat.lt_trichotomy f.place.pos c.pos with h | h | h
    · rw [expect_of_lt h]
      exact .inl hlt'
    · rw [expect_of_eq h]
      split
      · exact hf
      · exact hf
    · rwa [expect_of_gt h]
  · have hexpect := hf.expect e
    rwa [hq] at hexpect

theorem Farthest.Early.blame_of_lt (hf : f.Early q) (hq : q.Settled) (reason : Reason)
    (hc : c.pos < q.pos) : (f.blame c reason).Early q := by
  have hlt : c.pos < q.afterTrivia.pos := hq.symm ▸ hc
  rcases Nat.lt_trichotomy f.place.pos c.pos with h | h | h
  · rw [Farthest.blame_of_lt h]
    exact .inl hlt
  · rw [blame_of_eq h]
    split
    · exact .inl (h.symm ▸ hlt)
    · exact hf
  · rwa [blame_of_gt h]

/-! ## The tandem -/

/-- The same tokens lead from two places to two others, where there is a word or nothing and nothing
of the language that has begun can go on with a word. -/
structure Delimited (L : Language Token) (all : List Token) (c₀ p d₀ q : Cursor) : Prop where
  first : c₀.Reads all p
  second : d₀.Reads all q
  settled : p.Settled ∧ q.Settled
  bare : p.Bare ∧ q.Bare
  ended (word : String) : all ++ [Token.ofWord word] ∉ prefixes L

/-- The same token is found, or all have been read. -/
theorem Delimited.next (h : Delimited L all c₀ p d₀ q) (hcd : Shares c₀ d₀ all ts c d)
    (hcs : c.Settled) (hds : d.Settled) :
    (∃ t c' d', c.next? = some (t, c') ∧ d.next? = some (t, d')
        ∧ Shares c₀ d₀ all (ts ++ [t]) c' d' ∧ d.pos < q.pos)
      ∨ c = p ∧ d = q ∧ ts = all := by
  obtain ⟨⟨more, rfl⟩, hc, hd⟩ := hcd
  have hfirst := hc.split h.first h.settled.1
  have hsecond := hd.split h.second h.settled.2
  cases more with
  | nil =>
    exact .inr ⟨(hfirst.settled_eq hcs h.settled.1).symm, (hsecond.settled_eq hds h.settled.2).symm,
      (List.append_nil ts).symm⟩
  | cons t more =>
    have hlt := hsecond.pos_lt (List.cons_ne_nil t more)
    rw [hds] at hlt
    obtain ⟨c', hc', _⟩ := hfirst
    obtain ⟨d', hd', _⟩ := hsecond
    refine .inl ⟨t, c', d', hc', hd', ⟨⟨more, by simp⟩, ?_, ?_⟩, hlt⟩
    · exact hc.trans (reads_of_next? hc')
    · exact hd.trans (reads_of_next? hd')

/-- The second parser is before the word, or at it. -/
theorem Delimited.pos_lt_or_eq (h : Delimited L all c₀ p d₀ q) (hcd : Shares c₀ d₀ all ts c d)
    (hcs : c.Settled) (hds : d.Settled) : d.pos < q.pos ∨ d = q ∧ ts = all := by
  rcases h.next hcd hcs hds with ⟨_, _, _, _, _, _, hlt⟩ | ⟨_, hdq⟩
  · exact .inl hlt
  · exact .inr hdq

/-- Where there is no token for the first parser, a literal is found by neither. -/
theorem Delimited.literal {α : Type} {scan : Cursor → Except LexicalError (Option (α × Cursor))}
    {V : α → α → State → State → Prop} {U : State → State → Prop} {A : Abort → Abort → Prop}
    (h : Delimited L all c₀ p d₀ q)
    (hscan : ∀ c : Cursor, c.Bare → scan c = .ok none)
    (hst : Shares c₀ d₀ all ts s.cursor t.cursor) (hss : s.cursor.Settled) (hts : t.cursor.Settled)
    (hnone : s.cursor.next? = none) (hU : U s t) :
    Reply.Paired V U A (Rule.literal scan s) (Rule.literal scan t) := by
  rcases h.next hst hss hts with ⟨tok, c', d', hc', _⟩ | ⟨hp, hq, _⟩
  · rw [hnone] at hc'
    cases hc'
  · unfold Rule.literal
    rw [hscan s.cursor (hp ▸ h.bare.1), hscan t.cursor (hq ▸ h.bare.2)]
    exact hU

/-- Two parsers that find the same tokens up to a word. -/
def delimited (h : Delimited L all c₀ p d₀ q) : Tandem where
  viable := prefixes L
  viable_of_append := mem_prefixes_of_append
  cursors ts c d := Shares c₀ d₀ all ts c d
  states _ t := t.farthest.Early q
  aborts _ _ := True
  beyond _ := False
  beyond_of_le _ := id
  not_beyond _ := id
  moveTo _ _ h := h
  trivia := Shares.afterTrivia
  next := by
    rintro ts c d hcd hcs hds
    rcases h.next hcd hcs hds with ⟨t, c', d', hc', hd', hcd', _⟩ | ⟨rfl, rfl, rfl⟩
    · exact .inl ⟨t, c', d', hc', hd', .inl hcd'⟩
    · exact .inr (.inr ⟨h.bare.1, h.bare.2, h.ended⟩)
  number hcd hss hts hnone _ _ hst := h.literal (fun _ => Bare.number?) hcd hss hts hnone hst
  text hcd hss hts hnone _ _ hst := h.literal (fun _ => Bare.text?) hcd hss hts hnone hst
  expect e hcd hss hts _ _ _ hst :=
    hst.expect_of_le h.settled.2 e ((h.pos_lt_or_eq hcd hss hts).imp_right And.left)
  unclosed := by
    intro ts us s t c d keyword _ _ _ _ hcd hss hts hend hst
    rcases h.pos_lt_or_eq hcd hss hts with hlt | ⟨_, hall⟩
    · exact hst.blame_of_lt h.settled.2 _ hlt
    · -- an `end` would go on what has begun, which no word does
      rw [hall] at hend
      exact absurd hend (h.ended "end")
  tooDeep _ _ _ _ := trivial
  reserved _ _ _ _ _ _ := trivial

/-- A rule whose phrases begin phrases of the language does the same for both. -/
theorem Delimited.paired {α : Type} {x : Rule α} (h : Delimited L all s.cursor p t.cursor q)
    (hx : ∀ T : Tandem, T.Explores M x) (hML : M ≤ prefixes L) (hearly : t.farthest.Early q) :
    Reply.Paired (fun v w s' t' => v = w ∧ ∃ us ∈ M, Shares s.cursor t.cursor all us s'.cursor t'.cursor
        ∧ t'.farthest.Early q)
      (fun _ t' => t'.farthest.Early q) (fun _ _ => True) (x s) (x t) :=
  (hx (delimited h) [] (fun _ hus => hML hus) s t
    ⟨⟨List.nil_prefix, .refl _, .refl _⟩, hearly⟩).paired fun _ => id

end SceneScript.Parser
