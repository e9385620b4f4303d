import SceneScript.Proofs.Parser.Farthest
import SceneScript.Proofs.Parser.Reached

/-!
# A parser with a horizon

A parser of one source goes in tandem with a parser of another one that begins with the same tokens,
until it looks behind the last of these.  So if a parser has failed before that and some sentence
begins with the tokens, the parser of the sentence fails as well, which it does not.
-/

namespace SceneScript.Parser

open Rule Grammar Cursor Computability

variable {c₀ d₀ last behind c d : Cursor} {t : Token} {ts us : List Token}

theorem Farthest.pos_reach_le {f : Farthest} {p : Nat} (hf : f.place.pos ≤ p) (hc : c.pos ≤ p) :
    (f.reach c).place.pos ≤ p :=
  reach_cases (fun _ => hc) fun _ => hf

theorem Farthest.place_expect (f : Farthest) (c : Cursor) (e : Expectation) :
    (f.expect c e).place = (f.reach c).place :=
  expect_cases rfl fun _ _ => rfl

theorem Farthest.place_blame (f : Farthest) (c : Cursor) (reason : Reason) :
    (f.blame c reason).place = (f.reach c).place :=
  blame_cases rfl fun _ _ => rfl

/-- A token stands at a place in the first source, and behind the same tokens in the second. -/
structure Shared (c₀ d₀ last behind : Cursor) (t : Token) (ts us : List Token) : Prop where
  reads : c₀.Reads ts last
  settled : last.Settled
  next? : last.next? = some (t, behind)
  ahead : d₀.Ahead (ts ++ t :: us)

/-- The tokens are among the shared ones, and both have read them. -/
def Shares (c₀ d₀ : Cursor) (ts us : List Token) (c d : Cursor) : Prop :=
  us <+: ts ∧ c₀.Reads us c ∧ d₀.Reads us d

/-- Two cursors that have read shared tokens pass trivia. -/
theorem Shares.afterTrivia {rs : List Token} (h : Shares c₀ d₀ ts rs c d) :
    Shares c₀ d₀ ts rs c.afterTrivia d.afterTrivia := ⟨h.1, h.2.1.behind, h.2.2.behind⟩

theorem Shared.onward (h : Shared c₀ d₀ last behind t ts us) {rs : List Token}
    (hcd : Shares c₀ d₀ ts rs c d) : c.pos ≤ last.pos := by
  obtain ⟨⟨more, rfl⟩, hc, _⟩ := hcd
  exact (hc.split h.reads h.settled).onward.pos_le

/-- Both find the same token, and the first is beyond the horizon if it was the last one. -/
theorem Shared.found (h : Shared c₀ d₀ last behind t ts us) {rs : List Token}
    (hcd : Shares c₀ d₀ ts rs c d) (hc : c.Settled) :
    ∃ u c' d', c.next? = some (u, c') ∧ d.next? = some (u, d')
      ∧ (Shares c₀ d₀ ts (rs ++ [u]) c' d' ∨ last.pos < c'.pos) := by
  obtain ⟨⟨more, rfl⟩, hcr, hdr⟩ := hcd
  have hmore := hcr.split h.reads h.settled
  obtain ⟨rest, hrest, hahead⟩ := hdr.split_ahead h.ahead
  rw [List.append_assoc, List.append_cancel_left_eq] at hrest
  subst hrest
  -- the next token is the last one that is shared, or one of those before it
  cases more with
  | nil =>
    obtain rfl := hmore.settled_eq hc h.settled
    obtain ⟨d', hd', _⟩ := hahead
    have hbeyond := (beyond_of_next? h.next?).pos_lt
    rw [h.settled] at hbeyond
    exact ⟨t, behind, d', h.next?, hd', .inr hbeyond⟩
  | cons u more =>
    obtain ⟨c', hc', _⟩ := hmore
    obtain ⟨d', hd', _⟩ := hahead
    refine ⟨u, c', d', hc', hd', .inl ⟨⟨more, by simp⟩, ?_, ?_⟩⟩
    · exact hcr.trans (reads_of_next? hc')
    · exact hdr.trans (reads_of_next? hd')

/-- The parsers of two sources that share some tokens. -/
def horizon (h : Shared c₀ d₀ last behind t ts us) : Tandem where
  viable := Set.univ
  viable_of_append _ := trivial
  cursors rs c d := Shares c₀ d₀ ts rs c d
  states s _ := s.farthest.place.pos ≤ last.pos
  aborts
    | .tooDeep _, .tooDeep _ => True
    | .reservedWord _ _, .reservedWord _ _ => True
    | _, _ => False
  beyond p := last.pos < p
  beyond_of_le hpq hp := Nat.lt_of_lt_of_le hp hpq
  not_beyond hcd hlt := Nat.not_lt.2 (h.onward hcd) hlt
  moveTo _ _ hs := hs
  trivia := Shares.afterTrivia
  next hcd hc _ := .inl (h.found hcd hc)
  number := by
    intro rs s t hcd hs _ hnone _ _ _
    obtain ⟨u, c', d', hc', _⟩ := h.found hcd hs
    rw [hnone] at hc'
    cases hc'
  text := by
    intro rs s t hcd hs _ hnone _ _ _
    obtain ⟨u, c', d', hc', _⟩ := h.found hcd hs
    rw [hnone] at hc'
    cases hc'
  expect := by
    intro rs s t e hcd _ _ _ _ _ hs
    show (s.farthest.expect s.cursor e).place.pos ≤ last.pos
    rw [Farthest.place_expect]
    exact Farthest.pos_reach_le hs (h.onward hcd)
  unclosed := by
    intro rs us s t c d keyword _ _ _ _ hcd _ _ _ hs
    show (s.farthest.blame s.cursor _).place.pos ≤ last.pos
    rw [Farthest.place_blame]
    exact Farthest.pos_reach_le hs (h.onward hcd)
  tooDeep _ _ _ _ := trivial
  reserved _ _ _ _ _ _ := trivial

/-- What a parser of a sentence answers, it answers for all of it. -/
theorem sentence_many {source : String} {all : List Token} (hahead : (Cursor.start source).Ahead all)
    (h : IsSentence all) :
    (∃ ss w, (level .nothing nestingLimit).statement.many (State.start source) = .matched ss w
        ∧ w.cursor.afterTrivia.isEnd = true)
      ∨ ∃ place, (level .nothing nestingLimit).statement.many (State.start source)
        = .aborted (.tooDeep place) := by
  obtain ⟨p, hbody⟩ := h
  have hparse := (completeStatement_level nestingLimit).body all p.statements hbody []
    (.inl rfl) bounds_nil
  rw [List.append_nil] at hparse
  rcases hparse (State.start source) hahead with ⟨vs, w, us, hm, hus, _, rfl⟩ | ⟨_, place, hdeep⟩
  · exact .inl ⟨vs, w, hm, hus⟩
  · exact .inr ⟨place, hdeep⟩

/-- If a parser stops reading statements and has not looked behind a token, no sentence goes on with
that token. -/
theorem not_isSentence_of_many {source other : String} {ss : List Statement} {s : State}
    (h : Shared (Cursor.start source) (Cursor.start other) last behind t ts us)
    (hmany : (level .nothing nestingLimit).statement.many (State.start source) = .matched ss s)
    (hcursor : s.cursor.pos ≤ last.pos) (hfarthest : s.farthest.place.pos ≤ last.pos) :
    ¬IsSentence (ts ++ t :: us) := by
  intro hsentence
  have hstart : (horizon h).At [] (State.start source) (State.start other) :=
    ⟨⟨List.nil_prefix, .refl _, .refl _⟩, Nat.zero_le _⟩
  have hall : (horizon h).Allows [] Grammar.statements∗ := fun _ _ => trivial
  have hnot : ¬(horizon h).Gone s := by
    rintro (hgone | hgone)
    · exact Nat.not_lt.2 hcursor hgone
    · exact Nat.not_lt.2 hfarthest hgone
  have htracks := Tandem.program_tracks (T := horizon h) (U := fun _ _ => True) nestingLimit hall
    _ _ hstart
  rw [hmany] at htracks
  -- the parser of the sentence reads all of it, or gives up on its depth; the first does neither
  rcases sentence_many h.ahead hsentence with ⟨ss', w, hother, hend⟩ | ⟨place, hother⟩
  · rw [hother] at htracks
    rcases htracks with ⟨_, rs, _, ⟨⟨more, rfl⟩, _, hreads⟩, _⟩ | hgone | ⟨⟨_, _, hexcused⟩, _⟩
    · -- the two have stopped at the same tokens, of which one is left, but the second is at its end
      obtain ⟨rest, hrest, hahead⟩ := hreads.split_ahead h.ahead
      rw [List.nil_append, List.append_assoc, List.append_cancel_left_eq] at hrest
      have hnone := next?_eq_none_of_isEnd hend
      cases rest with
      | nil => simp at hrest
      | cons u rest =>
        obtain ⟨d', hd', _⟩ := hahead
        rw [hnone] at hd'
        cases hd'
    · exact hnot hgone
    · cases hexcused
  · rw [hother] at htracks
    rcases htracks with hpair | hgone | ⟨⟨_, _, hexcused⟩, _⟩
    · exact hpair
    · exact hnot hgone
    · cases hexcused

end SceneScript.Parser
