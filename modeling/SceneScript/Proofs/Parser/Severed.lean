import SceneScript.Proofs.Grammar.OpenBlocks
import SceneScript.Proofs.Parser.Delimited

/-!
# A source and what is left when it is cut off

Where a source is cut off in front of an `end`, the parser of what is left does the same as the
parser of the source, phrase by phrase, and nothing that it notes on the way is a reason to fail at
the cut.  A block that is open there is the first reason; from then on no rule matches, and nothing
that is tried instead changes the reason.
-/

namespace SceneScript.Parser

open Rule Grammar Cursor Computability

variable {α β : Type} {c c₀ p q : Cursor} {behind us rest ts : List Token} {f : Farthest}
variable {reason : Reason} {s s' t t' : State} {L M : Language Token}

/-! ## The two parsers -/

/-- A source has an `end` where what is left of it ends. -/
structure Cut (p q : Cursor) (behind : List Token) : Prop where
  settled : p.Settled ∧ q.Settled
  whole : p.Ahead (word "end" :: behind)
  left : q.isEnd = true

/-- The parsers of the source and of what is left of it stand before the same tokens, and the second
one has no reason yet to fail at the cut. -/
structure Severed (p q : Cursor) (us : List Token) (s t : State) : Prop where
  whole : s.cursor.Reads us p
  left : t.cursor.Reads us q
  early : t.farthest.Early q

theorem Cut.bare (h : Cut p q behind) : p.Bare ∧ q.Bare := by
  obtain ⟨d, hd, _⟩ := h.whole.next?
  exact ⟨.inr ⟨"end", word?_of_next? h.settled.1 hd rfl⟩, .inl h.left⟩

theorem Cut.ahead (h : Cut p q behind) : q.Ahead [] := by
  show q.afterTrivia.isEnd = true
  rw [h.settled.2]
  exact h.left

theorem Severed.whole_ahead (h : Cut p q behind) (hst : Severed p q us s t) :
    s.cursor.Ahead (us ++ word "end" :: behind) := hst.whole.ahead h.whole

theorem Severed.left_ahead (h : Cut p q behind) (hst : Severed p q us s t) : t.cursor.Ahead us := by
  simpa using hst.left.ahead h.ahead

/-- Both parsers go on by the same tokens. -/
theorem Severed.advance (h : Cut p q behind) (hst : Severed p q (us ++ rest) s t)
    (hs : s.cursor.Reads us s'.cursor) (ht : t.cursor.Reads us t'.cursor)
    (hearly : t'.farthest.Early q) : Severed p q rest s' t' :=
  ⟨hs.split hst.whole h.settled.1, ht.split hst.left h.settled.2, hearly⟩

theorem Severed.afterTrivia (h : Cut p q behind) (hst : Severed p q us s t) :
    Severed p q us (s.moveTo s.cursor.afterTrivia) (t.moveTo t.cursor.afterTrivia) :=
  ⟨(reads_afterTrivia s.cursor).split hst.whole h.settled.1,
    (reads_afterTrivia t.cursor).split hst.left h.settled.2, hst.early⟩

/-! ## Phrases that both read -/

/-- Both parsers read the tokens with a rule, or the first one ends the parse. -/
def ReadByBoth (p q : Cursor) (x : Rule α) (us rest : List Token) : Prop :=
  ∀ s t, Severed p q (us ++ rest) s t → (∃ a, x s = .aborted a)
    ∨ ∃ v s' t', x s = .matched v s' ∧ x t = .matched v t' ∧ t.cursor.Reads us t'.cursor
      ∧ Severed p q rest s' t'

/-- A rule that reads the tokens in the source reads them in what is left, if no word can go on what
it has begun at the cut. -/
theorem Cut.readByBoth (h : Cut p q behind) {x : Rule α} (hx : ∀ T : Tandem, T.Explores L x)
    (hLM : L ≤ prefixes M) (hended : ∀ word, us ++ rest ++ [Token.ofWord word] ∉ prefixes M)
    (hparses : Parses True x (Facing (us ++ (rest ++ word "end" :: behind)))
      fun _ vs => vs = rest ++ word "end" :: behind) : ReadByBoth p q x us rest := by
  intro s t hst
  have hahead := hst.whole_ahead h
  rw [List.append_assoc] at hahead
  have hdelimited : Delimited M (us ++ rest) s.cursor p t.cursor q :=
    ⟨hst.whole, hst.left, h.settled, h.bare, hended⟩
  have hpair := hdelimited.paired hx hLM hst.early
  rcases hparses s hahead with ⟨v, s', _, hm, hrest, rfl⟩ | ⟨_, place, hdeep⟩
  · rw [hm] at hpair
    cases hother : x t <;> simp only [hother, Reply.Paired] at hpair
    rename_i w t'
    obtain ⟨rfl, ws, _, ⟨_, hs', ht'⟩, hearly⟩ := hpair
    -- the first parser has read just these tokens, and so has the second
    obtain rfl : ws = us :=
      List.append_cancel_right ((hs'.ahead hrest).unique hahead)
    exact .inr ⟨v, s', t', hm, rfl, ht', hst.advance h hs' ht' hearly⟩
  · exact .inl ⟨_, hdeep⟩

/-- A rule that does not match in the source does not match in what is left. -/
theorem Cut.passes (h : Cut p q behind) {x : Rule α} (hx : ∀ T : Tandem, T.Explores L x)
    (hLM : L ≤ prefixes M) (hended : ∀ word, us ++ [Token.ofWord word] ∉ prefixes M)
    (hfails : Fails True x (Facing (us ++ word "end" :: behind))) (hst : Severed p q us s t) :
    (∃ a, x s = .aborted a)
      ∨ ∃ s' t', x s = .unmatched s' ∧ x t = .unmatched t' ∧ t'.farthest.Early q := by
  have hdelimited : Delimited M us s.cursor p t.cursor q :=
    ⟨hst.whole, hst.left, h.settled, h.bare, hended⟩
  have hpair := hdelimited.paired hx hLM hst.early
  rcases hfails s (hst.whole_ahead h) with ⟨s', hm⟩ | ⟨_, place, hdeep⟩
  · rw [hm] at hpair
    cases hother : x t <;> simp only [hother, Reply.Paired] at hpair
    exact .inr ⟨s', _, hm, rfl, hpair⟩
  · exact .inl ⟨_, hdeep⟩

/-- A token is read by both whatever comes next. -/
theorem Cut.token_readByBoth (h : Cut p q behind) {x : Rule α} {tok : Token}
    (hx : ∀ T : Tandem, T.Explores L x) (hone : ∀ us ∈ L, us.length = 1)
    (hparses : Parses True x (Facing (tok :: (rest ++ word "end" :: behind)))
      fun _ vs => vs = rest ++ word "end" :: behind) : ReadByBoth p q x [tok] rest := by
  refine h.readByBoth (M := L) hx (fun _ hus => mem_prefixes_of_mem hus) ?_ hparses
  rintro word ⟨more, hmem⟩
  have hlength := hone _ hmem
  simp at hlength

/-- A phrase that ends itself is read by both if a word comes next or nothing. -/
theorem Cut.phrase_readByBoth (h : Cut p q behind) {x : Rule α} (hx : ∀ T : Tandem, T.Explores L x)
    (hends : EndsItself L) (hus : us ∈ L) (hrest : WordFirst rest)
    (hparses : ∀ k, WordFirst k → k ≠ [] → Parses True x (Facing (us ++ k)) fun _ vs => vs = k) :
    ReadByBoth p q x us rest := by
  refine h.readByBoth (M := L) hx (fun _ hus => mem_prefixes_of_mem hus) ?_
    (hparses _ (hrest.append (wordFirst_end behind)) (by simp))
  intro word
  rw [List.append_assoc]
  exact hends.not_mem_prefixes hus (hrest.append (wordFirst_cons (Token.word?_ofWord word)))
    (by simp)

/-! ## The reason to fail at the cut -/

/-- The failure is at the cut, for a reason. -/
structure Farthest.Blamed (q : Cursor) (reason : Reason) (f : Farthest) : Prop where
  pos : f.place.pos = q.pos
  reason : f.reason = some reason

theorem Farthest.Blamed.expect (h : f.Blamed q reason) (hc : c.pos ≤ q.pos) (e : Expectation) :
    (f.expect c e).Blamed q reason := by
  rcases Nat.lt_or_eq_of_le hc with hlt | heq
  · rw [expect_of_gt (h.pos ▸ hlt)]
    exact h
  · rw [expect_of_eq (h.pos.trans heq.symm)]
    split
    · exact ⟨h.pos, h.reason⟩
    · exact h

theorem Farthest.Blamed.blame (h : f.Blamed q reason) (hc : c.pos ≤ q.pos) (other : Reason) :
    (f.blame c other).Blamed q reason := by
  rcases Nat.lt_or_eq_of_le hc with hlt | heq
  · rw [blame_of_gt (h.pos ▸ hlt)]
    exact h
  · rw [blame_of_eq (h.pos.trans heq.symm), if_neg (by simp [h.reason])]
    exact h

/-- If there is none yet, the first reason at the cut is noted. -/
theorem Farthest.Early.blamed (h : f.Early q) (hq : q.Settled) (reason : Reason) :
    (f.blame q reason).Blamed q reason := by
  rcases h with hlt | ⟨heq, hnone⟩
  · rw [hq] at hlt
    rw [Farthest.blame_of_lt hlt]
    exact ⟨rfl, rfl⟩
  · rw [hq] at heq
    rw [blame_of_eq heq, if_pos hnone]
    exact ⟨heq, rfl⟩

/-- In what is left of the source the reason is kept, whatever is tried. -/
theorem upheld_blamed (h : Cut p q behind) (hreads : c₀.Reads us q) :
    Upheld c₀ Set.univ (·.Blamed q reason) := by
  -- no token stands at the cut, so whatever is noted is in front of it or at it
  have hle : ∀ {ts c}, c₀.Reads ts c → c.pos ≤ q.pos := fun hc =>
    hc.pos_le_of_next?_eq_none hreads h.settled.2 (next?_eq_none_of_isEnd h.ahead)
  exact {
    lexical := fun hc _ _ _ hblamed => hblamed.blame (hle hc) _
    expect := fun hc _ _ _ _ hblamed => hblamed.expect (hle hc) _
    unclosed := fun hc _ _ hd _ _ hblamed => hblamed.blame (hle (hc.trans hd)) _ }

/-- At the end of what is left nothing is a reason to fail but an open block. -/
theorem upheld_early (h : Cut p q behind) (hreads : c₀.Reads [] q) :
    Upheld c₀ Set.univ (·.Early q) := by
  -- nothing is read here, so all that is noted is noted at the cut, and nothing was opened before
  have hnil : ∀ {ts c}, c₀.Reads ts c → ts = [] := fun hc =>
    List.prefix_nil.1 (hc.prefix_of_next?_eq_none hreads (next?_eq_none_of_isEnd h.ahead))
  have hplace : ∀ {ts c}, c₀.Reads ts c → c.Settled → c = q := by
    intro ts c hc hcs
    obtain rfl := hnil hc
    exact hc.unique hreads hcs h.settled.2
  exact {
    lexical := by
      intro ts c f error hc hcs _ herror _
      rw [hplace hc hcs, token?_of_isEnd h.left] at herror
      cases herror
    expect := fun hc hcs _ _ _ hearly => hearly.expect_of_le h.settled.2 _ (.inr (hplace hc hcs))
    unclosed := by
      intro ts us c d f keyword hc _ hopen hd _ _ _
      obtain ⟨_, rfl⟩ := List.append_eq_nil_iff.1 (hnil (hc.trans hd))
      cases hopen }

/-- A rule that does not match leaves what is known of the failure. -/
theorem Upheld.unmatched {Known : Farthest → Prop} {x : Rule α}
    (h : Upheld t.cursor Set.univ Known) (hx : ∀ T : Tandem, T.Explores L x)
    (hknown : Known t.farthest) (hm : x t = .unmatched t') : Known t'.farthest := by
  -- the tandem of the parser with itself in which everything may have been read
  have hpair := (hx (single (fun _ _ _ => trivial) h) [] (fun _ _ => trivial) t t
    ⟨⟨rfl, .refl _⟩, rfl, hknown⟩).paired fun _ => id
  rw [hm] at hpair
  exact hpair.2

end SceneScript.Parser
