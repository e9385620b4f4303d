import SceneScript.Proofs.OffendingToken

/-!
# What is noted is true

Expectations come from rules that were tried and given up, and a block that is not closed from the
first rule that missed its `end`.  All the same each of them is true of the place where it was noted:
what was expected there goes on the tokens before it to the beginning of a sentence, and the block
was opened by the tokens before the place and lacks nothing but its `end`.
-/

namespace SceneScript.Parser

open Grammar Cursor

variable {c₀ c d place : Cursor} {f : Farthest} {x : Expectation} {source : String}

/-! ## Failures that are true -/

/-- What is expected at a place goes on the tokens before it, and a name is expected only where
there is no word. -/
structure Fits (c₀ place : Cursor) (x : Expectation) (ts : List Token) : Prop where
  reads : c₀.Reads ts place
  settled : place.Settled
  occurs : ∃ us, us ∈ x.phrases
  isViable : ∀ us ∈ x.phrases, IsViable (ts ++ us)
  word? : x.IsName → place.word? = none

/-- The tokens between two places are a block without its `end`, which could come there. -/
structure LeftOpen (c₀ opened place : Cursor) (keyword : String) (ts us : List Token) : Prop where
  before : c₀.Reads ts opened
  settled : opened.Settled
  isOpen : IsOpen keyword us
  reads : opened.Reads us place
  end_settled : place.Settled
  isViable : IsViable (ts ++ us ++ [word "end"])

/-- All that is known of a failure is true of its place. -/
structure Farthest.Honest (c₀ : Cursor) (f : Farthest) : Prop where
  onward : c₀.Onward f.place
  expected : ∀ x ∈ f.expected, ∃ ts, Fits c₀ f.place x ts
  unclosed : ∀ keyword opened, f.reason = some (.unclosed keyword opened) →
    ∃ ts us, LeftOpen c₀ opened f.place keyword ts us

theorem Farthest.honest_start (c₀ : Cursor) : (Farthest.start c₀).Honest c₀ where
  onward := .refl c₀
  expected := nofun
  unclosed := nofun

theorem Farthest.Honest.reach (h : f.Honest c₀) (hc : c₀.Onward c) : (f.reach c).Honest c₀ :=
  reach_cases (fun _ => ⟨hc, nofun, nofun⟩) fun _ => h

/-- Places on the way are told apart by their offsets. -/
theorem Farthest.Honest.place_eq (h : f.Honest c₀) (hc : c₀.Onward c)
    (hpos : f.place.pos = c.pos) : f.place = c := h.onward.eq_of_pos_eq hc hpos

theorem Farthest.Honest.expect {ts : List Token} (h : f.Honest c₀) (hx : Fits c₀ c x ts) :
    (f.expect c x).Honest c₀ := by
  have hreach := h.reach hx.reads.onward
  refine expect_cases hreach fun hhere _ => ?_
  have hplace := hreach.place_eq hx.reads.onward hhere
  refine ⟨hreach.onward, fun y hy => ?_, hreach.unclosed⟩
  rcases List.mem_cons.1 hy with rfl | hy
  · exact ⟨ts, hplace.symm ▸ hx⟩
  · exact hreach.expected y hy

theorem Farthest.Honest.blame {reason : Reason} (h : f.Honest c₀) (hc : c₀.Onward c)
    (hreason : ∀ keyword opened, reason = .unclosed keyword opened →
      ∃ ts us, LeftOpen c₀ opened c keyword ts us) : (f.blame c reason).Honest c₀ := by
  have hreach := h.reach hc
  refine blame_cases hreach fun hhere _ => ?_
  have hplace := hreach.place_eq hc hhere
  refine ⟨hreach.onward, hreach.expected, fun keyword opened hsome => ?_⟩
  rw [hplace]
  exact hreason keyword opened (Option.some.inj hsome)

theorem upheld_honest (c₀ : Cursor) : Upheld c₀ {ts | IsViable ts} (·.Honest c₀) where
  lexical hreads _ _ _ hhonest := hhonest.blame hreads.onward nofun
  expect hreads hc hocc hviable hword hhonest :=
    hhonest.expect ⟨hreads, hc, hocc, hviable, hword⟩
  unclosed {ts us c d f keyword} hc hcs hopen hd hds hend hhonest := by
    refine hhonest.blame (hc.trans hd).onward fun keyword' opened heq => ?_
    cases heq
    exact ⟨ts, us, hc, hcs, hopen, hd, hds, hend⟩

/-! ## The errors that are made of them -/

/-- The farthest failure of a parser that refuses a source for it. -/
structure Refusal (source : String) (e : ParseError) (s : State) (ss : List Statement)
    (ts : List Token) : Prop where
  many : (level .nothing nestingLimit).statement.many (State.start source) = .matched ss s
  cursor : s.cursor.pos ≤ s.farthest.place.pos
  reads : (start source).Reads ts s.farthest.place
  settled : s.farthest.place.Settled
  honest : s.farthest.Honest (start source)
  kind : e.kind = s.farthest.kind source
  position : e.position.offset = s.farthest.place.pos
  expected : e.expected.items = s.farthest.texts

/-- A source that is refused for no literal and not for what is left of it is refused for the
farthest failure. -/
theorem exists_refusal {e : ParseError} (h : parseWith .nothing source = .error e)
    (hkind : e.kind = .unexpected ∨ ∃ keyword line, e.kind = .unclosedBlock keyword line) :
    ∃ s ss ts, Refusal source e s ss ts := by
  have hne : ∀ kind, e.kind = kind → kind = .unexpected ∨ ∃ keyword line,
      kind = .unclosedBlock keyword line := fun _ heq => heq ▸ hkind
  rcases refused_of_parseWith h with ⟨a, _, rfl⟩ | ⟨ss, s, hmany, _, rfl⟩
  · exfalso
    cases a <;> rcases hne _ rfl with hkind | ⟨_, _, hkind⟩ <;> cases hkind
  · have hhonest := known_of_many (upheld_honest (start source)) (Farthest.honest_start _) hmany
    have hcursor := Nat.le_trans (onward_afterTrivia s.cursor).pos_le (pos_le_of_many hmany)
    obtain ⟨_, hlocated⟩ := located_of_many hmany
    cases hleft : leftover_leftoverError source s.farthest s.cursor.afterTrivia with
    | stray _ hstray _ => rcases hne _ hstray with hkind | ⟨_, _, hkind⟩ <;> cases hkind
    | trailing _ _ _ htrailing _ =>
      exfalso
      -- what is left of a source is trailing, or it has a lexical error of its own
      have hlexical : (trailingKind s.cursor.afterTrivia = .trailingInput)
          ∨ ∃ error, trailingKind s.cursor.afterTrivia = .lexical error := by
        rw [trailingKind_eq (settled_afterTrivia s.cursor)]
        split
        · exact .inr ⟨_, rfl⟩
        · exact .inl rfl
      rcases hlexical with htail | ⟨error, htail⟩ <;> rw [htail] at htrailing <;>
        rcases hne _ htrailing with hkind | ⟨_, _, hkind⟩ <;> cases hkind
    | failure hstray hfar hfailure hposition =>
      obtain ⟨⟨ts, hreads, hsettled, _⟩, _⟩ := hlocated.reached_of_far hfar
      refine ⟨s, ss, ts, hmany, hcursor, hreads, hsettled, hhonest, hfailure, ?_, ?_⟩
      · rw [hposition, offset_ofOffset hreads.onward]
      · have hcond : (decide (s.cursor.afterTrivia.pos < s.farthest.place.pos)
            || s.farthest.reason.isSome) = true := by simpa using hfar
        simp only [leftoverError, hstray, hcond, Bool.false_eq_true, if_false, if_true]

end SceneScript.Parser
