import SceneScript.Proofs.Grammar.StatementEnd
import SceneScript.Proofs.Parser.Delimited

/-!
# A source with another one behind it

A parser of a program goes in tandem with a parser that finds a word or nothing where the program
ends.  As no statement goes on with a word there, the second parser reads what the first one reads.
-/

namespace SceneScript.Parser

open Rule Grammar Cursor Computability

variable {q : Cursor} {all ts us : List Token} {s t : State}

/-- A body that goes on to the end of its source. -/
theorem isBody_of_many {levels : Nat} {ss : List Statement} (hahead : s.cursor.Ahead all)
    (hmany : (level .nothing levels).statement.many s = .matched ss t)
    (hend : t.cursor.afterTrivia.isEnd = true) : IsBody all ss := by
  obtain ⟨ts, hts, hbody, _⟩ := body_sound (within_level levels) _ _ _ hmany
  -- all tokens of the source are those that the statements have been read from
  have hall : s.cursor.Ahead (ts ++ []) := hts.ahead hend
  rw [List.append_nil] at hall
  exact hahead.unique hall ▸ hbody

/-- A statement in front of others of one source is read from another one that goes on with a word
behind them. -/
theorem statement_appended {levels : Nat} {st : Statement} {ss : List Statement} {u w : State}
    (hone : (level .nothing levels).statement s = .matched st u)
    (hmore : (level .nothing levels).statement.many u = .matched ss w)
    (hend : w.cursor.afterTrivia.isEnd = true) (hahead : s.cursor.Ahead all)
    (hreads : t.cursor.Reads all q) (hq : q.Settled) (hbare : q.Bare)
    (hearly : t.farthest.Early q) :
    ∃ rest t', (level .nothing levels).statement t = .matched st t' ∧ u.cursor.Ahead rest
      ∧ t'.cursor.Reads rest q ∧ t'.farthest.Early q := by
  obtain ⟨ts, hts, hread⟩ := (within_level levels).yields s st u hone
  obtain ⟨rest, rfl, hrest⟩ := hts.split_ahead hahead
  -- behind the statement comes another one, or the word; it ends in front of either
  have hended : ∀ word, ts ++ rest ++ [Token.ofWord word] ∉ prefixes statements := by
    intro word
    rw [List.append_assoc]
    exact endsItself_statements.not_mem_prefixes ⟨_, hread.isStatement⟩
      (wordFirst_append_of_isBody (isBody_of_many hrest hmore hend)
        (wordFirst_cons (Token.word?_ofWord word))) (by simp)
  obtain ⟨p, hp, hps, hpend⟩ := hahead.reads_end
  have hdelimited : Delimited Grammar.statements (ts ++ rest) s.cursor p t.cursor q :=
    ⟨hp, hreads, ⟨hps, hq⟩, ⟨.inl hpend, hbare⟩, hended⟩
  have hpair := hdelimited.paired (fun _ => (Tandem.level_statement_firm levels).explores)
    (fun us hus => mem_prefixes_of_mem hus) hearly
  rw [hone] at hpair
  cases hother : (level .nothing levels).statement t <;> simp only [hother, Reply.Paired] at hpair
  rename_i v t'
  obtain ⟨rfl, us, _, ⟨_, hus, hus'⟩, hearly'⟩ := hpair
  obtain ⟨rest', hrest', hahead'⟩ := hus.split_ahead hahead
  rw [hrest'] at hreads
  exact ⟨rest', t', rfl, hahead', hus'.split hreads hq, hearly'⟩

/-- Statements that are all of one source are read from another one that goes on with a word, and
then the parser goes on there as if nothing but the start had failed. -/
theorem many_appended {levels : Nat} {ss : List Statement} {s' : State}
    (hmany : (level .nothing levels).statement.many s = .matched ss s')
    (hend : s'.cursor.afterTrivia.isEnd = true) (hahead : s.cursor.Ahead all)
    (hreads : t.cursor.Reads all q) (hq : q.Settled) (hbare : q.Bare)
    (hearly : t.farthest.Early q) :
    ∃ t', (level .nothing levels).statement.many t
        = ((level .nothing levels).statement.many t').map (ss ++ ·)
      ∧ t'.cursor.afterTrivia = q ∧ t'.farthest.Early q := by
  induction ss generalizing s t all with
  | nil =>
    have hbody := isBody_of_many hahead hmany hend
    cases hbody
    exact ⟨t, (Reply.map_nil_append _).symm, hreads.2.trans hq, hearly⟩
  | cons st ss ih =>
    rcases Tandem.matched_many (advances_level levels) hmany with
      ⟨hnil, _⟩ | ⟨_, _, u, hcons, hone, hmore⟩
    · cases hnil
    · cases hcons
      obtain ⟨rest, t₁, hone', hahead', hreads', hearly'⟩ :=
        statement_appended hone hmore hend hahead hreads hq hbare hearly
      obtain ⟨t', hmany', hplace, hearly''⟩ := ih hmore hahead' hreads' hearly'
      refine ⟨t', ?_, hplace, hearly''⟩
      rw [Tandem.many_of_matched (advances_level levels) hone', hmany', Reply.map_cons_append]

end SceneScript.Parser
