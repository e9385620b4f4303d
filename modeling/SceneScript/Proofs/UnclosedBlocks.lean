import SceneScript.Proofs.Cursor.Cut
import SceneScript.Proofs.Layout
import SceneScript.Proofs.Parser.Honest
import SceneScript.Proofs.Parser.Unclosed

/-!
# Blocks that are not closed

The error for a block that is not closed names a block that lacks its `end` where the error is.
Where the last `end`s of a program are missing, all the blocks that they close lack one; it is the
innermost of them that is named, at the end of what is left.
-/

namespace SceneScript

open Grammar Cursor SceneScript.Parser Computability

/-- The error names a block by its keyword and its line: the tokens from the keyword to the place of
the error are the block up to the end of some statement, and there is no `end` at that place. -/
structure NamesOpenBlock (source : String) (e : ParseError) (keyword : String) (line : Nat)
    (opened place : Cursor) : Prop where
  reads : ∃ ts, (start source).Reads ts opened
  settled : opened.Settled ∧ place.Settled
  word : opened.word? = some keyword
  line : (Position.ofOffset source opened.pos).line = line
  before : opened.pos < place.pos
  isOpen : ∃ us, opened.Reads us place ∧ IsOpen keyword us
  position : e.position.offset = place.pos
  not_end : place.word? ≠ some "end"

/-- The last tokens are so many `end`s that close blocks inside one another, the innermost of which
is behind some of the tokens of these. -/
structure ClosedLast (ls : List Lexeme) (bodies us before : List Token) (keyword : String)
    (count : Nat) : Prop where
  tokens : ls.map Lexeme.token = bodies ++ us ++ List.replicate count (word "end")
  isBody : ∃ ss, IsBody bodies ss
  openBlocks : OpenBlocks count us before keyword

namespace Parser

variable {source : String} {e : ParseError} {keyword : String} {line : Nat}

/-- The keyword of an open block stands where the block is opened. -/
theorem LeftOpen.word? {c₀ opened place : Cursor} {ts us : List Token}
    (h : LeftOpen c₀ opened place keyword ts us) : opened.word? = some keyword := by
  obtain ⟨more, rfl, _⟩ := h.isOpen.exists_cons wordFirst_nil
  obtain ⟨c, hc, _⟩ := h.reads
  exact word?_of_next? h.settled hc rfl

theorem exists_namesOpenBlock (h : parseWith .nothing source = .error e)
    (hkind : e.kind = .unclosedBlock keyword line) :
    ∃ opened place, NamesOpenBlock source e keyword line opened place := by
  obtain ⟨s, ss, _, hrefusal⟩ := exists_refusal h (.inr ⟨keyword, line, hkind⟩)
  rw [hrefusal.kind] at hkind
  unfold Farthest.kind at hkind
  split at hkind
  · cases hkind
  · rename_i keyword opened hreason
    cases hkind
    obtain ⟨ts, us, hopen⟩ := hrefusal.honest.unclosed _ _ hreason
    -- the block has its keyword at least, so it opens before the place of the error
    have hne : us ≠ [] := by
      obtain ⟨more, rfl, _⟩ := hopen.isOpen.exists_cons wordFirst_nil
      exact List.cons_ne_nil _ more
    have hlt := hopen.reads.pos_lt hne
    rw [hopen.settled] at hlt
    refine ⟨opened, s.farthest.place, {
      reads := ⟨ts, hopen.before⟩
      settled := ⟨hopen.settled, hopen.end_settled⟩
      word := hopen.word?
      line := rfl
      before := hlt
      isOpen := ⟨us, hopen.reads, hopen.isOpen⟩
      position := hrefusal.position
      not_end := fun hend => ?_ }⟩
    -- with an `end` there the block would have been closed
    have hnext := (word?_eq_some_iff hopen.end_settled).1 hend
    have htoken := (next?_eq_some_iff hopen.end_settled).1 hnext
    exact not_isViable_of_many (hopen.before.trans hopen.reads) hopen.end_settled htoken
      hrefusal.many hrefusal.cursor (Nat.le_refl _) hopen.isViable
  · cases hkind

/-! ## Missing `end`s -/

variable {p q : Cursor} {behind us before : List Token} {count : Nat}

/-- Where another word stands there is no stray `end`. -/
theorem isStrayEnd_eq_false {c : Cursor} {text : String} {ts : List Token} (hc : c.Settled)
    (hahead : c.Ahead (word text :: ts)) (htext : text ≠ "end") : isStrayEnd c = false := by
  obtain ⟨d, hd, _⟩ := hahead
  have hword : c.word? ≠ some "end" := by
    rw [word?_of_next? hc hd rfl]
    exact fun heq => htext (Option.some.inj heq)
  rw [isStrayEnd, afterKeyword?_eq_none (by decide) hword]

/-- In what is left of an accepted source the parser stops before the blocks that are open, and the
innermost of them is the reason. -/
theorem many_cutOff {ss : List Statement} {s : State} {bodies : List Token} {cut : String}
    (hcut : Cut p q behind) (hwhole : (start source).Reads (bodies ++ us) p)
    (hleft : (start cut).Reads (bodies ++ us) q)
    (hbodies : bodies ∈ Grammar.statements∗) (hopen : OpenBlocks count us before keyword)
    (hmany : (level .nothing nestingLimit).statement.many (State.start source) = .matched ss s) :
    ∃ vs t opened, (level .nothing nestingLimit).statement.many (State.start cut) = .matched vs t
      ∧ t.cursor.Ahead us ∧ (start cut).Reads (bodies ++ before) opened ∧ opened.Settled
      ∧ t.farthest.Blamed q (.unclosed keyword opened) := by
  have hst : Severed p q (bodies ++ us) (State.start source) (State.start cut) :=
    ⟨hwhole, hleft, early_start cut q⟩
  rcases many_severed nestingLimit hcut hbodies hopen.wordFirst hst with
    ⟨a, ha⟩ | ⟨vs, s', t', hs, ht, hreads, hst'⟩
  · rw [hmany] at ha
    cases ha
  · rcases breaksOff_of_openBlocks hcut hopen nestingLimit s' t' hst' with
      ⟨a, ha⟩ | ⟨opened, u, hu, hbefore, hsettled, hblamed⟩
    · -- the source is accepted, so its parser has not given up
      rw [hmany, Tandem.many_of_aborted ha] at hs
      cases hs
    · refine ⟨vs, u, opened, ?_, ?_, hreads.trans hbefore, hsettled, hblamed⟩
      · rw [ht, Tandem.many_of_unmatched hu]
        exact congrArg (Reply.matched · u) (List.append_nil vs)
      · have hstays := (within_level nestingLimit).stays t' u hu
        exact (ahead_congr hstays.2).1 (hst'.left_ahead hcut)

/-- What is left of an accepted source without its last `end`s is refused for the innermost block. -/
theorem parseWith_cutOff {cut : String} {opened : Cursor} {vs : List Statement} {t : State}
    (hmany : (level .nothing nestingLimit).statement.many (State.start cut) = .matched vs t)
    (hahead : t.cursor.Ahead us) (hopen : OpenBlocks count us before keyword)
    (hblamed : t.farthest.Blamed q (.unclosed keyword opened)) :
    ∃ e, parseWith .nothing cut = .error e
      ∧ e.kind = .unclosedBlock keyword (Position.ofOffset cut opened.pos).line
      ∧ e.position = Position.ofOffset cut q.pos := by
  -- the outermost open block stands where the parser stops, so it is no stray `end` and not the end
  obtain ⟨text, more, rfl, htext⟩ := hopen.exists_cons
  have hplace := ahead_afterTrivia.2 hahead
  have hend : t.cursor.afterTrivia.isEnd = false := by
    obtain ⟨d, hd, _⟩ := hplace
    cases hisEnd : t.cursor.afterTrivia.isEnd with
    | false => rfl
    | true =>
      rw [next?_eq_none_of_isEnd (by rwa [afterTrivia_afterTrivia])] at hd
      cases hd
  have hstray := isStrayEnd_eq_false (settled_afterTrivia t.cursor) hplace htext
  have hparse : parseWith .nothing cut
      = .error (leftoverError cut t.farthest t.cursor.afterTrivia) := by
    simp only [parseWith, hmany, hend, Bool.false_eq_true, if_false]
  refine ⟨_, hparse, ?_⟩
  cases leftover_leftoverError cut t.farthest t.cursor.afterTrivia with
  | stray hstray' _ _ =>
    rw [hstray] at hstray'
    cases hstray'
  | failure _ _ hkind hposition =>
    refine ⟨?_, ?_⟩
    · rw [hkind, Farthest.kind, hblamed.reason]
    · rw [hposition, hblamed.pos]
  | trailing _ _ hnone _ _ =>
    rw [hblamed.reason] at hnone
    cases hnone

end Parser

/-- The place in front of the last `end`s, and the one of the keyword that opens the innermost
block. -/
theorem ClosedLast.exists_places {source : String} {ls : List Lexeme}
    {bodies us before : List Token} {keyword : String} {count : Nat}
    (h : ClosedLast ls bodies us before keyword count) (hls : tokenize source = .ok ls) :
    ∃ c d behind, (start source).Reads (bodies ++ before) c ∧ c.Settled
      ∧ (start source).Reads (bodies ++ us) d ∧ d.Settled ∧ c.Onward d
      ∧ d.Ahead (word "end" :: behind) := by
  obtain ⟨hpos, inner, rfl, _⟩ := h.openBlocks.exists_innermost
  obtain ⟨more, rfl⟩ := Nat.exists_eq_add_one.2 hpos
  have hahead := ahead_of_lexemes hls
  rw [h.tokens, ← List.append_assoc, List.append_assoc] at hahead
  obtain ⟨c, hc, hinner⟩ := hahead.reads
  obtain ⟨d, hd, hends⟩ := (ahead_afterTrivia.2 hinner).reads
  refine ⟨c.afterTrivia, d.afterTrivia, _, hc.behind, settled_afterTrivia c, ?_,
    settled_afterTrivia d, hd.behind.onward, ahead_afterTrivia.2 hends⟩
  rw [← List.append_assoc]
  exact hc.behind.trans hd.behind

/-- A place that tokens lead to is where the next token starts. -/
theorem Parser.pos_eq_tokenOffset {source : String} {ls : List Lexeme} {ts : List Token}
    {c : Cursor} (h : (start source).Reads ts c) (hc : c.Settled)
    (hls : tokenize source = .ok ls) : c.pos = tokenOffset source ls ts.length := by
  rw [← offset_eq_tokenOffset h hc hls, offset_ofOffset h.onward]

/-- A block that is said not to be closed is open where the error is, and of the blocks that the last
`end`s of a program close, the innermost one is named where these are cut off. -/
theorem unclosed_names_innermost_block :
    (∀ (source : String) (e : ParseError) (keyword : String) (line : Nat),
        parse source = .error e → e.kind = .unclosedBlock keyword line →
          ∃ opened place, NamesOpenBlock source e keyword line opened place)
      ∧ ∀ (source cut : String) (p : Program) (ls : List Lexeme) (bodies us before : List Token)
          (keyword : String) (count : Nat),
        parse source = .ok p → tokenize source = .ok ls →
        ClosedLast ls bodies us before keyword count →
        cut = cutOff source (tokenOffset source ls (bodies ++ us).length) →
          ∃ e, parse cut = .error e
            ∧ e.kind = .unclosedBlock keyword (Position.ofOffset source
                (tokenOffset source ls (bodies ++ before).length)).line
            ∧ e.position = Position.ofOffset cut (Text.byteLength cut.toList) := by
  refine ⟨fun source e keyword line h hkind => ?_, ?_⟩
  · rw [parse, parseWith_tables] at h
    exact exists_namesOpenBlock h hkind
  · intro source cut p ls bodies us before keyword count h hls hlast hcutOff
    rw [parse, parseWith_tables] at h
    obtain ⟨s, hmany, _⟩ := exists_many_of_parseWith h
    obtain ⟨c, d, behind, hc, hcs, hd, hds, hcd, hends⟩ := hlast.exists_places hls
    rw [← pos_eq_tokenOffset hd hds hls] at hcutOff
    -- both places are in what is left of the source as well
    obtain ⟨q, hq, hqs, hqend, hqpos⟩ := hd.exists_end_cutOff hds
    obtain ⟨o, ho, hos, hopos⟩ := hc.exists_cutOff hcs hcd
    rw [← hcutOff] at hq ho
    obtain ⟨ss, hbody⟩ := hlast.isBody
    obtain ⟨vs, t, opened, hmany', hahead, hopened, hosettled, hblamed⟩ :=
      many_cutOff ⟨⟨hds, hqs⟩, hends, hqend⟩ hd hq (mem_of_isBody hbody) hlast.openBlocks hmany
    -- the keyword stands at one place of what is left
    obtain rfl := hopened.unique ho hosettled hos
    obtain ⟨e, he, hkind, hposition⟩ := parseWith_cutOff hmany' hahead hlast.openBlocks hblamed
    refine ⟨e, ?_, ?_, ?_⟩
    · rw [parse, parseWith_tables]
      exact he
    · rw [hkind, hopos, hcutOff, ofOffset_cutOff hc.onward hcd, pos_eq_tokenOffset hc hcs hls]
    · rw [hposition, pos_of_isEnd hq.onward hqend]

/-- In a transformed block there is a loop, and in the loop an assignment to a variable with the name
`end`. -/
theorem unclosed_names_loop_in_transformed_block :
    (∃ e, parse "rotate(a, a, a) do\n  while a do end = a\n" = .error e
        ∧ e.kind = .unclosedBlock "while" 2
        ∧ ∃ opened place, NamesOpenBlock "rotate(a, a, a) do\n  while a do end = a\n" e "while" 2
            opened place)
      ∧ ∃ p ls us before cut e,
        parse "rotate(a, a, a) do\n  while a do end = a\nend end" = .ok p
          ∧ tokenize "rotate(a, a, a) do\n  while a do end = a\nend end" = .ok ls
          ∧ ClosedLast ls [] us before "while" 2
          ∧ cut = "rotate(a, a, a) do\n  while a do end = a\n" ∧ parse cut = .error e
          ∧ e.kind = .unclosedBlock "while" 2 ∧ e.position = ⟨40, 3, 1⟩ := by
  have hopen : ∃ e, parse "rotate(a, a, a) do\n  while a do end = a\n" = .error e
      ∧ e.kind = .unclosedBlock "while" 2 := exists_error_of_decide (by decide +kernel)
  have hparse : parse "rotate(a, a, a) do\n  while a do end = a\nend end" = .ok
      ⟨[.transformation .rotate (.identifier "a") (.identifier "a") (.identifier "a")
        (.block [.loop (.identifier "a") [.assignment false "end" (.identifier "a")]])]⟩ :=
    eq_ok_of_toOption (by decide +kernel)
  have htokens : tokenize "rotate(a, a, a) do\n  while a do end = a\nend end" = .ok
      [⟨.keyword "rotate", 0, 6⟩, ⟨.punctuation '(', 6, 7⟩, ⟨.identifier "a", 7, 8⟩,
        ⟨.punctuation ',', 8, 9⟩, ⟨.identifier "a", 10, 11⟩, ⟨.punctuation ',', 11, 12⟩,
        ⟨.identifier "a", 13, 14⟩, ⟨.punctuation ')', 14, 15⟩, ⟨.keyword "do", 16, 18⟩,
        ⟨.keyword "while", 21, 26⟩, ⟨.identifier "a", 27, 28⟩, ⟨.keyword "do", 29, 31⟩,
        ⟨.keyword "end", 32, 35⟩, ⟨.operator '=', 36, 37⟩, ⟨.identifier "a", 38, 39⟩,
        ⟨.keyword "end", 40, 43⟩, ⟨.keyword "end", 44, 47⟩] :=
    eq_ok_of_toOption (by decide +kernel)
  have hname : IsName (.identifier "a") "a" := .identifier "a" rfl
  have hsum : IsSum [.identifier "a"] (.identifier "a") :=
    .term (.factor (.value (.identifier hname)))
  have htransform : word "rotate" :: leftParen :: [.identifier "a", comma, .identifier "a", comma,
      .identifier "a", rightParen] ∈ transforms :=
    ⟨[_], ⟨.rotate, by decide, rfl⟩, _, ⟨[_], rfl, _, ⟨[_], ⟨_, hsum⟩, _, ⟨[_], rfl, _,
      ⟨[_], ⟨_, hsum⟩, _, ⟨[_], rfl, _, ⟨[_], ⟨_, hsum⟩, [_], rfl, rfl⟩, rfl⟩, rfl⟩, rfl⟩, rfl⟩,
      rfl⟩, rfl⟩
  have hassigned : IsStatement [word "end", equals, .identifier "a"]
      (.assignment false "end" (.identifier "a")) := .assignment false (.keyword "end" rfl) hsum
  have hloop : IsOpen "while" [word "while", .identifier "a", word "do", word "end", equals,
      .identifier "a"] := .loop ⟨_, .plain hsum⟩ (mem_of_isBody (.cons hassigned .nil))
  have hblock : IsOpen "do" [word "do"] := .block (Language.nil_mem_kstar _)
  have hopened := OpenBlocks.transformed htransform (.inside hblock (.innermost hloop))
  obtain ⟨e, he, hkind⟩ := hopen
  obtain ⟨e', he', hkind', hposition'⟩ := unclosed_names_innermost_block.2 _
    "rotate(a, a, a) do\n  while a do end = a\n" _ _ [] _ _ "while" 2 hparse htokens
    ⟨rfl, ⟨[], .nil⟩, hopened⟩ (by decide +kernel)
  refine ⟨⟨e, he, hkind, unclosed_names_innermost_block.1 _ _ _ _ he hkind⟩,
    _, _, _, _, _, e', hparse, htokens, ⟨rfl, ⟨[], .nil⟩, hopened⟩, rfl, he', ?_, ?_⟩
  · rw [hkind']
    decide +kernel
  · rw [hposition']
    decide +kernel

end SceneScript
