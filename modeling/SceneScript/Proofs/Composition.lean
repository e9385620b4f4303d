import SceneScript.Proofs.Cursor.Append
import SceneScript.Proofs.Cursor.Shift
import SceneScript.Proofs.Layout
import SceneScript.Proofs.Parser.Appended

/-!
# One source below another

A scene can be put together from texts.  If the first one is a program, and the second one starts
with a word or has no tokens, then both together are the statements of both, or they have the
error of the second one, further down.
-/

namespace SceneScript

open Cursor SceneScript.Parser Grammar

/-! ## Errors further down -/

/-- The same kind of error so many bytes in so many lines further down. -/
def Problem.movedDown (bytes lines : Nat) : Problem → Problem
  | .lexical e => .lexical (e.shift bytes)
  | .unclosedBlock keyword line => .unclosedBlock keyword (line + lines)
  | p => p

/-- The same error so many bytes in so many lines further down. -/
def ParseError.movedDown (bytes lines : Nat) (e : ParseError) : ParseError :=
  { e with kind := e.kind.movedDown bytes lines, position := e.position.movedDown bytes lines }

namespace Parser

variable {n : Nat} {c c₀ d d₀ : Cursor} {ts : List Token}

/-- What is read from a text further down is read further down. -/
theorem eq_shift_of_reads (hplace : d₀.afterTrivia = c₀.afterTrivia.shift n)
    (hc : c₀.Reads ts c) (hd : d₀.Reads ts d) (hcs : c.Settled) (hds : d.Settled) :
    d = c.shift n := by
  have hfront : d₀.Reads [] (c₀.afterTrivia.shift n) := hplace ▸ reads_afterTrivia d₀
  have hrest : c₀.afterTrivia.Reads ts c := Reads.split (reads_afterTrivia c₀) hc hcs
  exact hd.unique (hfront.trans hrest.shift) hds (settled_shift hcs)

/-- A text and the same text further down are read side by side. -/
theorem alongside_shift (hplace : d₀.afterTrivia = c₀.afterTrivia.shift n)
    (hfirst : ∀ e, c₀.afterTrivia.token? ≠ .error e) :
    Alongside (fun e e' => e' = e.shift n) c₀ d₀ where
  abreast {ts c d} hc hd hcs hds := by
    obtain rfl := eq_shift_of_reads hplace hc hd hcs hds
    cases htoken : c.token? with
    | error e =>
      refine .error e (e.shift n) htoken (by rw [token?_shift, htoken]; rfl) rfl ?_ ?_
      · rw [number?_shift]
        exact shiftFound_eq_error
      · rw [text?_shift]
        exact shiftFound_eq_error
    | ok found =>
      cases found with
      | none =>
        have hend := isEnd_of_token? hcs htoken
        exact .nothing hend hend
      | some found =>
        have hnext : c.next? = some found := (next?_eq_some_iff hcs).2 htoken
        exact .token found.1 found.2 (found.2.shift n) hnext (next?_shift hnext)
  first := hfirst

/-! ## The same errors further down -/

variable {above below : String} {n lines : Nat} {c₀ d₀ : Cursor}

theorem position_movedDown {c d : Cursor}
    (hplace : d₀.afterTrivia = c₀.afterTrivia.shift (Text.byteLength above.toList + 1))
    (hcd : Same c₀ d₀ c d) : Position.ofOffset (above ++ "\n" ++ below) d.pos
      = (Position.ofOffset below c.pos).movedDown (Text.byteLength above.toList + 1)
          (Text.lineFeeds above.toList + 1) := by
  obtain ⟨ts, hc, hd, hcs, hds⟩ := hcd
  rw [eq_shift_of_reads hplace hc hd hcs hds, pos_shift, Position.ofOffset_below]

theorem kind_movedDown {p q : Problem}
    (hplace : d₀.afterTrivia = c₀.afterTrivia.shift (Text.byteLength above.toList + 1))
    (h : SameKind (fun e e' => e' = e.shift (Text.byteLength above.toList + 1)) c₀ d₀ below
      (above ++ "\n" ++ below) p q) :
    q = p.movedDown (Text.byteLength above.toList + 1) (Text.lineFeeds above.toList + 1) := by
  cases h with
  | same p hp => cases p <;> first | rfl | exact hp.elim
  | lexical he => rw [he, Problem.movedDown]
  | unclosed hcd => rw [position_movedDown hplace hcd, Problem.movedDown, Position.movedDown]

theorem error_movedDown {e e' : ParseError}
    (hplace : d₀.afterTrivia = c₀.afterTrivia.shift (Text.byteLength above.toList + 1))
    (h : SameError (fun e e' => e' = e.shift (Text.byteLength above.toList + 1)) c₀ d₀ below
      (above ++ "\n" ++ below) e e') :
    e' = e.movedDown (Text.byteLength above.toList + 1) (Text.lineFeeds above.toList + 1) := by
  obtain ⟨c, d, hcd, hposition, hposition', hfound⟩ := h.place
  have hsame : e'.found = e.found := by
    rcases hfound with hfound | ⟨hc, hd⟩
    · exact hfound.symm
    · obtain ⟨ts, hcr, hdr, hcs, hds⟩ := hcd
      rw [hc, hd, eq_shift_of_reads hplace hcr hdr hcs hds, describe_shift]
  have hkind := kind_movedDown hplace h.kind
  have hmoved : Position.ofOffset (above ++ "\n" ++ below) d.pos = _ :=
    position_movedDown hplace hcd
  rw [← hposition, ← hposition'] at hmoved
  cases e'
  simp only [ParseError.movedDown, ParseError.mk.injEq]
  exact ⟨hkind, hmoved, h.expected.symm, hsame, h.suggestion.symm⟩

/-! ## Parsing both -/

/-- The start of a text below another one. -/
theorem start_below (above below : String) :
    start (above ++ "\n" ++ below) = (start above).append ('\n' :: below.toList) := by
  simp [start, Cursor.append]

theorem token?_ne_error_of_bare {c : Cursor} (h : c.Bare) (e : LexicalError) :
    c.token? ≠ .error e := by
  rcases h with hend | ⟨word, hword⟩
  · rw [token?_of_isEnd hend]
    exact nofun
  · rw [token?_of_word? hword]
    exact nofun

/-- The parser reads the program above, and then it goes on as if nothing had been there. -/
theorem exists_state_below {p : Program} (h : parseWith .nothing above = .ok p)
    (hbelow : (start below).afterTrivia.Bare) :
    ∃ t, (level .nothing nestingLimit).statement.many (State.start (above ++ "\n" ++ below))
        = ((level .nothing nestingLimit).statement.many t).map (p.statements ++ ·)
      ∧ t.cursor.afterTrivia = (start below).afterTrivia.shift (Text.byteLength above.toList + 1)
      ∧ t.farthest.Early t.cursor := by
  obtain ⟨all, hahead, _⟩ := isProgram_of_parseWith h
  -- the line feed between the two is trivia, and the lower text starts behind it
  have hplace : (Cursor.mk below.toList ((start above).endPos + 1)).afterTrivia
      = (start below).afterTrivia.shift (Text.byteLength above.toList + 1) := by
    rw [← afterTrivia_shift]
    simp [Cursor.shift, start, endPos]
  have hreads : ((start above).append ('\n' :: below.toList)).Reads all _ :=
    hahead.reads_append
  rw [← start_below, hplace] at hreads
  have hsettled := settled_shift (n := Text.byteLength above.toList + 1)
    (settled_afterTrivia (start below))
  have hearly : (State.start (above ++ "\n" ++ below)).farthest.Early
      ((start below).afterTrivia.shift (Text.byteLength above.toList + 1)) := early_start _ _
  obtain ⟨s, hmany, hend⟩ := exists_many_of_parseWith h
  obtain ⟨t, hmany', hcursor, hfarthest⟩ :=
    many_appended hmany hend hahead hreads hsettled hbelow hearly
  refine ⟨t, hmany', hcursor, ?_⟩
  unfold Farthest.Early at hfarthest ⊢
  rwa [hcursor, ← hsettled]

/-- The parser that remembers nothing reads what is above and then what is below. -/
theorem parseWith_below {p : Program} (h : parseWith .nothing above = .ok p)
    (hbelow : (start below).afterTrivia.Bare) :
    parseWith .nothing (above ++ "\n" ++ below) = match parseWith .nothing below with
      | .ok q => .ok ⟨p.statements ++ q.statements⟩
      | .error e => .error (e.movedDown (Text.byteLength above.toList + 1)
          (Text.lineFeeds above.toList + 1)) := by
  obtain ⟨t, hmany, hplace, hearly⟩ := exists_state_below h hbelow
  have halong := alongside_shift hplace (token?_ne_error_of_bare hbelow)
  have hsame := halong.answer_same below (above ++ "\n" ++ below) nestingLimit p.statements
    (s := State.start below) (t := t) rfl rfl (.early (early_start below _) hearly)
  rw [parseWith_eq_answer, parseWith_eq_answer, hmany]
  rcases hsame with ⟨more, hmore, hboth⟩ | ⟨e, e', hmore, hboth, herror⟩
  · rw [hmore, hboth]
  · rw [hmore, hboth, error_movedDown hplace herror]

end Parser

/-- A program and what is below it are parsed as both one after the other.  An error below is that
error further down. -/
theorem parse_below {above below : String} {p : Program} (h : parse above = .ok p)
    (hbelow : (start below).afterTrivia.Bare) :
    parse (above ++ "\n" ++ below) = match parse below with
      | .ok q => .ok ⟨p.statements ++ q.statements⟩
      | .error e => .error (e.movedDown (Text.byteLength above.toList + 1)
          (Text.lineFeeds above.toList + 1)) := by
  rw [parse, parseWith_tables] at h
  rw [parse, parse, parseWith_tables, parseWith_tables]
  exact parseWith_below h hbelow

/-- Below a command with a comment behind it, an assignment and a block that is not closed. -/
theorem parse_below_of_commented_draw :
    parse "draw(a) // one" = .ok ⟨[.command .draw [.identifier "a"]]⟩
      ∧ (start "b = c").afterTrivia.Bare
      ∧ parse ("draw(a) // one" ++ "\n" ++ "b = c") = .ok ⟨[.command .draw [.identifier "a"],
          .assignment false "b" (.identifier "c")]⟩
      ∧ (start "do b = c").afterTrivia.Bare
      ∧ ∃ e, parse ("draw(a) // one" ++ "\n" ++ "do b = c") = .error e
        ∧ e.kind = .unclosedBlock "do" 2 ∧ e.position = ⟨23, 2, 9⟩ := by
  have habove : parse "draw(a) // one" = .ok ⟨[.command .draw [.identifier "a"]]⟩ :=
    eq_ok_of_toOption (by decide +kernel)
  have hassigned : parse "b = c" = .ok ⟨[.assignment false "b" (.identifier "c")]⟩ :=
    eq_ok_of_toOption (by decide +kernel)
  have hopen : ∃ e, parse "do b = c" = .error e
      ∧ e.kind = .unclosedBlock "do" 1 ∧ e.position = ⟨8, 1, 9⟩ :=
    exists_error_of_decide (by decide +kernel)
  have hname : (start "b = c").afterTrivia.Bare := .inr ⟨"b", by decide +kernel⟩
  have hdo : (start "do b = c").afterTrivia.Bare := .inr ⟨"do", by decide +kernel⟩
  have hboth := parse_below habove hname
  rw [hassigned] at hboth
  obtain ⟨e, he, hkind, hposition⟩ := hopen
  have hmoved := parse_below habove hdo
  rw [he] at hmoved
  have hbytes : Text.byteLength "draw(a) // one".toList = 14 := by decide +kernel
  have hfeeds : Text.lineFeeds "draw(a) // one".toList = 0 := by decide +kernel
  refine ⟨habove, hname, hboth, hdo, _, hmoved, ?_, ?_⟩
  · simp only [ParseError.movedDown, hkind, hfeeds, Problem.movedDown]
  · simp only [ParseError.movedDown, hposition, hbytes, hfeeds, Position.movedDown]

end SceneScript
