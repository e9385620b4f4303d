import SceneScript.Position
import SceneScript.Text.Line

/-!
# Lines and the places in them

A text is read up to some place.  The line feeds before the place are as many as there are lines
above, and what stands between the last of them and the place is the front of the line with that
number, unless the place is inside the line end.
-/

namespace SceneScript

namespace Text

variable {text here more below : List Char} {c : Char}

/-! ## The last line -/

theorem lineFeed_not_mem_lastLine (text : List Char) : '\n' ∉ lastLine text := by
  intro h
  rw [lastLine, List.mem_reverse] at h
  have hne := List.all_eq_true.1 List.all_takeWhile _ h
  simp at hne

/-- Above the last line are whole lines. -/
theorem exists_append_lastLine (text : List Char) :
    ∃ above, text = above ++ lastLine text ∧ (above = [] ∨ above.getLast? = some '\n') := by
  refine ⟨(text.reverse.dropWhile (· ≠ '\n')).reverse, ?_, ?_⟩
  · have hsplit := List.takeWhile_append_dropWhile (p := (· ≠ '\n')) (l := text.reverse)
    rw [lastLine, ← List.reverse_append, hsplit, List.reverse_reverse]
  · rw [List.reverse_eq_nil_iff, List.getLast?_reverse]
    have hstop := List.head?_dropWhile_not (· ≠ '\n') text.reverse
    cases hrest : text.reverse.dropWhile (· ≠ '\n') with
    | nil => exact .inl rfl
    | cons c rest =>
      rw [hrest] at hstop
      exact .inr (by simpa using hstop)

/-- A text without line feeds goes on in the last line. -/
theorem lastLine_append (h : '\n' ∉ more) : lastLine (text ++ more) = lastLine text ++ more := by
  have hmore : ∀ x ∈ more.reverse, decide (x ≠ '\n') = true := by
    intro x hx
    rw [decide_eq_true_eq]
    rintro rfl
    exact h (List.mem_reverse.1 hx)
  rw [lastLine, lastLine, List.reverse_append, List.takeWhile_append_of_pos hmore,
    List.reverse_append, List.reverse_reverse]

theorem lineFeeds_append (text more : List Char) :
    lineFeeds (text ++ more) = lineFeeds text + lineFeeds more := List.count_append

theorem lineFeeds_eq_zero_iff : lineFeeds text = 0 ↔ '\n' ∉ text := List.count_eq_zero

/-! ## Lines by their numbers -/

/-- A carriage return before a line feed belongs to no line. -/
theorem lines_carriageReturn (h : below.head? = some '\n') :
    lines ('\r' :: below) = lines below := by
  obtain ⟨rest, rfl⟩ := List.head?_eq_some_iff.1 h
  rw [lines, lines_lineFeed]

theorem lines_cons (hc : c ≠ '\n') (h : c = '\r' → below.head? ≠ some '\n') :
    lines (c :: below) = match lines below with
      | [] => [[c]]
      | line :: more => (c :: line) :: more := by
  rw [lines]
  · exact if_neg hc
  · rintro rest rfl rfl
    exact h rfl rfl

/-- Every line feed ends a line, and what is below it is no part of the lines above. -/
theorem exists_lines_above (above : List Char) : ∃ ls, ls.length = lineFeeds above + 1
    ∧ ∀ below, lines (above ++ '\n' :: below) = ls ++ lines below := by
  induction above with
  | nil => exact ⟨[[]], rfl, fun below => lines_lineFeed below⟩
  | cons c above ih =>
    obtain ⟨ls, hlength, hls⟩ := ih
    by_cases hc : c = '\n'
    · subst hc
      refine ⟨[] :: ls, ?_, fun below => ?_⟩
      · rw [List.length_cons, hlength, lineFeeds, lineFeeds, List.count_cons_self]
      · rw [List.cons_append, lines_lineFeed, hls, List.cons_append]
    · have hcount : lineFeeds (c :: above) = lineFeeds above := List.count_cons_of_ne hc
      have hhead : ∀ below, (above ++ '\n' :: below).head? = (above ++ ['\n']).head? := by
        cases above <;> simp
      rw [hcount]
      by_cases hend : c = '\r' ∧ (above ++ ['\n']).head? = some '\n'
      · obtain ⟨rfl, hfeed⟩ := hend
        refine ⟨ls, hlength, fun below => ?_⟩
        rw [List.cons_append, lines_carriageReturn ((hhead below).trans hfeed), hls]
      · -- the character is put to the first line, and there is one
        cases ls with
        | nil => cases hlength
        | cons line more =>
          refine ⟨(c :: line) :: more, hlength, fun below => ?_⟩
          have hsplit : c = '\r' → (above ++ '\n' :: below).head? ≠ some '\n' :=
            fun hcr hfeed => hend ⟨hcr, (hhead below).symm.trans hfeed⟩
          rw [List.cons_append, lines_cons hc hsplit, hls, List.cons_append]
          rfl

/-- A line by itself, with what is below its line feed. -/
theorem lines_line (hhere : '\n' ∉ here) (hend : here.getLast? ≠ some '\r') :
    lines (here ++ '\n' :: below) = here :: lines below := by
  induction here with
  | nil => exact lines_lineFeed below
  | cons c here ih =>
    obtain ⟨hc, hhere⟩ := not_or.1 (mt List.mem_cons.2 hhere)
    have hrest : here.getLast? ≠ some '\r' := by
      intro hlast
      exact hend (by rw [List.getLast?_cons, hlast, Option.getD_some])
    have hsplit : c = '\r' → (here ++ '\n' :: below).head? ≠ some '\n' := by
      rintro rfl hhead
      cases here with
      | nil => exact hend rfl
      | cons d here => exact hhere (by simp [Option.some.inj hhead])
    rw [List.cons_append, lines_cons (Ne.symm hc) hsplit, ih hhere hrest]

/-- The last line is ended by a line feed: it may lose a carriage return, and if there is nothing to
be ended there is an empty line more. -/
inductive Ended : List (List Char) → List (List Char) → Prop where
  | empty : Ended [] [[]]
  | same (line : List Char) : Ended [line] [line]
  | carriageReturn (line : List Char) : Ended [line ++ ['\r']] [line]
  | cons (line : List Char) {opened closed : List (List Char)} :
    Ended opened closed → Ended (line :: opened) (line :: closed)

theorem Ended.extend {first : List Char} {more closed : List (List Char)} (c : Char)
    (h : Ended (first :: more) closed) :
    ∃ line lines, closed = line :: lines ∧ Ended ((c :: first) :: more) ((c :: line) :: lines) := by
  cases h with
  | same => exact ⟨_, _, rfl, .same _⟩
  | carriageReturn line => exact ⟨_, _, rfl, .carriageReturn (c :: line)⟩
  | cons _ hmore => exact ⟨_, _, rfl, .cons _ hmore⟩

theorem ended_lines (text : List Char) : Ended (lines text) (lines (text ++ ['\n'])) := by
  fun_induction lines text with
  | case1 => exact .empty
  | case2 rest ih =>
    rw [List.cons_append, List.cons_append, lines_carriageReturn rfl, lines_lineFeed]
    exact .cons [] ih
  | case3 rest _ ih =>
    rw [List.cons_append, lines_lineFeed]
    exact .cons [] ih
  | case4 c rest _ hc hrest _ =>
    obtain rfl := lines_eq_nil_iff.1 hrest
    by_cases hreturn : c = '\r'
    · subst hreturn
      exact .carriageReturn []
    · rw [List.singleton_append, lines_cons hc fun h => absurd h hreturn]
      exact .same [c]
  | case5 c rest hnot hc first more hrest ih =>
    rw [hrest] at ih
    obtain ⟨line, lines', hlines, hended⟩ := ih.extend c
    have hsplit : c = '\r' → (rest ++ ['\n']).head? ≠ some '\n' := by
      intro hreturn hhead
      cases rest with
      | nil => cases hrest
      | cons d rest => exact hnot rest hreturn (by rw [Option.some.inj hhead])
    rw [List.cons_append, lines_cons hc hsplit, hlines]
    exact hended

/-- The first line of a text begins with what stands before its line end. -/
theorem prefix_first_line (hhere : '\n' ∉ here)
    (hend : here.getLast? = some '\r' → below.head? ≠ some '\n') :
    here <+: (lines (here ++ below))[0]?.getD [] := by
  induction here with
  | nil => exact List.nil_prefix
  | cons c here ih =>
    obtain ⟨hc, hhere⟩ := not_or.1 (mt List.mem_cons.2 hhere)
    have hmore : here <+: (lines (here ++ below))[0]?.getD [] := by
      refine ih hhere fun hlast => hend ?_
      rw [List.getLast?_cons, hlast, Option.getD_some]
    have hsplit : c = '\r' → (here ++ below).head? ≠ some '\n' := by
      rintro rfl hhead
      cases here with
      | nil => exact hend rfl hhead
      | cons d here => exact hhere (by simp [Option.some.inj hhead])
    rw [List.cons_append, lines_cons (Ne.symm hc) hsplit]
    cases hlines : lines (here ++ below) with
    | nil =>
      rw [hlines] at hmore
      rw [List.prefix_nil.1 hmore]
      exact List.prefix_rfl
    | cons line lines =>
      rw [hlines] at hmore
      exact List.cons_prefix_cons.2 ⟨rfl, hmore⟩

/-- The line that a place is in begins with what stands in it before the place. -/
theorem lastLine_prefix_line (hend : text.getLast? = some '\r' → below.head? ≠ some '\n') :
    lastLine text <+: (lines (text ++ below))[lineFeeds text]?.getD [] := by
  obtain ⟨above, htext, habove⟩ := exists_append_lastLine text
  have hfree := lineFeed_not_mem_lastLine text
  generalize lastLine text = here at htext hfree
  subst htext
  have hfirst : here <+: (lines (here ++ below))[0]?.getD [] := by
    refine prefix_first_line hfree fun hlast => hend ?_
    rw [List.getLast?_append, hlast, Option.some_or]
  rw [lineFeeds_append, lineFeeds_eq_zero_iff.2 hfree, Nat.add_zero, List.append_assoc]
  rcases habove with rfl | habove
  · exact hfirst
  · obtain ⟨above, rfl⟩ := List.getLast?_eq_some_iff.1 habove
    obtain ⟨ls, hlength, hls⟩ := exists_lines_above above
    have hcount : lineFeeds (above ++ ['\n']) = ls.length := by
      rw [hlength, lineFeeds_append]
      rfl
    rw [List.append_assoc, List.singleton_append, hls, hcount,
      List.getElem?_append_right (Nat.le_refl _), Nat.sub_self]
    exact hfirst

end Text

end SceneScript
