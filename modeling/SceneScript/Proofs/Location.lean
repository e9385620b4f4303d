import Mathlib.Data.Prod.Lex
import SceneScript.Diagnostic
import SceneScript.Proofs.Parser.Reached
import SceneScript.Proofs.Text.Lines

/-!
# Lines and columns point at characters

A position counts the line feeds before a place and the characters behind the last of them.  The
lines of a source are cut at the same line feeds, but a carriage return before a line feed is cut
off as well, and there is no line behind the last line feed.  Both agree about where a place is.
-/

namespace SceneScript

open Cursor SceneScript.Parser

/-- The offset is inside a line end, between a carriage return and the line feed behind it. -/
def InLineEnd (source : String) (offset : Nat) : Prop :=
  ∃ above below, source.toList = above ++ ['\r'] ++ '\n' :: below
    ∧ offset = Text.byteLength (above ++ ['\r'])

/-- The text is what stands in a source from the start of a line up to an offset in that line. -/
def StandsBefore (source : String) (offset : Nat) (text : List Char) : Prop :=
  ∃ above below, source.toList = above ++ text ++ below ∧ offset = Text.byteLength (above ++ text)
    ∧ (above = [] ∨ above.getLast? = some '\n') ∧ '\n' ∉ text

/-- What is before the column of a position in the line of that number. -/
def NamedSource.front (file : NamedSource) (p : Position) : List Char :=
  ((file.line? p.line).getD "").toList.take (p.column - 1)

variable {source name : String} {before more below : List Char} {offset : Nat}

/-! ## The text before a place -/

theorem ofOffset_byteLength (h : source.toList = before ++ below) :
    Position.ofOffset source (Text.byteLength before) = Position.after before := by
  rw [Position.ofOffset, h, Text.takeBytes_byteLength_append]

/-- Behind more text a position is further down, or further on in the same line. -/
theorem Position.after_lt_after_append (hmore : more ≠ []) :
    toLex ((after before).line, (after before).column)
      < toLex ((after (before ++ more)).line, (after (before ++ more)).column) := by
  rw [Prod.Lex.toLex_lt_toLex]
  simp only [after, Text.lineFeeds_append]
  by_cases hfeed : '\n' ∈ more
  · have hpos : 0 < Text.lineFeeds more := List.count_pos_iff.2 hfeed
    exact .inl (by omega)
  · have hnone : Text.lineFeeds more = 0 := Text.lineFeeds_eq_zero_iff.2 hfeed
    have hlength : 0 < more.length := List.length_pos_iff.2 hmore
    rw [hnone, Text.lastLine_append hfeed, List.length_append]
    exact .inr ⟨rfl, by omega⟩

theorem ofOffset_lt_ofOffset {first second : Nat} (h : String.Pos.Raw.IsValid source ⟨first⟩)
    (k : String.Pos.Raw.IsValid source ⟨second⟩) (hlt : first < second) :
    toLex ((Position.ofOffset source first).line, (Position.ofOffset source first).column)
      < toLex ((Position.ofOffset source second).line,
          (Position.ofOffset source second).column) := by
  obtain ⟨before, below, hbefore, rfl⟩ := exists_split_of_isValid h
  obtain ⟨longer, rest, hlonger, rfl⟩ := exists_split_of_isValid k
  -- the text before the second place is no shorter, so it goes on from the first place
  have hprefix : before <+: longer := by
    have hboth : before <+: source.toList ∧ longer <+: source.toList :=
      ⟨⟨below, hbefore.symm⟩, ⟨rest, hlonger.symm⟩⟩
    rcases List.prefix_or_prefix_of_prefix hboth.1 hboth.2 with hprefix | ⟨more, rfl⟩
    · exact hprefix
    · rw [Text.byteLength_append] at hlt
      omega
  obtain ⟨more, rfl⟩ := hprefix
  rw [ofOffset_byteLength hbefore, ofOffset_byteLength hlonger]
  refine Position.after_lt_after_append ?_
  rintro rfl
  simp at hlt

/-! ## The line of a place -/

theorem NamedSource.toList_line?_succ (file : NamedSource) (number : Nat) :
    ((file.line? (number + 1)).getD "").toList
      = (Text.lines file.content.toList)[number]?.getD [] := by
  rw [line?, if_neg (Nat.succ_ne_zero number), Nat.add_sub_cancel]
  cases (Text.lines file.content.toList)[number]? with
  | none => rfl
  | some line => exact String.toList_ofList

/-- The line of a place begins with what stands before the place. -/
theorem NamedSource.front_after (h : source.toList = before ++ below)
    (hend : before.getLast? = some '\r' → below.head? ≠ some '\n') :
    (NamedSource.mk name source).front (Position.after before) = Text.lastLine before := by
  have hprefix := Text.lastLine_prefix_line hend
  rw [← h] at hprefix
  rw [front, Position.after, toList_line?_succ, Nat.add_sub_cancel]
  exact (List.prefix_iff_eq_take.1 hprefix).symm

theorem standsBefore_lastLine (h : source.toList = before ++ below) :
    StandsBefore source (Text.byteLength before) (Text.lastLine before) := by
  obtain ⟨above, hbefore, habove⟩ := Text.exists_append_lastLine before
  exact ⟨above, below, hbefore ▸ h, hbefore ▸ rfl, habove, Text.lineFeed_not_mem_lastLine before⟩

/-- A position says what stands before a place in its line, unless the place is inside a line
end. -/
theorem front_ofOffset (name : String) (h : String.Pos.Raw.IsValid source ⟨offset⟩)
    (hend : ¬InLineEnd source offset) :
    ((NamedSource.mk name source).front (Position.ofOffset source offset)).length
        = (Position.ofOffset source offset).column - 1
      ∧ StandsBefore source offset
          ((NamedSource.mk name source).front (Position.ofOffset source offset)) := by
  obtain ⟨before, below, hbefore, rfl⟩ := exists_split_of_isValid h
  have hsplit : before.getLast? = some '\r' → below.head? ≠ some '\n' := by
    intro hlast hhead
    obtain ⟨above, rfl⟩ := List.getLast?_eq_some_iff.1 hlast
    obtain ⟨rest, rfl⟩ := List.head?_eq_some_iff.1 hhead
    exact hend ⟨above, rest, hbefore, rfl⟩
  rw [ofOffset_byteLength hbefore, NamedSource.front_after hbefore hsplit]
  exact ⟨rfl, standsBefore_lastLine hbefore⟩

/-! ## The place of an error -/

theorem head?_of_inLineEnd (h : InLineEnd source offset) :
    (Text.dropBytes offset source.toList).head? = some '\n' := by
  obtain ⟨above, below, hsource, rfl⟩ := h
  rw [hsource, Text.dropBytes_byteLength_append, List.head?_cons]

/-- Trivia is passed before an error, and the rest of a line end is trivia. -/
theorem not_inLineEnd_of_settled {c : Cursor} (h : (start source).Onward c) (hc : c.Settled) :
    ¬InLineEnd source c.pos := by
  intro hend
  have hseek : Text.dropBytes c.pos source.toList = c.rest := congrArg Cursor.rest (seek_pos h)
  have hhead := head?_of_inLineEnd hend
  rw [hseek] at hhead
  obtain ⟨below, hrest⟩ := List.head?_eq_some_iff.1 hhead
  exact absurd (hc.isBlank_eq_false hrest) (by decide)

/-- The line of an error begins with what stands before the error. -/
theorem front_of_parse_error {e : ParseError} (name : String) (h : parse source = .error e) :
    ((NamedSource.mk name source).front e.position).length = e.position.column - 1
      ∧ StandsBefore source e.position.offset ((NamedSource.mk name source).front e.position) := by
  have hparse : parse source = parseWith .nothing source := parseWith_tables source
  rw [hparse] at h
  obtain ⟨place, ⟨ts, hreads, hsettled, _⟩, hposition, _⟩ := reached_of_parseWith h
  have honward := hreads.onward
  have hoffset : e.position.offset = place.pos := by rw [hposition, offset_ofOffset honward]
  have hfront := front_ofOffset name (isValid_pos honward)
    (not_inLineEnd_of_settled honward hsettled)
  rwa [← hposition, ← hoffset] at hfront

end SceneScript
