import SceneScript.Proofs.DiagnosticLines

/-!
# The caret of a diagnostic

A diagnostic shows the line that an error is in, and below it a line that copies the front of the
first one as blanks and tabs, with a caret behind them.  Both lines are found in the rendered text:
their numbers depend on the line feeds in the name of the file and in the description, which stand
above them.
-/

namespace SceneScript

open Cursor SceneScript.Parser

namespace Diagnostic

/-- The lines above the one that shows the source: the description and the name of the file may be
broken over several lines. -/
def linesAbove (d : Diagnostic) : Nat :=
  3 + Text.lineFeeds d.error.found.toList + Text.lineFeeds d.location.file.toList

/-- What stands left of the source line: its number and a bar. -/
def margin (d : Diagnostic) : String :=
  let p := Palette.ofColor d.color
  "  " ++ p.frame ++ toString d.location.line ++ p.reset ++ " " ++ (p.frame ++ "|" ++ p.reset)
    ++ " "

/-- What stands left of the pointer: as many spaces as the number has digits, and a bar. -/
def emptyMargin (d : Diagnostic) : String :=
  let p := Palette.ofColor d.color
  "  " ++ String.ofList (List.replicate (toString d.location.line).length ' ') ++ " "
    ++ (p.frame ++ "|" ++ p.reset) ++ " "

/-- The rendered diagnostic has its caret below the place of the error, and `front` is what stands
before that place in its line. -/
structure PointsAt (source : String) (d : Diagnostic) (front : List Char) : Prop where
  standsBefore : StandsBefore source d.error.position.offset front
  length_front : front.length = d.error.position.column - 1
  front_prefix : front <+: d.location.lineContent.toList
  /-- The source line is shown behind its number, without the blanks at its end. -/
  sourceLine : (Text.lines d.render.toList)[d.linesAbove]?
    = some (d.margin ++ String.ofList (Text.trimEnd d.location.lineContent.toList)).toList
  /-- Below it stand a tab for each tab, a space for anything else, and the caret. -/
  caretLine : (Text.lines d.render.toList)[d.linesAbove + 1]?
    = some (d.emptyMargin ++ String.ofList (front.map fun c => if c = '\t' then '\t' else ' ')
      ++ (Palette.ofColor d.color).error ++ "^--- here" ++ (Palette.ofColor d.color).reset).toList

end Diagnostic

variable {source name : String} {below : List Char}

/-! ## Lines of a joined text -/

/-- A line is found in the text behind the lines above it and the line feeds in those. -/
theorem Text.getElem?_lines_join {ls above more : List String} {line : String}
    (hls : ls = above ++ line :: more) (hline : OneLine line)
    (hend : line.toList.getLast? ≠ some '\r') :
    (lines (String.join (ls.map (· ++ "\n"))).toList)[above.length
        + lineFeeds (above.flatMap String.toList)]? = some line.toList := by
  subst hls
  induction above with
  | nil =>
    have htext : (String.join ((line :: more).map (· ++ "\n"))).toList
        = line.toList ++ '\n' :: (String.join (more.map (· ++ "\n"))).toList := by
      simp
    rw [List.nil_append, htext, lines_line hline hend]
    rfl
  | cons first above ih =>
    obtain ⟨ls, hlength, hls⟩ := exists_lines_above first.toList
    have htext : (String.join ((first :: above ++ line :: more).map (· ++ "\n"))).toList
        = first.toList
          ++ '\n' :: (String.join ((above ++ line :: more).map (· ++ "\n"))).toList := by
      simp
    have hindex : (first :: above).length
        + lineFeeds ((first :: above).flatMap String.toList)
          = ls.length + (above.length + lineFeeds (above.flatMap String.toList)) := by
      rw [hlength, List.length_cons, List.flatMap_cons, lineFeeds_append]
      omega
    rw [htext, hls, hindex, List.getElem?_append_right (Nat.le_add_right _ _),
      Nat.add_sub_cancel_left, ih]

/-! ## The two lines -/

namespace Diagnostic

variable {d : Diagnostic}

/-- What the first three lines of a diagnostic say. -/
def heading (d : Diagnostic) : List String :=
  let p := Palette.ofColor d.color
  [p.error ++ "error" ++ p.reset ++ ": " ++ p.title ++ d.error.kind.message ++ ", found "
     ++ d.error.found ++ p.reset,
   "  " ++ p.frame ++ "-->" ++ p.reset ++ " " ++ d.location.file ++ ":" ++ toString d.location.line
     ++ ":" ++ toString d.location.column,
   "  " ++ String.ofList (List.replicate (toString d.location.line).length ' ') ++ " "
     ++ (p.frame ++ "|" ++ p.reset)]

/-- Only the description and the name of the file break the first lines. -/
theorem lineFeeds_heading (hmessage : OneLine d.error.kind.message) :
    3 + Text.lineFeeds (d.heading.flatMap String.toList) = d.linesAbove := by
  obtain ⟨herror, hframe, _, _, _, htitle, hreset⟩ := oneLine_palette d.color
  have hgutter := oneLine_replicate (toString d.location.line).length
  have hline := oneLine_toString d.location.line
  have hcolumn := oneLine_toString d.location.column
  have hwords : OneLine "error" ∧ OneLine ": " ∧ OneLine ", found " ∧ OneLine "  " ∧ OneLine "-->"
      ∧ OneLine " " ∧ OneLine ":" ∧ OneLine "|" := by decide
  simp only [oneLine_iff_lineFeeds] at *
  simp only [heading, linesAbove, List.flatMap_cons, List.flatMap_nil, List.append_nil,
    String.toList_append, Text.lineFeeds_append, herror, hframe, htitle, hreset, hgutter, hline,
    hcolumn, hmessage, hwords]
  omega

/-- A line that shows a source ends in no carriage return: blanks at its end are cut off. -/
theorem getLast?_sourceLine (d : Diagnostic) :
    (d.margin ++ String.ofList (Text.trimEnd d.location.lineContent.toList)).toList.getLast?
      ≠ some '\r' := by
  rw [String.toList_append, String.toList_ofList, List.getLast?_append]
  cases hlast : (Text.trimEnd d.location.lineContent.toList).getLast? with
  | none =>
    rw [Option.none_or, margin, String.toList_append, List.getLast?_append]
    simp
  | some c =>
    have hblank := Text.isBlank_getLast?_trimEnd hlast
    rintro ⟨⟩
    exact absurd hblank (by decide)

theorem getLast?_caretLine (front : String) (color : Bool) :
    (front ++ (Palette.ofColor color).error ++ "^--- here"
      ++ (Palette.ofColor color).reset).toList.getLast? ≠ some '\r' := by
  simp only [String.toList_append, List.getLast?_append]
  cases color <;> simp [Palette.ofColor, Palette.plain, Palette.colored]

/-- The two lines are where they are said to be. -/
theorem getElem?_lines_render (hmessage : OneLine d.error.kind.message)
    (hcontent : OneLine d.location.lineContent) :
    (Text.lines d.render.toList)[d.linesAbove]?
        = some (d.margin ++ String.ofList (Text.trimEnd d.location.lineContent.toList)).toList
      ∧ (Text.lines d.render.toList)[d.linesAbove + 1]?
        = some (d.emptyMargin ++ String.ofList (pointer d.location)
          ++ (Palette.ofColor d.color).error ++ "^--- here"
          ++ (Palette.ofColor d.color).reset).toList := by
  have hheading : d.heading.length = 3 := rfl
  obtain ⟨herror, hframe, _, _, _, _, hreset⟩ := oneLine_palette d.color
  have hsource : OneLine
      (d.margin ++ String.ofList (Text.trimEnd d.location.lineContent.toList)) := by
    simp +decide only [margin, oneLine_append, hframe, hreset, oneLine_toString,
      oneLine_trimEnd hcontent]
  have hcaret : OneLine (d.emptyMargin ++ String.ofList (pointer d.location)
      ++ (Palette.ofColor d.color).error ++ "^--- here" ++ (Palette.ofColor d.color).reset) := by
    simp +decide only [emptyMargin, oneLine_append, oneLine_replicate, hframe, hreset, herror,
      oneLine_pointer]
  -- neither line holds a line feed, so each is found where the lines before it end
  constructor
  · obtain ⟨more, hlines⟩ : ∃ more, d.lines = d.heading
        ++ (d.margin ++ String.ofList (Text.trimEnd d.location.lineContent.toList)) :: more :=
      ⟨_, rfl⟩
    have hfound := Text.getElem?_lines_join hlines hsource d.getLast?_sourceLine
    rwa [← render, hheading, lineFeeds_heading hmessage] at hfound
  · obtain ⟨more, hlines⟩ : ∃ more, d.lines = (d.heading
        ++ [d.margin ++ String.ofList (Text.trimEnd d.location.lineContent.toList)])
        ++ (d.emptyMargin ++ String.ofList (pointer d.location) ++ (Palette.ofColor d.color).error
          ++ "^--- here" ++ (Palette.ofColor d.color).reset) :: more :=
      ⟨_, rfl⟩
    have hfound := Text.getElem?_lines_join hlines hcaret (getLast?_caretLine _ _)
    rw [← render, List.length_append, List.flatMap_append, Text.lineFeeds_append,
      List.flatMap_singleton, oneLine_iff_lineFeeds.1 hsource, Nat.add_zero, hheading,
      List.length_singleton, Nat.add_right_comm, lineFeeds_heading hmessage] at hfound
    exact hfound

end Diagnostic

/-- The caret of a rendered error is below the place of the error. -/
theorem pointsAt_of_parse_error {e : ParseError} (h : parse source = .error e) (color : Bool) :
    ((NamedSource.mk name source).diagnostic e color).PointsAt source
      ((NamedSource.mk name source).front e.position) := by
  have hparse : parse source = parseWith .nothing source := parseWith_tables source
  obtain ⟨hlength, hstands⟩ := front_of_parse_error name h
  have hmessage : OneLine e.kind.message := oneLine_message_of_parseWith (hparse ▸ h)
  have hcontent := (NamedSource.mk name source).oneLine_line? e.position.line
  obtain ⟨hsource, hcaret⟩ := Diagnostic.getElem?_lines_render
    (d := (NamedSource.mk name source).diagnostic e color) hmessage hcontent
  exact ⟨hstands, hlength, List.take_prefix _ _, hsource, hcaret⟩

/-- Later places have later positions, the line of a position begins with what stands before the
place, and the caret of a rendered diagnostic is below the place of the error. -/
theorem positions_point_at_characters (source : String) :
    (∀ first second, String.Pos.Raw.IsValid source ⟨first⟩ →
        String.Pos.Raw.IsValid source ⟨second⟩ → first < second →
        toLex ((Position.ofOffset source first).line, (Position.ofOffset source first).column)
          < toLex ((Position.ofOffset source second).line,
              (Position.ofOffset source second).column))
      ∧ (∀ name offset, String.Pos.Raw.IsValid source ⟨offset⟩ → ¬InLineEnd source offset →
        ((NamedSource.mk name source).front (Position.ofOffset source offset)).length
            = (Position.ofOffset source offset).column - 1
          ∧ StandsBefore source offset
              ((NamedSource.mk name source).front (Position.ofOffset source offset)))
      ∧ ∀ name e color, parse source = .error e →
        ((NamedSource.mk name source).diagnostic e color).PointsAt source
          ((NamedSource.mk name source).front e.position) :=
  ⟨fun _ _ => ofOffset_lt_ofOffset, fun name _ => front_ofOffset name,
    fun _ _ color h => pointsAt_of_parse_error h color⟩

/-- An error behind a tab, on the line below one with a character of two bytes and a line end of
two. -/
theorem positions_point_at_characters_behind_tab :
    ∃ e, parse "x = '\u00e4'\r\n\tdraw = 5" = .error e ∧ e.position = ⟨11, 2, 2⟩
      ∧ toLex (1, 7) < toLex (2, 2)
      ∧ StandsBefore "x = '\u00e4'\r\n\tdraw = 5" 11 ['\t']
      ∧ (Text.lines ((NamedSource.mk "a.scene" "x = '\u00e4'\r\n\tdraw = 5").diagnostic e
          false).render.toList)[4]? = some "    | \t^--- here".toList := by
  obtain ⟨hlater, hfront, herror⟩ := positions_point_at_characters "x = '\u00e4'\r\n\tdraw = 5"
  obtain ⟨e, he, hposition, hfound⟩ : ∃ e, parse "x = '\u00e4'\r\n\tdraw = 5" = .error e
      ∧ e.position = ⟨11, 2, 2⟩ ∧ e.found = "`draw`" := exists_error_of_decide (by decide +kernel)
  have hend : ¬InLineEnd "x = '\u00e4'\r\n\tdraw = 5" 11 := by
    intro hend
    exact absurd (head?_of_inLineEnd hend) (by decide)
  refine ⟨e, he, hposition, ?_, ?_, ?_⟩
  · exact hlater 7 11 (by decide +kernel) (by decide +kernel) (by decide)
  · exact (hfront "a.scene" 11 (by decide +kernel) hend).2
  · have hcaret := (herror "a.scene" e false he).caretLine
    have habove : ((NamedSource.mk "a.scene" "x = '\u00e4'\r\n\tdraw = 5").diagnostic e
        false).linesAbove = 3 := by
      show 3 + Text.lineFeeds e.found.toList + Text.lineFeeds "a.scene".toList = 3
      rw [hfound]
      decide
    rw [habove] at hcaret
    rw [hcaret, hposition]
    simp only [Diagnostic.emptyMargin, NamedSource.diagnostic, NamedSource.locate, hposition]
    decide +kernel

end SceneScript
